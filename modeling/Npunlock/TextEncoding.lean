import Mathlib.Algebra.Order.Group.Nat
import Mathlib.Data.List.Basic
import Npunlock.JsString

/-!
# Text encodings

UTF-16 code units, UTF-8 bytes and scalar values (`Char`). A lone surrogate of a string stands
for U+FFFD, and so does a sequence of bytes that encodes nothing.

The UTF-8 decoder is a machine that takes the bytes one by one. `utf8Run` is the machine that
stops at an error, `utf8Decode` the one that replaces it. Both read back what
`String.utf8EncodeChar` writes (`utf8Run_encode`, `utf8Decode_encode`).
-/

namespace Npunlock

/-- U+FFFD. -/
def replacementChar : Char :=
  Char.ofNat 0xfffd

/-! ## UTF-16 -/

def isHighSurrogate (unit : CodeUnit) : Bool :=
  0xd800 ≤ unit.toNat && unit.toNat ≤ 0xdbff

def isLowSurrogate (unit : CodeUnit) : Bool :=
  0xdc00 ≤ unit.toNat && unit.toNat ≤ 0xdfff

/-- The scalar value of a surrogate pair. -/
def pairChar (high low : CodeUnit) : Char :=
  Char.ofNat (0x10000 + (high.toNat - 0xd800) * 0x400 + (low.toNat - 0xdc00))

/-- The scalar values of a string, with U+FFFD for each lone surrogate. -/
def scalars : JsString → List Char
  | [] => []
  | unit :: rest =>
    if isHighSurrogate unit then
      match rest with
      | [] => [replacementChar]
      | next :: rest' =>
        if isLowSurrogate next then pairChar unit next :: scalars rest'
        else replacementChar :: scalars (next :: rest')
    else if isLowSurrogate unit then replacementChar :: scalars rest
    else Char.ofNat unit.toNat :: scalars rest

/-- The string has no lone surrogate. -/
def isWellFormed : JsString → Bool
  | [] => true
  | unit :: rest =>
    if isHighSurrogate unit then
      match rest with
      | [] => false
      | next :: rest' => isLowSurrogate next && isWellFormed rest'
    else !isLowSurrogate unit && isWellFormed rest

def utf16Char (char : Char) : JsString :=
  if char.toNat < 0x10000 then [UInt16.ofNat char.toNat]
  else [UInt16.ofNat (0xd800 + (char.toNat - 0x10000) / 0x400),
    UInt16.ofNat (0xdc00 + (char.toNat - 0x10000) % 0x400)]

def utf16 (chars : List Char) : JsString :=
  chars.flatMap utf16Char

theorem toNat_bounds (char : Char) :
    char.toNat < 0xd800 ∨ 0xdfff < char.toNat ∧ char.toNat < 0x110000 :=
  char.valid

theorem toNat_charOfNat {n : ℕ} (h : n < 0xd800 ∨ 0xdfff < n ∧ n < 0x110000) :
    (Char.ofNat n).toNat = n := by
  rw [Char.ofNat, dif_pos h]
  rfl

/-- A string without lone surrogates is read back from its scalar values. -/
theorem utf16_scalars : ∀ {text : JsString}, isWellFormed text = true → utf16 (scalars text) = text
  | [], _ => rfl
  | unit :: rest, h => by
    have hunit := unit.toNat_lt
    rw [isWellFormed.eq_def] at h
    rw [scalars.eq_def]
    dsimp only at h ⊢
    split_ifs at h ⊢ with hhigh hlow
    · cases rest with
      | nil => cases h
      | cons next rest' =>
        simp only [Bool.and_eq_true] at h
        obtain ⟨hnext, hrest⟩ := h
        dsimp only
        rw [if_pos hnext, utf16, List.flatMap_cons]
        have ih := utf16_scalars hrest
        unfold utf16 at ih
        rw [ih]
        simp only [isHighSurrogate, isLowSurrogate, Bool.and_eq_true,
          decide_eq_true_eq] at hhigh hnext
        have hpair : (pairChar unit next).toNat =
            0x10000 + (unit.toNat - 0xd800) * 0x400 + (next.toNat - 0xdc00) :=
          toNat_charOfNat (by omega)
        rw [utf16Char, hpair, if_neg (by omega)]
        have hfirst : UInt16.ofNat (0xd800 + (0x10000 + (unit.toNat - 0xd800) * 0x400 +
            (next.toNat - 0xdc00) - 0x10000) / 0x400) = unit := by
          rw [← UInt16.toNat_inj, UInt16.toNat_ofNat']
          omega
        have hsecond : UInt16.ofNat (0xdc00 + (0x10000 + (unit.toNat - 0xd800) * 0x400 +
            (next.toNat - 0xdc00) - 0x10000) % 0x400) = next := by
          rw [← UInt16.toNat_inj, UInt16.toNat_ofNat']
          omega
        rw [hfirst, hsecond]
        rfl
    · simp [hlow] at h
    · simp only [hlow, Bool.not_false, Bool.true_and] at h
      have ih := utf16_scalars h
      unfold utf16 at ih ⊢
      rw [List.flatMap_cons, ih]
      simp only [isHighSurrogate, isLowSurrogate, Bool.and_eq_true, decide_eq_true_eq,
        not_and] at hhigh hlow
      have hchar : (Char.ofNat unit.toNat).toNat = unit.toNat := toNat_charOfNat (by omega)
      rw [utf16Char, hchar, if_pos hunit, UInt16.ofNat_toNat]
      rfl

theorem isWellFormed_utf16Char_append (char : Char) (rest : JsString) :
    isWellFormed (utf16Char char ++ rest) = isWellFormed rest := by
  have hchar := toNat_bounds char
  unfold utf16Char
  split_ifs with hsmall
  · have hunit : (UInt16.ofNat char.toNat).toNat = char.toNat := by
      rw [UInt16.toNat_ofNat']
      omega
    have hlow : isLowSurrogate (UInt16.ofNat char.toNat) = false := by
      rw [isLowSurrogate, hunit]
      simp
      omega
    rw [List.singleton_append, isWellFormed.eq_def]
    dsimp only
    rw [if_neg (by rw [isHighSurrogate, hunit]; simp; omega), hlow]
    rfl
  · have hhigh : (UInt16.ofNat (0xd800 + (char.toNat - 0x10000) / 0x400)).toNat =
        0xd800 + (char.toNat - 0x10000) / 0x400 := by
      rw [UInt16.toNat_ofNat']
      omega
    have hlow : (UInt16.ofNat (0xdc00 + (char.toNat - 0x10000) % 0x400)).toNat =
        0xdc00 + (char.toNat - 0x10000) % 0x400 := by
      rw [UInt16.toNat_ofNat']
      omega
    have hpair : isLowSurrogate (UInt16.ofNat (0xdc00 + (char.toNat - 0x10000) % 0x400)) =
        true := by
      rw [isLowSurrogate, hlow]
      simp
      omega
    rw [List.cons_append, List.singleton_append, isWellFormed.eq_def]
    dsimp only
    rw [if_pos (by rw [isHighSurrogate, hhigh]; simp; omega), hpair, Bool.true_and]

theorem isWellFormed_utf16 : ∀ chars : List Char, isWellFormed (utf16 chars) = true
  | [] => rfl
  | char :: chars => by
    rw [utf16, List.flatMap_cons, isWellFormed_utf16Char_append]
    exact isWellFormed_utf16 chars

/-! ## UTF-8 -/

/-- The state of the decoder : how many bytes are missing, the value read so far, and the bounds
of the next byte. -/
structure Utf8State where
  needed : ℕ
  codePoint : ℕ
  lower : ℕ
  upper : ℕ
  deriving DecidableEq

/-- The state between two characters. -/
def Utf8State.initial : Utf8State :=
  ⟨0, 0, 0x80, 0xbf⟩

/-- The first byte of a character. -/
def utf8Lead (byte : UInt8) : Option (List Char × Utf8State) :=
  let value := byte.toNat
  if value < 0x80 then some ([Char.ofNat value], .initial)
  else if value < 0xc2 then none
  else if value < 0xe0 then some ([], ⟨1, value - 0xc0, 0x80, 0xbf⟩)
  else if value < 0xf0 then
    some ([], ⟨2, value - 0xe0, if value = 0xe0 then 0xa0 else 0x80,
      if value = 0xed then 0x9f else 0xbf⟩)
  else if value < 0xf5 then
    some ([], ⟨3, value - 0xf0, if value = 0xf0 then 0x90 else 0x80,
      if value = 0xf4 then 0x8f else 0xbf⟩)
  else none

/-- A further byte of a character. -/
def utf8Continue (state : Utf8State) (byte : UInt8) : Option (List Char × Utf8State) :=
  if byte.toNat < state.lower ∨ state.upper < byte.toNat then none
  else
    let codePoint := state.codePoint * 64 + (byte.toNat - 0x80)
    if state.needed = 1 then some ([Char.ofNat codePoint], .initial)
    else some ([], ⟨state.needed - 1, codePoint, 0x80, 0xbf⟩)

def utf8Step (state : Utf8State) (byte : UInt8) : Option (List Char × Utf8State) :=
  if state.needed = 0 then utf8Lead byte else utf8Continue state byte

/-- Decodes bytes and stops at an error. -/
def utf8Run : Utf8State → List UInt8 → Option (List Char × Utf8State)
  | state, [] => some ([], state)
  | state, byte :: rest => do
    let (chars, state) ← utf8Step state byte
    let (chars', state) ← utf8Run state rest
    pure (chars ++ chars', state)

/-- A first byte, with U+FFFD for an error. -/
def utf8LeadLossy (byte : UInt8) : List Char × Utf8State :=
  (utf8Lead byte).getD ([replacementChar], .initial)

/-- A byte, with U+FFFD for an error. A byte that ends a character too early is read again. -/
def utf8StepLossy (state : Utf8State) (byte : UInt8) : List Char × Utf8State :=
  match utf8Step state byte with
  | some result => result
  | none =>
    if state.needed = 0 then utf8LeadLossy byte
    else (replacementChar :: (utf8LeadLossy byte).1, (utf8LeadLossy byte).2)

/-- Decodes bytes, with U+FFFD for every error. -/
def utf8Decode : Utf8State → List UInt8 → List Char
  | state, [] => if state.needed = 0 then [] else [replacementChar]
  | state, byte :: rest =>
    (utf8StepLossy state byte).1 ++ utf8Decode (utf8StepLossy state byte).2 rest

def utf8 (chars : List Char) : List UInt8 :=
  chars.flatMap String.utf8EncodeChar

section Run

variable {state state' mid : Utf8State} {byte : UInt8} {bytes rest : List UInt8}
  {chars first : List Char}

theorem utf8Run_cons (h : utf8Step state byte = some (first, mid)) :
    utf8Run state (byte :: rest) =
      (utf8Run mid rest).map fun result => (first ++ result.1, result.2) := by
  rw [utf8Run, h]
  cases hrun : utf8Run mid rest <;> simp [hrun]

theorem utf8Run_cons_eq_some (h : utf8Run state (byte :: rest) = some (chars, state')) :
    ∃ first mid others, utf8Step state byte = some (first, mid) ∧
      utf8Run mid rest = some (others, state') ∧ chars = first ++ others := by
  cases hstep : utf8Step state byte with
  | none =>
    rw [utf8Run, hstep] at h
    cases h
  | some result =>
    obtain ⟨first, mid⟩ := result
    rw [utf8Run_cons hstep, Option.map_eq_some_iff] at h
    obtain ⟨⟨others, last⟩, hrun, heq⟩ := h
    obtain ⟨rfl, rfl⟩ := Prod.mk.inj heq
    exact ⟨first, mid, others, rfl, hrun, rfl⟩

theorem utf8Run_append : ∀ {bytes : List UInt8} {state : Utf8State} {chars : List Char},
    utf8Run state bytes = some (chars, state') → utf8Run state (bytes ++ rest) =
      (utf8Run state' rest).map fun result => (chars ++ result.1, result.2)
  | [], state, chars, h => by
    obtain ⟨rfl, rfl⟩ := Prod.mk.inj (Option.some.inj h)
    cases hrest : utf8Run state rest <;> simp [hrest]
  | byte :: bytes, state, chars, h => by
    obtain ⟨first, mid, others, hstep, hrun, rfl⟩ := utf8Run_cons_eq_some h
    rw [List.cons_append, utf8Run_cons hstep, utf8Run_append hrun, Option.map_map]
    simp [Function.comp_def]

theorem utf8Decode_append : ∀ {bytes : List UInt8} {state : Utf8State} {chars : List Char},
    utf8Run state bytes = some (chars, state') →
      utf8Decode state (bytes ++ rest) = chars ++ utf8Decode state' rest
  | [], state, chars, h => by
    obtain ⟨rfl, rfl⟩ := Prod.mk.inj (Option.some.inj h)
    rfl
  | byte :: bytes, state, chars, h => by
    obtain ⟨first, mid, others, hstep, hrun, rfl⟩ := utf8Run_cons_eq_some h
    have hlossy : utf8StepLossy state byte = (first, mid) := by rw [utf8StepLossy, hstep]
    rw [List.cons_append, utf8Decode, hlossy, utf8Decode_append hrun, List.append_assoc]

end Run

section Forms

variable {n : ℕ} {a b c d : UInt8}

theorem utf8Step_continue {state : Utf8State} {byte : UInt8} (hneeded : 1 < state.needed)
    (hlower : state.lower ≤ byte.toNat) (hupper : byte.toNat ≤ state.upper) :
    utf8Step state byte = some ([], ⟨state.needed - 1,
      state.codePoint * 64 + (byte.toNat - 0x80), 0x80, 0xbf⟩) := by
  rw [utf8Step, if_neg (by omega), utf8Continue, if_neg (by omega)]
  dsimp only
  rw [if_neg (by omega)]

theorem utf8Step_last {state : Utf8State} {byte : UInt8} (hneeded : state.needed = 1)
    (hlower : state.lower ≤ byte.toNat) (hupper : byte.toNat ≤ state.upper) :
    utf8Step state byte = some
      ([Char.ofNat (state.codePoint * 64 + (byte.toNat - 0x80))], .initial) := by
  rw [utf8Step, if_neg (by omega), utf8Continue, if_neg (by omega)]
  dsimp only
  rw [if_pos hneeded]

theorem utf8Run_one (ha : a.toNat = n) (h : n < 0x80) :
    utf8Run .initial [a] = some ([Char.ofNat n], .initial) := by
  have hstep : utf8Step .initial a = some ([Char.ofNat n], .initial) := by
    rw [utf8Step, if_pos (by rfl), utf8Lead, ha]
    rw [if_pos h]
  rw [utf8Run_cons hstep]
  rfl

theorem utf8Run_two (ha : a.toNat = 0xc0 + n / 64) (hb : b.toNat = 0x80 + n % 64)
    (h : 0x80 ≤ n ∧ n < 0x800) :
    utf8Run .initial [a, b] = some ([Char.ofNat n], .initial) := by
  have hlead : utf8Step .initial a = some ([], ⟨1, n / 64, 0x80, 0xbf⟩) := by
    rw [utf8Step, if_pos (by rfl), utf8Lead, ha]
    rw [if_neg (by omega), if_neg (by omega), if_pos (by omega), Nat.add_sub_cancel_left]
  have hvalue : n / 64 * 64 + (b.toNat - 0x80) = n := by omega
  rw [utf8Run_cons hlead,
    utf8Run_cons (utf8Step_last rfl (by dsimp only; omega) (by dsimp only; omega))]
  dsimp only
  rw [hvalue]
  rfl

theorem utf8Run_three (ha : a.toNat = 0xe0 + n / 4096) (hb : b.toNat = 0x80 + n / 64 % 64)
    (hc : c.toNat = 0x80 + n % 64) (h : 0x800 ≤ n ∧ n < 0x10000)
    (hsurrogate : n < 0xd800 ∨ 0xdfff < n) :
    utf8Run .initial [a, b, c] = some ([Char.ofNat n], .initial) := by
  have hlead : utf8Step .initial a = some ([], ⟨2, n / 4096,
      if 0xe0 + n / 4096 = 0xe0 then 0xa0 else 0x80,
      if 0xe0 + n / 4096 = 0xed then 0x9f else 0xbf⟩) := by
    rw [utf8Step, if_pos (by rfl), utf8Lead, ha]
    rw [if_neg (by omega), if_neg (by omega), if_neg (by omega), if_pos (by omega),
      Nat.add_sub_cancel_left]
  have hvalue : (n / 4096 * 64 + (b.toNat - 0x80)) * 64 + (c.toNat - 0x80) = n := by omega
  rw [utf8Run_cons hlead,
    utf8Run_cons (utf8Step_continue (by dsimp only; omega) (by dsimp only; split_ifs <;> omega)
      (by dsimp only; split_ifs <;> omega)),
    utf8Run_cons (utf8Step_last rfl (by dsimp only; omega) (by dsimp only; omega))]
  dsimp only
  rw [hvalue]
  rfl

theorem utf8Run_four (ha : a.toNat = 0xf0 + n / 262144) (hb : b.toNat = 0x80 + n / 4096 % 64)
    (hc : c.toNat = 0x80 + n / 64 % 64) (hd : d.toNat = 0x80 + n % 64)
    (h : 0x10000 ≤ n ∧ n < 0x110000) :
    utf8Run .initial [a, b, c, d] = some ([Char.ofNat n], .initial) := by
  have hlead : utf8Step .initial a = some ([], ⟨3, n / 262144,
      if 0xf0 + n / 262144 = 0xf0 then 0x90 else 0x80,
      if 0xf0 + n / 262144 = 0xf4 then 0x8f else 0xbf⟩) := by
    rw [utf8Step, if_pos (by rfl), utf8Lead, ha]
    rw [if_neg (by omega), if_neg (by omega), if_neg (by omega), if_neg (by omega),
      if_pos (by omega), Nat.add_sub_cancel_left]
  have hvalue : ((n / 262144 * 64 + (b.toNat - 0x80)) * 64 + (c.toNat - 0x80)) * 64 +
      (d.toNat - 0x80) = n := by omega
  rw [utf8Run_cons hlead,
    utf8Run_cons (utf8Step_continue (by dsimp only; omega) (by dsimp only; split_ifs <;> omega)
      (by dsimp only; split_ifs <;> omega)),
    utf8Run_cons (utf8Step_continue (by dsimp only; omega) (by dsimp only; omega)
      (by dsimp only; omega)),
    utf8Run_cons (utf8Step_last rfl (by dsimp only; omega) (by dsimp only; omega))]
  dsimp only
  rw [hvalue]
  rfl

end Forms

/-- The decoder reads a character back, and is between two characters then. -/
theorem utf8Run_encodeChar (char : Char) :
    utf8Run .initial (String.utf8EncodeChar char) = some ([char], .initial) := by
  have hval : char.val.toNat = char.toNat := rfl
  have hbounds := toNat_bounds char
  have hchar := Char.ofNat_toNat char
  unfold String.utf8EncodeChar
  rw [hval]
  generalize char.toNat = n at hbounds hchar
  subst hchar
  dsimp only
  split_ifs with hone htwo hthree
  · exact utf8Run_one (by simp; omega) (by omega)
  · exact utf8Run_two (by simp; omega) (by simp; omega) (by omega)
  · exact utf8Run_three (by simp; omega) (by simp; omega) (by simp; omega) (by omega) (by omega)
  · exact utf8Run_four (by simp; omega) (by simp; omega) (by simp; omega) (by simp; omega)
      (by omega)

theorem utf8Run_utf8 : ∀ chars : List Char, utf8Run .initial (utf8 chars) = some (chars, .initial)
  | [] => rfl
  | char :: chars => by
    have ih := utf8Run_utf8 chars
    unfold utf8 at ih ⊢
    rw [List.flatMap_cons, utf8Run_append (utf8Run_encodeChar char), ih]
    rfl

theorem utf8Decode_utf8 (chars : List Char) : utf8Decode .initial (utf8 chars) = chars := by
  have h : utf8Decode .initial (utf8 chars ++ []) = _ := utf8Decode_append (utf8Run_utf8 chars)
  rwa [List.append_nil, utf8Decode, if_pos (by rfl), List.append_nil] at h

end Npunlock
