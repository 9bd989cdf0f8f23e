import Mathlib.Data.List.GetD
import Npunlock.Bytes

/-!
# Messages

The wire side of a binary protocol, over lists.

`fieldBytes` writes a little-endian integer and `loadField` reads one at an offset of a
message. `storeFields` fills a zeroed buffer; consecutive fields stand there one after
another (`storeFields_consecutive`). `Decodes read encode P` says of a reader
that consumes the front of its input that it accepts exactly the encodings of the values
of `P` and leaves what follows : one equivalence, so that the encoding of a value is read
back and nothing else is accepted. It composes along `>>=` (`Decodes.bind`) and along a
counted list (`Decodes.times`).

`Announced` messages state their length in a header. Two accepted messages of which one
begins with the other are equal (`Announced.eq_of_prefix`), so an acceptor of announced
messages rejects every proper prefix and every extension of what it accepts.
-/

namespace Npunlock

variable {σ α β : Type}

/-! ## Integer fields -/

/-- The `n` bytes of `v`, the least significant first. -/
def fieldBytes (n v : ℕ) : List UInt8 :=
  (List.range n).map (byteOf v)

/-- The integer in the `n` bytes at `o` of a message. -/
def loadField (m : List UInt8) (o n : ℕ) : ℕ :=
  littleEndian (fun i => m.getD i 0) o n

@[simp] theorem length_fieldBytes (n v : ℕ) : (fieldBytes n v).length = n := by
  simp [fieldBytes]

theorem loadField_lt (m : List UInt8) (o n : ℕ) : loadField m o n < 256 ^ n :=
  littleEndian_lt _ o n

theorem loadField_append_right {a b : List UInt8} {o n : ℕ} (h : a.length ≤ o) :
    loadField (a ++ b) o n = loadField b (o - a.length) n :=
  littleEndian_congr fun k hk => by
    rw [List.getD_append_right _ _ _ _ (by omega),
      show o + k - a.length = o - a.length + k by omega]

theorem loadField_take {m : List UInt8} {o n size : ℕ} (h : o + n ≤ size) :
    loadField (m.take size) o n = loadField m o n :=
  littleEndian_congr fun k hk => by
    simp [List.getD_eq_getElem?_getD, show o + k < size by omega]

/-- Reading back the field in front. -/
theorem loadField_fieldBytes (n v : ℕ) (rest : List UInt8) :
    loadField (fieldBytes n v ++ rest) 0 n = v % 256 ^ n :=
  littleEndian_byteOf fun k hk => by
    have hlength : k < (fieldBytes n v).length := by simpa using hk
    rw [Nat.zero_add, List.getD_append _ _ _ _ hlength, ← List.getElem_eq_getD (h := hlength)]
    simp [fieldBytes]

/-- The bytes of the integer at an offset are the bytes there. -/
theorem fieldBytes_loadField {m : List UInt8} {o n : ℕ} (h : o + n ≤ m.length) :
    fieldBytes n (loadField m o n) = (m.drop o).take n := by
  refine List.ext_getElem (by simp; omega) fun k hk _ => ?_
  have hk : k < n := by simpa using hk
  simp only [fieldBytes, loadField, List.getElem_map, List.getElem_range, List.getElem_take,
    List.getElem_drop]
  rw [byteOf_littleEndian _ hk]
  exact (List.getElem_eq_getD 0).symm

/-- Copies `bytes` into a buffer at an offset. -/
def storeAt (buffer : List UInt8) (o : ℕ) (bytes : List UInt8) : List UInt8 :=
  buffer.take o ++ bytes ++ buffer.drop (o + bytes.length)

/-- A zeroed buffer of `size` bytes with fields stored at their offsets. -/
def storeFields (size : ℕ) (fields : List (ℕ × List UInt8)) : List UInt8 :=
  fields.foldl (fun buffer field => storeAt buffer field.1 field.2) (List.replicate size 0)

/-- Fields that follow one another from offset `o` on. -/
def Consecutive : ℕ → List (ℕ × List UInt8) → Prop
  | _, [] => True
  | o, field :: fields => field.1 = o ∧ Consecutive (o + field.2.length) fields

theorem foldl_storeAt_consecutive :
    ∀ {fields : List (ℕ × List UInt8)} {written : List UInt8} {n : ℕ},
      Consecutive written.length fields → (fields.map Prod.snd).flatten.length ≤ n →
        fields.foldl (fun buffer field => storeAt buffer field.1 field.2)
            (written ++ List.replicate n 0) =
          written ++ ((fields.map Prod.snd).flatten ++
            List.replicate (n - (fields.map Prod.snd).flatten.length) 0)
  | [], written, n, _, _ => by simp
  | (o, bytes) :: fields, written, n, ⟨ho, hnext⟩, hle => by
    obtain rfl : o = written.length := ho
    have hle : bytes.length + (fields.map Prod.snd).flatten.length ≤ n := by simpa using hle
    have hstore : storeAt (written ++ List.replicate n 0) written.length bytes =
        (written ++ bytes) ++ List.replicate (n - bytes.length) 0 := by
      rw [storeAt, List.take_left, ← List.drop_drop, List.drop_left, List.drop_replicate]
    rw [List.foldl_cons, hstore,
      foldl_storeAt_consecutive (by simpa using hnext) (by omega), List.map_cons,
      List.flatten_cons, List.length_append, Nat.sub_sub]
    simp

/-- A buffer of consecutive fields is the fields and what they leave zero. -/
theorem storeFields_consecutive {size : ℕ} {fields : List (ℕ × List UInt8)}
    (h : Consecutive 0 fields) (hle : (fields.map Prod.snd).flatten.length ≤ size) :
    storeFields size fields = (fields.map Prod.snd).flatten ++
      List.replicate (size - (fields.map Prod.snd).flatten.length) 0 := by
  have h : Consecutive ([] : List UInt8).length fields := h
  rw [storeFields]
  simpa using foldl_storeAt_consecutive h hle

/-! ## Readers of the front of the input -/

/-- `read` accepts exactly the encodings of the values of `P`, and leaves what follows. -/
def Decodes (read : List σ → Option (α × List σ)) (encode : α → List σ) (P : α → Prop) : Prop :=
  ∀ input a rest, read input = some (a, rest) ↔ P a ∧ input = encode a ++ rest

/-- Takes `n` symbols. -/
def readExactly (n : ℕ) (input : List σ) : Option (List σ × List σ) :=
  if input.length < n then none else some (input.take n, input.drop n)

/-- Runs a reader `n` times. -/
def readTimes (read : List σ → Option (α × List σ)) : ℕ → List σ → Option (List α × List σ)
  | 0, input => some ([], input)
  | n + 1, input => do
    let (a, input) ← read input
    let (l, input) ← readTimes read n input
    some (a :: l, input)

theorem readExactly_decodes (n : ℕ) :
    Decodes (readExactly n) (fun l : List σ => l) fun l => l.length = n := by
  intro input l rest
  rw [readExactly, Option.ite_none_left_eq_some, Option.some.injEq, Prod.mk.injEq]
  refine ⟨fun ⟨hn, hl, hrest⟩ => ?_, fun ⟨hn, hinput⟩ => ?_⟩
  · refine ⟨?_, by rw [← hl, ← hrest, List.take_append_drop]⟩
    have hlength : (input.take n).length = l.length := by rw [hl]
    rw [List.length_take] at hlength
    omega
  · subst hn
    simp [hinput]

namespace Decodes

variable {read : List σ → Option (α × List σ)} {encode : α → List σ} {P : α → Prop}

/-- The encoding of a value is read back. -/
theorem read_encode (h : Decodes read encode P) {a : α} (ha : P a) (rest : List σ) :
    read (encode a ++ rest) = some (a, rest) :=
  (h _ a rest).2 ⟨ha, rfl⟩

theorem congr {encode' : α → List σ} {P' : α → Prop} (h : Decodes read encode P)
    (hP : ∀ a, P a ↔ P' a) (hencode : ∀ a, P a → encode a = encode' a) :
    Decodes read encode' P' := by
  intro input a rest
  rw [h, ← hP]
  exact and_congr_right fun ha => by rw [hencode a ha]

/-- One reader after another that may depend on the value read. The later value `b`
determines the earlier one, `key b`. -/
theorem bind {next : α → List σ → Option (β × List σ)} {encode' : β → List σ} {Q : β → Prop}
    (h : Decodes read encode P) (key : β → α)
    (hnext : ∀ a, P a → Decodes (next a) encode' fun b => key b = a ∧ Q b) :
    Decodes (fun input => read input >>= fun p => next p.1 p.2)
      (fun b => encode (key b) ++ encode' b) fun b => P (key b) ∧ Q b := by
  intro input b rest
  simp only [Option.bind_eq_bind, Option.bind_eq_some_iff, Prod.exists]
  constructor
  · rintro ⟨a, input', hread, hb⟩
    obtain ⟨ha, rfl⟩ := (h _ _ _).1 hread
    obtain ⟨⟨rfl, hQ⟩, rfl⟩ := (hnext a ha _ _ _).1 hb
    exact ⟨⟨ha, hQ⟩, by rw [List.append_assoc]⟩
  · rintro ⟨⟨hP, hQ⟩, rfl⟩
    refine ⟨key b, encode' b ++ rest, ?_, ?_⟩
    · rw [List.append_assoc]
      exact h.read_encode hP _
    · exact (hnext _ hP).read_encode ⟨rfl, hQ⟩ _

/-- A counted list. -/
theorem times (h : Decodes read encode P) :
    ∀ n, Decodes (readTimes read n) (fun l => l.flatMap encode)
      fun l => l.length = n ∧ ∀ a ∈ l, P a
  | 0 => fun input l rest => by
    cases l <;> simp [readTimes, eq_comm]
  | n + 1 => fun input l rest => by
    have ih := times h n
    simp only [readTimes, Option.bind_eq_bind, Option.bind_eq_some_iff, Prod.exists]
    constructor
    · rintro ⟨a, input', hread, l', rest', hl', heq⟩
      obtain ⟨rfl, rfl⟩ : a :: l' = l ∧ rest' = rest := by simpa using heq
      obtain ⟨ha, rfl⟩ := (h _ _ _).1 hread
      obtain ⟨⟨hlength, hP⟩, rfl⟩ := (ih _ _ _).1 hl'
      exact ⟨⟨by simp [hlength], by simpa using ⟨ha, hP⟩⟩, by simp⟩
    · rintro ⟨⟨hlength, hP⟩, rfl⟩
      cases l with
      | nil => simp at hlength
      | cons a l =>
        have hl : l.length = n := by simpa using hlength
        refine ⟨a, l.flatMap encode ++ rest, ?_, l, rest, ?_, rfl⟩
        · rw [List.flatMap_cons, List.append_assoc]
          exact h.read_encode (hP a (by simp)) _
        · exact ih.read_encode ⟨hl, fun b hb => hP b (by simp [hb])⟩ _

end Decodes

/-! ## Messages that announce their length -/

/-- Every accepted message has a header, and the length the header announces. -/
structure Announced (accepts : List σ → Prop) (header : ℕ) (length : List σ → ℕ) : Prop where
  header_le : ∀ m, accepts m → header ≤ m.length
  length_eq : ∀ m, accepts m → m.length = length (m.take header)

/-- No accepted message is a proper prefix or an extension of another. -/
theorem Announced.eq_of_prefix {accepts : List σ → Prop} {header : ℕ} {length : List σ → ℕ}
    (h : Announced accepts header length) {m m' : List σ} (hm : accepts m) (hm' : accepts m')
    (hbegins : List.IsPrefix m m') : m = m' := by
  obtain ⟨rest, rfl⟩ := hbegins
  have htake : (m ++ rest).take header = m.take header :=
    List.take_append_of_le_length (h.header_le m hm)
  have hlength : (m ++ rest).length = m.length := by
    rw [h.length_eq _ hm', htake, ← h.length_eq m hm]
  have hrest : rest = [] := by
    simpa using hlength
  rw [hrest, List.append_nil]

end Npunlock
