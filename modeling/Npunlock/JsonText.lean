import Npunlock.Json

/-!
# JSON texts

The texts of JSON values without white space, escapes and fractions, as a grammar
(`Json.Derives`) and as a reader (`Json.read`). The reader reads every text of the grammar
(`Json.read_of_isDocument`), so a text is the text of one value at most.
-/

namespace Npunlock

namespace Json

/-! ## The grammar -/

/-- A character that stands for itself in a string. -/
def IsPlain (c : Char) : Prop :=
  c ≠ '"' ∧ c ≠ '\\' ∧ 0x20 ≤ c.toNat

instance (c : Char) : Decidable (IsPlain c) :=
  inferInstanceAs (Decidable (_ ∧ _))

/-- All characters are plain. -/
def IsPlainText (text : String) : Prop :=
  ∀ c ∈ text.toList, IsPlain c

instance (text : String) : Decidable (IsPlainText text) :=
  decidable_of_iff (text.toList.all (IsPlain ·)) (by simp [IsPlainText])

/-- White space between the tokens of a text. -/
def isSpace (c : Char) : Bool :=
  c = ' ' ∨ c = '\t' ∨ c = '\n' ∨ c = '\r'

/-- A string in its quotes. -/
def quoted (s : String) : List Char :=
  '"' :: s.toList ++ ['"']

/-- The digits of an integer, with its sign. -/
def integerText : ℤ → List Char
  | .ofNat n => Nat.toDigits 10 n
  | .negSucc n => '-' :: Nat.toDigits 10 (n + 1)

/-- What a piece of a text stands for. -/
inductive Part
  | value (json : Json)
  | items (items : List Json)
  | fields (fields : List (String × Json))

/-- The rules of the grammar. -/
inductive Derives : Part → List Char → Prop
  | null : Derives (.value .null) ['n', 'u', 'l', 'l']
  | true : Derives (.value (.boolean true)) ['t', 'r', 'u', 'e']
  | false : Derives (.value (.boolean false)) ['f', 'a', 'l', 's', 'e']
  | number (n : ℤ) : Derives (.value (.number n)) (integerText n)
  | string {s : String} : (∀ c ∈ s.toList, IsPlain c) → Derives (.value (.string s)) (quoted s)
  | array {items : List Json} {text : List Char} : Derives (.items items) text →
      Derives (.value (.array items)) ('[' :: text ++ [']'])
  | object {fields : List (String × Json)} {text : List Char} : Derives (.fields fields) text →
      Derives (.value (.object fields)) ('\x7b' :: text ++ ['\x7d'])
  | noItems : Derives (.items []) []
  | lastItem {item : Json} {text : List Char} : Derives (.value item) text →
      Derives (.items [item]) text
  | nextItem {item next : Json} {items : List Json} {text rest : List Char} :
      Derives (.value item) text → Derives (.items (next :: items)) rest →
      Derives (.items (item :: next :: items)) (text ++ ',' :: rest)
  | noFields : Derives (.fields []) []
  | lastField {key : String} {value : Json} {text : List Char} :
      (∀ c ∈ key.toList, IsPlain c) → Derives (.value value) text →
      Derives (.fields [(key, value)]) (quoted key ++ ':' :: text)
  | nextField {key : String} {value : Json} {next : String × Json}
      {fields : List (String × Json)} {text rest : List Char} :
      (∀ c ∈ key.toList, IsPlain c) → Derives (.value value) text →
      Derives (.fields (next :: fields)) rest →
      Derives (.fields ((key, value) :: next :: fields))
        (quoted key ++ ':' :: (text ++ ',' :: rest))

/-- A document : the text of a value, and white space behind it. -/
def IsDocument (json : Json) (text : List Char) : Prop :=
  ∃ body space, text = body ++ space ∧ (∀ c ∈ space, isSpace c = Bool.true) ∧
    Derives (.value json) body

/-! ## The reader -/

/-- The characters of a string up to its closing quote. -/
def readChars : List Char → Option (List Char × List Char)
  | [] => none
  | c :: rest =>
    if c = '"' then some ([], rest)
    else if IsPlain c then (readChars rest).map fun (chars, rest) => (c :: chars, rest)
    else none

/-- The digits of a number. -/
def readNatural (text : List Char) : Option (ℕ × List Char) :=
  let digits := text.takeWhile Char.isDigit
  if digits = [] then none
  else some (Nat.ofDigitChars 10 digits 0, text.dropWhile Char.isDigit)

mutual

/-- A value, and the text behind it. -/
def readValue : ℕ → List Char → Option (Json × List Char)
  | 0, _ => none
  | _ + 1, [] => none
  | fuel + 1, c :: rest =>
    if c = '"' then (readChars rest).map fun (chars, rest) => (.string (String.ofList chars), rest)
    else if c = '[' then
      if rest.head? = some ']' then some (.array [], rest.tail)
      else (readItems fuel rest).map fun (items, rest) => (.array items, rest)
    else if c = '\x7b' then
      if rest.head? = some '\x7d' then some (.object [], rest.tail)
      else (readFields fuel rest).map fun (fields, rest) => (.object fields, rest)
    else if c = 'n' then
      if rest.take 3 = ['u', 'l', 'l'] then some (.null, rest.drop 3) else none
    else if c = 't' then
      if rest.take 3 = ['r', 'u', 'e'] then some (.boolean true, rest.drop 3) else none
    else if c = 'f' then
      if rest.take 4 = ['a', 'l', 's', 'e'] then some (.boolean false, rest.drop 4) else none
    else if c = '-' then (readNatural rest).map fun (n, rest) => (.number (-n), rest)
    else (readNatural (c :: rest)).map fun (n, rest) => (.number n, rest)

/-- The items up to the closing bracket. -/
def readItems : ℕ → List Char → Option (List Json × List Char)
  | 0, _ => none
  | fuel + 1, text => do
    let (item, rest) ← readValue fuel text
    match rest with
    | ',' :: rest => do
      let (items, rest) ← readItems fuel rest
      some (item :: items, rest)
    | ']' :: rest => some ([item], rest)
    | _ => none

/-- The fields up to the closing brace. -/
def readFields : ℕ → List Char → Option (List (String × Json) × List Char)
  | 0, _ => none
  | _ + 1, [] => none
  | fuel + 1, c :: rest => do
    if c ≠ '"' then none
    let (key, rest) ← readChars rest
    if rest.head? ≠ some ':' then none
    let (value, rest) ← readValue fuel rest.tail
    match rest with
    | ',' :: rest => do
      let (fields, rest) ← readFields fuel rest
      some ((String.ofList key, value) :: fields, rest)
    | '\x7d' :: rest => some ([(String.ofList key, value)], rest)
    | _ => none

end

/-- The value of a document. -/
def read (text : List Char) : Option Json := do
  let (json, rest) ← readValue (text.length + 1) text
  if rest.all isSpace then some json else none

/-! ## The reader reads the grammar -/

theorem readChars_append {chars rest : List Char} (h : ∀ c ∈ chars, IsPlain c) :
    readChars (chars ++ '"' :: rest) = some (chars, rest) := by
  induction chars with
  | nil => simp [readChars]
  | cons c chars ih =>
    obtain ⟨hc, hchars⟩ := List.forall_mem_cons.1 h
    rw [List.cons_append, readChars, if_neg hc.1, if_pos hc, ih hchars]
    rfl

/-- The text does not go on with a digit. -/
def NoDigit (text : List Char) : Prop :=
  ∀ c ∈ text.head?, c.isDigit = Bool.false

theorem readNatural_append {rest : List Char} (n : ℕ) (h : NoDigit rest) :
    readNatural (Nat.toDigits 10 n ++ rest) = some (n, rest) := by
  have hdigits : ∀ c ∈ Nat.toDigits 10 n, c.isDigit = Bool.true := fun c hc =>
    Nat.isDigit_of_mem_toDigits (by decide) (by decide) hc
  have hrest : rest.takeWhile Char.isDigit = [] ∧ rest.dropWhile Char.isDigit = rest := by
    cases rest with
    | nil => exact ⟨rfl, rfl⟩
    | cons c rest =>
      have hc : c.isDigit = Bool.false := h c rfl
      simp [hc]
  have htake : (Nat.toDigits 10 n ++ rest).takeWhile Char.isDigit = Nat.toDigits 10 n := by
    rw [List.takeWhile_append_of_pos hdigits, hrest.1, List.append_nil]
  have hdrop : (Nat.toDigits 10 n ++ rest).dropWhile Char.isDigit = rest := by
    rw [List.dropWhile_append_of_pos hdigits, hrest.2]
  unfold readNatural
  dsimp only
  rw [htake, hdrop, if_neg Nat.toDigits_ne_nil, Nat.ofDigitChars_ten_toDigits]

/-- The first character of a number is a digit, and none of the others that the reader
asks for. -/
theorem readValue_digits {fuel : ℕ} {rest : List Char} (n : ℕ) (h : NoDigit rest) :
    readValue (fuel + 1) (Nat.toDigits 10 n ++ rest) = some (.number n, rest) := by
  have hread := readNatural_append n h
  obtain ⟨c, digits, hcons⟩ := List.exists_cons_of_ne_nil (@Nat.toDigits_ne_nil n 10)
  have hc : c.isDigit = Bool.true :=
    Nat.isDigit_of_mem_toDigits (by decide) (by decide) (hcons ▸ List.mem_cons_self)
  have hne {d : Char} (hd : d.isDigit = Bool.false) : c ≠ d := by
    rintro rfl
    rw [hc] at hd
    cases hd
  rw [hcons, List.cons_append] at hread ⊢
  rw [readValue, if_neg (hne rfl), if_neg (hne rfl), if_neg (hne rfl), if_neg (hne rfl),
    if_neg (hne rfl), if_neg (hne rfl), if_neg (hne rfl), hread]
  rfl

theorem readValue_integerText {fuel : ℕ} {rest : List Char} (n : ℤ) (h : NoDigit rest) :
    readValue (fuel + 1) (integerText n ++ rest) = some (.number n, rest) := by
  cases n with
  | ofNat n => exact readValue_digits n h
  | negSucc n =>
    rw [integerText, List.cons_append, readValue, readNatural_append (n + 1) h]
    rfl

/-- The text begins with another character. -/
def OpensWithout (c : Char) (text : List Char) : Prop :=
  ∃ first rest, text = first :: rest ∧ first ≠ c

theorem OpensWithout.head_ne {c : Char} {text : List Char} (h : OpensWithout c text)
    (rest : List Char) : (text ++ rest).head? ≠ some c := by
  obtain ⟨first, text, rfl, hne⟩ := h
  simpa using hne

theorem OpensWithout.append {c : Char} {text : List Char} (h : OpensWithout c text)
    (rest : List Char) : OpensWithout c (text ++ rest) := by
  obtain ⟨first, text, rfl, hne⟩ := h
  exact ⟨first, text ++ rest, rfl, hne⟩

theorem opensWithout_integerText (n : ℤ) : OpensWithout ']' (integerText n) := by
  cases n with
  | ofNat n =>
    obtain ⟨c, digits, hcons⟩ := List.exists_cons_of_ne_nil (@Nat.toDigits_ne_nil n 10)
    have hc : c.isDigit = Bool.true :=
      Nat.isDigit_of_mem_toDigits (by decide) (by decide) (hcons ▸ List.mem_cons_self)
    refine ⟨c, digits, hcons, ?_⟩
    rintro rfl
    cases hc
  | negSucc n => exact ⟨'-', _, rfl, by decide⟩

theorem quoted_append (s : String) (rest : List Char) :
    quoted s ++ rest = '"' :: (s.toList ++ '"' :: rest) := by
  simp [quoted]

theorem readItems_next {item : Json} {text rest : List Char} {fuel : ℕ}
    (hitem : readValue fuel text = some (item, ',' :: rest)) :
    readItems (fuel + 1) text =
      (readItems fuel rest).map fun (items, rest) => (item :: items, rest) := by
  rw [readItems, hitem]
  simp only [Option.bind_eq_bind, Option.bind_some]
  cases readItems fuel rest <;> rfl

theorem readItems_last {item : Json} {text rest : List Char} {fuel : ℕ}
    (hitem : readValue fuel text = some (item, ']' :: rest)) :
    readItems (fuel + 1) text = some ([item], rest) := by
  rw [readItems, hitem]
  rfl

section Fields

variable {key : String} {value : Json} {text rest : List Char} {fuel : ℕ}
  (hplain : ∀ c ∈ key.toList, IsPlain c)

include hplain

theorem readFields_next (hvalue : readValue fuel text = some (value, ',' :: rest)) :
    readFields (fuel + 1) (quoted key ++ ':' :: text) =
      (readFields fuel rest).map fun (fields, rest) => ((key, value) :: fields, rest) := by
  rw [quoted_append, readFields, readChars_append hplain]
  simp only [ne_eq, not_true_eq_false, if_false, List.head?_cons, List.tail_cons, hvalue,
    Option.bind_eq_bind, Option.bind_some, String.ofList_toList]
  cases readFields fuel rest <;> rfl

theorem readFields_last (hvalue : readValue fuel text = some (value, '\x7d' :: rest)) :
    readFields (fuel + 1) (quoted key ++ ':' :: text) = some ([(key, value)], rest) := by
  rw [quoted_append, readFields, readChars_append hplain]
  simp [hvalue]

end Fields

/-! ## The induction over the grammar -/

/-- What the reader makes of a piece of a text, with a bound on its rounds. -/
def Reads (text : List Char) : Part → Prop
  | .value json => OpensWithout ']' text ∧ ∀ fuel rest, text.length < fuel → NoDigit rest →
      readValue fuel (text ++ rest) = some (json, rest)
  | .items [] => text = []
  | .items items => OpensWithout ']' text ∧ ∀ fuel rest, text.length + 1 < fuel →
      readItems fuel (text ++ ']' :: rest) = some (items, rest)
  | .fields [] => text = []
  | .fields fields => OpensWithout '\x7d' text ∧ ∀ fuel rest, text.length + 1 < fuel →
      readFields fuel (text ++ '\x7d' :: rest) = some (fields, rest)

theorem noDigit_cons {c : Char} (hc : c.isDigit = Bool.false) (text : List Char) :
    NoDigit (c :: text) := by
  simpa [NoDigit] using hc

theorem reads_of_derives {part : Part} {text : List Char} (h : Derives part text) :
    Reads text part := by
  induction h with
  | null =>
    refine ⟨⟨_, _, rfl, by decide⟩, fun fuel rest hfuel _ => ?_⟩
    obtain ⟨fuel, rfl⟩ := Nat.exists_eq_succ_of_ne_zero (Nat.ne_zero_of_lt hfuel)
    simp [readValue]
  | true =>
    refine ⟨⟨_, _, rfl, by decide⟩, fun fuel rest hfuel _ => ?_⟩
    obtain ⟨fuel, rfl⟩ := Nat.exists_eq_succ_of_ne_zero (Nat.ne_zero_of_lt hfuel)
    simp [readValue]
  | false =>
    refine ⟨⟨_, _, rfl, by decide⟩, fun fuel rest hfuel _ => ?_⟩
    obtain ⟨fuel, rfl⟩ := Nat.exists_eq_succ_of_ne_zero (Nat.ne_zero_of_lt hfuel)
    simp [readValue]
  | number n =>
    refine ⟨opensWithout_integerText n, fun fuel rest hfuel hrest => ?_⟩
    obtain ⟨fuel, rfl⟩ := Nat.exists_eq_succ_of_ne_zero (Nat.ne_zero_of_lt hfuel)
    exact readValue_integerText n hrest
  | string hplain =>
    refine ⟨⟨_, _, rfl, by decide⟩, fun fuel rest hfuel _ => ?_⟩
    obtain ⟨fuel, rfl⟩ := Nat.exists_eq_succ_of_ne_zero (Nat.ne_zero_of_lt hfuel)
    rw [quoted_append, readValue, if_pos rfl, readChars_append hplain]
    simp
  | @array items text _ ih =>
    refine ⟨⟨_, _, rfl, by decide⟩, fun fuel rest hfuel _ => ?_⟩
    obtain ⟨fuel, rfl⟩ := Nat.exists_eq_succ_of_ne_zero (Nat.ne_zero_of_lt hfuel)
    have hlength : text.length + 1 < fuel := by
      simpa using hfuel
    rw [List.append_assoc, List.singleton_append, List.cons_append, readValue,
      if_neg (by decide), if_pos rfl]
    cases items with
    | nil =>
      obtain rfl : text = [] := ih
      rfl
    | cons item items =>
      rw [if_neg (ih.1.head_ne _), ih.2 fuel rest hlength]
      rfl
  | @object fields text _ ih =>
    refine ⟨⟨_, _, rfl, by decide⟩, fun fuel rest hfuel _ => ?_⟩
    obtain ⟨fuel, rfl⟩ := Nat.exists_eq_succ_of_ne_zero (Nat.ne_zero_of_lt hfuel)
    have hlength : text.length + 1 < fuel := by
      simpa using hfuel
    rw [List.append_assoc, List.singleton_append, List.cons_append, readValue,
      if_neg (by decide), if_neg (by decide), if_pos rfl]
    cases fields with
    | nil =>
      obtain rfl : text = [] := ih
      rfl
    | cons field fields =>
      rw [if_neg (ih.1.head_ne _), ih.2 fuel rest hlength]
      rfl
  | noItems => rfl
  | lastItem _ ih =>
    refine ⟨ih.1, fun fuel rest hfuel => ?_⟩
    obtain ⟨fuel, rfl⟩ := Nat.exists_eq_succ_of_ne_zero (Nat.ne_zero_of_lt hfuel)
    exact readItems_last (ih.2 fuel _ (by omega) (noDigit_cons rfl _))
  | @nextItem item next items text more _ _ ihitem ihmore =>
    refine ⟨ihitem.1.append _, fun fuel rest hfuel => ?_⟩
    obtain ⟨fuel, rfl⟩ := Nat.exists_eq_succ_of_ne_zero (Nat.ne_zero_of_lt hfuel)
    rw [List.length_append, List.length_cons] at hfuel
    rw [List.append_assoc, List.cons_append,
      readItems_next (ihitem.2 fuel _ (by omega) (noDigit_cons rfl _)),
      ihmore.2 fuel rest (by omega)]
    rfl
  | noFields => rfl
  | @lastField key value text hplain _ ih =>
    refine ⟨⟨_, _, rfl, by decide⟩, fun fuel rest hfuel => ?_⟩
    obtain ⟨fuel, rfl⟩ := Nat.exists_eq_succ_of_ne_zero (Nat.ne_zero_of_lt hfuel)
    rw [List.length_append, List.length_cons] at hfuel
    rw [List.append_assoc, List.cons_append]
    exact readFields_last hplain (ih.2 fuel _ (by omega) (noDigit_cons rfl _))
  | @nextField key value next fields text more hplain _ _ ihvalue ihmore =>
    refine ⟨⟨_, _, rfl, by decide⟩, fun fuel rest hfuel => ?_⟩
    obtain ⟨fuel, rfl⟩ := Nat.exists_eq_succ_of_ne_zero (Nat.ne_zero_of_lt hfuel)
    simp only [List.length_append, List.length_cons] at hfuel
    rw [List.append_assoc, List.cons_append, List.append_assoc, List.cons_append,
      readFields_next hplain (ihvalue.2 fuel _ (by omega) (noDigit_cons rfl _)),
      ihmore.2 fuel rest (by omega)]
    rfl

theorem noDigit_of_spaces {text : List Char} (h : ∀ c ∈ text, isSpace c = Bool.true) :
    NoDigit text := by
  intro c hc
  have hspace := h c (List.mem_of_mem_head? hc)
  simp only [isSpace, decide_eq_true_eq] at hspace
  rcases hspace with rfl | rfl | rfl | rfl <;> rfl

/-- The reader reads every document, so a text is a document of one value at most. -/
theorem read_of_isDocument {json : Json} {text : List Char} (h : IsDocument json text) :
    read text = some json := by
  obtain ⟨body, space, rfl, hspace, hderives⟩ := h
  have hlength : body.length < (body ++ space).length + 1 := by
    rw [List.length_append]
    omega
  have hvalue := (reads_of_derives hderives).2 ((body ++ space).length + 1) space hlength
    (noDigit_of_spaces hspace)
  unfold read
  rw [hvalue]
  exact if_pos (List.all_eq_true.2 hspace)

/-! ## Written lists -/

/-- Texts with a separator between them. -/
def joined : List (List Char) → List Char
  | [] => []
  | [text] => text
  | text :: next :: texts => text ++ ',' :: joined (next :: texts)

/-- The texts of items derive the items. -/
theorem derives_items : ∀ {items : List Json} {texts : List (List Char)},
    List.Forall₂ (fun item text => Derives (.value item) text) items texts →
      Derives (.items items) (joined texts)
  | _, _, .nil => .noItems
  | _, _, .cons h .nil => .lastItem h
  | _, _, .cons h (.cons h' hs) => .nextItem h (derives_items (.cons h' hs))

/-- A field whose value is derived from the text behind its key. -/
def DerivesField (field : String × Json) (text : List Char) : Prop :=
  (∀ c ∈ field.1.toList, IsPlain c) ∧
    ∃ value, Derives (.value field.2) value ∧ text = quoted field.1 ++ ':' :: value

theorem derives_fields : ∀ {fields : List (String × Json)} {texts : List (List Char)},
    List.Forall₂ DerivesField fields texts → Derives (.fields fields) (joined texts)
  | _, _, .nil => .noFields
  | _, _, .cons ⟨hplain, _, hvalue, htext⟩ .nil => htext ▸ .lastField hplain hvalue
  | _, _, .cons ⟨hplain, _, hvalue, htext⟩ (.cons h' hs) => by
    have hnext := Derives.nextField hplain hvalue (derives_fields (.cons h' hs))
    rw [htext, joined, List.append_assoc, List.cons_append]
    exact hnext

/-- The first text, and each other one behind a separator. -/
theorem joined_cons (text : List Char) : ∀ texts : List (List Char),
    joined (text :: texts) = text ++ texts.flatMap (',' :: ·)
  | [] => by simp [joined]
  | next :: texts => by
    rw [joined, joined_cons next texts, List.flatMap_cons, List.cons_append]

end Json

end Npunlock
