import Npunlock.NumberText
import Npunlock.UrlText

/-!
# Location expressions

`formatLocationExpression` writes a location of an artifact as text, with an escaped artifact id,
a range in hexadecimal and a query for the node, the field and the span.
`parseLocationExpression` reads such text, and less strict forms of it, too.

What is written is read as the location again, up to `readBack` : a lone surrogate of a node id
or of a field name becomes U+FFFD, and an empty field name is left out
(`location_round_trip`). Lower-casing is a parameter, since no statement depends on it : an
artifact that is named exactly is found before letter case is looked at.
-/

namespace Npunlock

structure ParsedLocation where
  artifactId : JsString
  start : ℕ
  «end» : ℕ
  nodeId : Option JsString
  fieldName : Option JsString
  spanIndex : Option ℕ
  deriving DecidableEq

/-- The names of the query, as scalar values. -/
def nodeKey : List Char := ['n', 'o', 'd', 'e']
def fieldKey : List Char := ['f', 'i', 'e', 'l', 'd']
def spanKey : List Char := ['s', 'p', 'a', 'n']

/-! ## Writing -/

/-- `parameters.set` under a condition on a text that may be missing. -/
def setText (params : URLSearchParams) (name : List Char) (text : Option JsString) :
    URLSearchParams :=
  match text with
  | none => params
  | some text => if text = [] then params else params.set name (scalars text)

def locationParams (location : ParsedLocation) : URLSearchParams :=
  let params := setText (setText [] nodeKey location.nodeId) fieldKey location.fieldName
  match location.spanIndex with
  | none => params
  | some index => params.set spanKey (scalars (radixText 10 index))

def hexText (value : ℕ) : JsString :=
  codeUnits "0x" ++ radixText 16 value

def rangeText (location : ParsedLocation) : JsString :=
  hexText location.start ++
    if location.start + 1 < location.end then codeUnits "-" ++ hexText location.end else []

/-- An artifact id with a lone surrogate raises an error. -/
def formatLocationExpression (location : ParsedLocation) : Option JsString := do
  let query := (locationParams location).format
  let artifact ← encodeURIComponent location.artifactId
  pure (artifact ++ codeUnits ":" ++ rangeText location ++
    if query = [] then [] else codeUnits "?" ++ query)

/-! ## Reading -/

/-- `0x[0-9a-f]+|[0-9a-f]+` on a whole text, in any case. Returns the digits. -/
def hexDigits? (text : JsString) : Option JsString :=
  let digits :=
    match text with
    | zero :: letter :: rest =>
      if zero = 0x30 ∧ (letter = 0x78 ∨ letter = 0x58) then rest else text
    | _ => text
  if digits ≠ [] ∧ digits.all isHexDigit = true then some digits else none

/-- What the regular expression captures : the artifact, the start and the end. A colon stands
only behind the artifact, and a minus sign that follows it only between start and end. -/
def matchBase (base : JsString) : Option (Option JsString × JsString × Option JsString) := do
  let artifact := base.takeWhile fun unit => unit ≠ 0x3a
  let hasArtifact : Bool := 0x3a ∈ base
  if hasArtifact ∧ (artifact = [] ∨ artifact.any isWhiteSpace = true) then none
  else
    let range := if hasArtifact then (base.dropWhile fun unit => unit ≠ 0x3a).drop 1 else base
    let start ← hexDigits? (range.takeWhile fun unit => unit ≠ 0x2d)
    if 0x2d ∈ range then do
      let «end» ← hexDigits? ((range.dropWhile fun unit => unit ≠ 0x2d).drop 1)
      pure (if hasArtifact then some artifact else none, start, some «end»)
    else pure (if hasArtifact then some artifact else none, start, none)

/-- The artifact of that name, or the first whose name differs in case only. -/
def findArtifact (toLowerCase : JsString → JsString) (sizes : List (JsString × ℕ))
    (requested : JsString) : Option (JsString × ℕ) :=
  match sizes.lookup requested with
  | some size => some (requested, size)
  | none => do
    let found ← sizes.find? fun artifact => toLowerCase artifact.1 = toLowerCase requested
    let size ← sizes.lookup found.1
    pure (found.1, size)

/-- `parameters.get(name) || undefined`. -/
def getText (params : URLSearchParams) (name : List Char) : Option JsString :=
  (params.get name).bind fun chars => if chars = [] then none else some (utf16 chars)

/-- The index of a span. -/
def parseSpan (spanText : List Char) : Option ℕ := do
  let number ← toNumber (utf16 spanText)
  let index ← safeInteger? number
  if index < 0 then none else some index.toNat

/-- The location that the query gives, if there is one. -/
def parseParams (params : URLSearchParams) (artifactId : JsString) (start «end» : ℕ) :
    Option ParsedLocation := do
  let keys := [nodeKey, fieldKey, spanKey]
  if params.any fun param => param.1 ∉ keys then none
  else if keys.any fun key => 1 < (params.getAll key).length then none
  else
    let nodeId := getText params nodeKey
    let fieldName := getText params fieldKey
    if fieldName.isSome ∧ nodeId.isNone then none
    else
      match params.get spanKey with
      | none => pure { artifactId, start, «end», nodeId, fieldName, spanIndex := none }
      | some spanText =>
        let index ← parseSpan spanText
        if nodeId.isNone then none
        else pure { artifactId, start, «end», nodeId, fieldName, spanIndex := some index }

def parseLocationExpression (toLowerCase : JsString → JsString) (query currentArtifactId : JsString)
    (artifactSizes : List (JsString × ℕ)) : Option ParsedLocation := do
  let trimmed := trim query
  let base := trimmed.takeWhile fun unit => unit ≠ 0x3f
  let parameterText := (trimmed.dropWhile fun unit => unit ≠ 0x3f).drop 1
  if 0x3f ∈ parameterText then none
  else
    let (artifact, startText, endText) ← matchBase base
    let requested ← match artifact with
      | some artifact => decodeURIComponent artifact
      | none => some currentArtifactId
    let (artifactId, size) ← findArtifact toLowerCase artifactSizes requested
    let start := parseHex startText
    let «end» := match endText with
      | some endText => parseHex endText
      | none => start + 1
    if 2 ^ 53 ≤ start ∨ 2 ^ 53 ≤ «end» then none
    else if size ≤ start ∨ «end» ≤ start ∨ size < «end» then none
    else parseParams (URLSearchParams.parse parameterText) artifactId start «end»

/-! ## Cutting texts -/

section Cut

variable {α : Type} [DecidableEq α] {separator : α} {before after : List α}

theorem ne_separator (h : separator ∉ before) :
    ∀ entry ∈ before, decide (entry ≠ separator) = true :=
  fun _ hentry => decide_eq_true fun heq => h (heq ▸ hentry)

theorem takeWhile_cut (h : separator ∉ before) :
    ((before ++ separator :: after).takeWhile fun entry => entry ≠ separator) = before := by
  rw [List.takeWhile_append_of_pos (ne_separator h)]
  simp

theorem dropWhile_cut (h : separator ∉ before) :
    ((before ++ separator :: after).dropWhile fun entry => entry ≠ separator) =
      separator :: after := by
  rw [List.dropWhile_append_of_pos (ne_separator h)]
  simp

theorem takeWhile_uncut (h : separator ∉ before) :
    (before.takeWhile fun entry => entry ≠ separator) = before :=
  List.takeWhile_eq_self_iff.2 (ne_separator h)

theorem dropWhile_uncut (h : separator ∉ before) :
    (before.dropWhile fun entry => entry ≠ separator) = [] :=
  List.dropWhile_eq_nil_iff.2 (ne_separator h)

end Cut

/-! ## The range -/

theorem isAlphanumeric_radixText {base n : ℕ} (hbase : 1 < base ∧ base ≤ 16) {unit : CodeUnit}
    (h : unit ∈ radixText base n) : isAlphanumeric unit.toNat = true := by
  obtain ⟨digits, hdigits, -, hlt, -⟩ := exists_digits hbase.1 n
  rw [hdigits] at h
  obtain ⟨digit, hdigit, rfl⟩ := List.mem_map.1 h
  exact isAlphanumeric_digitUnit (Or.inr rfl) ((hlt digit hdigit).trans_le hbase.2)

theorem hexText_eq (value : ℕ) : hexText value = 0x30 :: 0x78 :: radixText 16 value := rfl

theorem mem_hexText {value : ℕ} {unit : CodeUnit} (h : unit ∈ hexText value) :
    isAlphanumeric unit.toNat = true := by
  rw [hexText_eq] at h
  rcases List.mem_cons.1 h with rfl | h
  · decide
  · rcases List.mem_cons.1 h with rfl | h
    · decide
    · exact isAlphanumeric_radixText (by decide) h

theorem hexDigits?_hexText (value : ℕ) :
    hexDigits? (hexText value) = some (radixText 16 value) := by
  have hall : (radixText 16 value).all isHexDigit = true :=
    List.all_eq_true.2 fun unit hunit => isHexDigit_radixText hunit
  have hne := radixText_ne_nil (by decide : 1 < 16) value
  simp [hexText_eq, hexDigits?, hne, hall]

theorem mem_rangeText {location : ParsedLocation} {unit : CodeUnit}
    (h : unit ∈ rangeText location) : isAlphanumeric unit.toNat = true ∨ unit = 0x2d := by
  rcases List.mem_append.1 h with h | h
  · exact Or.inl (mem_hexText h)
  · split_ifs at h
    · rcases List.mem_append.1 h with h | h
      · exact Or.inr (List.mem_singleton.1 h)
      · exact Or.inl (mem_hexText h)
    · simp at h

/-- The expression captures what was written. -/
theorem matchBase_format {location : ParsedLocation} {artifact : JsString} (hne : artifact ≠ [])
    (hartifact : ∀ unit ∈ artifact, 0x21 ≤ unit.toNat ∧ unit.toNat < 0x7f ∧ unit ≠ 0x3a) :
    matchBase (artifact ++ codeUnits ":" ++ rangeText location) =
      some (some artifact, radixText 16 location.start,
        if location.start + 1 < location.end then some (radixText 16 location.end)
        else none) := by
  have hcolon : (0x3a : CodeUnit) ∉ artifact := fun hmem => (hartifact _ hmem).2.2 rfl
  have hspace : artifact.any isWhiteSpace = false := List.any_eq_false.2 fun unit hunit => by
    rw [isWhiteSpace_of_printable (hartifact unit hunit).1 (hartifact unit hunit).2.1]
    decide
  have hminus : ∀ value, (0x2d : CodeUnit) ∉ hexText value := fun value hmem =>
    absurd (mem_hexText hmem) (by decide)
  have hbase : artifact ++ codeUnits ":" ++ rangeText location =
      artifact ++ 0x3a :: rangeText location := by
    rw [List.append_assoc]
    rfl
  have hhas : (0x3a : CodeUnit) ∈ artifact ++ 0x3a :: rangeText location := by simp
  rw [hbase, matchBase]
  simp only [decide_eq_true hhas, takeWhile_cut hcolon, dropWhile_cut hcolon, hne, hspace,
    Bool.false_eq_true, or_self, and_false, if_false, if_true, List.drop_succ_cons, List.drop_zero]
  by_cases hend : location.start + 1 < location.end
  · rw [rangeText, if_pos hend, if_pos hend]
    have hrange : hexText location.start ++ (codeUnits "-" ++ hexText location.end) =
        hexText location.start ++ 0x2d :: hexText location.end := rfl
    have hmem : (0x2d : CodeUnit) ∈ hexText location.start ++ 0x2d :: hexText location.end := by
      simp
    rw [hrange, takeWhile_cut (hminus _), hexDigits?_hexText, dropWhile_cut (hminus _)]
    simp only [Option.bind_eq_bind, Option.bind_some, if_pos hmem, List.drop_succ_cons,
      List.drop_zero, hexDigits?_hexText]
    rfl
  · rw [rangeText, if_neg hend, if_neg hend, List.append_nil, takeWhile_uncut (hminus _),
      hexDigits?_hexText]
    simp only [Option.bind_eq_bind, Option.bind_some, if_neg (hminus _)]
    rfl

/-! ## The query -/

theorem set_of_forall_ne {params : URLSearchParams} {name : List Char}
    (h : ∀ param ∈ params, param.1 ≠ name) (value : List Char) :
    params.set name value = params ++ [(name, value)] := by
  have hdrop : (params.dropWhile fun param => param.1 ≠ name) = [] :=
    List.dropWhile_eq_nil_iff.2 fun param hparam => decide_eq_true (h param hparam)
  rw [URLSearchParams.set, hdrop]

theorem scalars_ne_nil {text : JsString} (h : text ≠ []) : scalars text ≠ [] := by
  cases text with
  | nil => exact absurd rfl h
  | cons unit rest =>
    rw [scalars.eq_def]
    dsimp only
    split_ifs
    · cases rest with
      | nil => simp
      | cons next rest' =>
        dsimp only
        split_ifs <;> simp
    · simp
    · simp

theorem isWellFormed_of_ascii : ∀ {text : JsString}, (∀ unit ∈ text, unit.toNat < 0x80) →
    isWellFormed text = true
  | [], _ => rfl
  | unit :: rest, h => by
    obtain ⟨hunit, hrest⟩ := List.forall_mem_cons.1 h
    rw [isWellFormed.eq_def]
    dsimp only
    rw [if_neg (by simp [isHighSurrogate]; omega), isWellFormed_of_ascii hrest]
    simp [isLowSurrogate]
    omega

theorem utf16_scalars_radixText {base : ℕ} (hbase : 1 < base ∧ base ≤ 16) (n : ℕ) :
    utf16 (scalars (radixText base n)) = radixText base n := by
  refine utf16_scalars (isWellFormed_of_ascii fun unit hunit => ?_)
  have halpha := isAlphanumeric_radixText hbase hunit
  simp only [isAlphanumeric, Bool.or_eq_true, Bool.and_eq_true, decide_eq_true_eq] at halpha
  omega

/-- A parameter that may be missing. -/
def optionalParam (name : List Char) (value : Option (List Char)) : URLSearchParams :=
  (value.map fun value => (name, value)).toList

/-- The value that is written for a text. -/
def written (text : Option JsString) : Option (List Char) :=
  (text.filter fun text => text ≠ []).map scalars

theorem mem_optionalParam {name : List Char} {value : Option (List Char)}
    {param : List Char × List Char} (h : param ∈ optionalParam name value) : param.1 = name := by
  cases value with
  | none => simp [optionalParam] at h
  | some value =>
    obtain rfl : param = (name, value) := by simpa [optionalParam] using h
    rfl

theorem setText_eq {params : URLSearchParams} {name : List Char}
    (h : ∀ param ∈ params, param.1 ≠ name) (text : Option JsString) :
    setText params name text = params ++ optionalParam name (written text) := by
  cases text with
  | none => simp [setText, optionalParam, written]
  | some text =>
    by_cases hempty : text = []
    · simp [setText, optionalParam, written, hempty]
    · rw [setText, if_neg hempty, set_of_forall_ne h]
      simp [optionalParam, written, Option.filter_some, hempty]

theorem keys_ne : nodeKey ≠ fieldKey ∧ nodeKey ≠ spanKey ∧ fieldKey ≠ spanKey := by
  decide

/-- The three parameters of a location. -/
def paramsOf (node field span : Option (List Char)) : URLSearchParams :=
  optionalParam nodeKey node ++ optionalParam fieldKey field ++ optionalParam spanKey span

theorem locationParams_eq (location : ParsedLocation) : locationParams location =
    paramsOf (written location.nodeId) (written location.fieldName)
      (location.spanIndex.map fun index => scalars (radixText 10 index)) := by
  obtain ⟨hfield, hspan, hspan'⟩ := keys_ne
  have hnode : ∀ param ∈ optionalParam nodeKey (written location.nodeId), param.1 ≠ fieldKey :=
    fun param h => by rwa [mem_optionalParam h]
  have hboth : ∀ param ∈ optionalParam nodeKey (written location.nodeId) ++
      optionalParam fieldKey (written location.fieldName), param.1 ≠ spanKey := fun param h => by
    rcases List.mem_append.1 h with h | h
    · rwa [mem_optionalParam h]
    · rwa [mem_optionalParam h]
  have hfirst : setText [] nodeKey location.nodeId =
      optionalParam nodeKey (written location.nodeId) :=
    setText_eq (fun _ h => absurd h List.not_mem_nil) _
  rw [locationParams, hfirst, setText_eq hnode]
  cases location.spanIndex with
  | none => simp [paramsOf, optionalParam]
  | some index => exact set_of_forall_ne hboth _

/-- Each of the three parameters is found under its name, and there are no others. -/
theorem paramsOf_spec (node field span : Option (List Char)) :
    (paramsOf node field span).get nodeKey = node ∧
      (paramsOf node field span).get fieldKey = field ∧
      (paramsOf node field span).get spanKey = span ∧
      (∀ param ∈ paramsOf node field span, param.1 ∈ [nodeKey, fieldKey, spanKey]) ∧
      ∀ key ∈ [nodeKey, fieldKey, spanKey], ((paramsOf node field span).getAll key).length ≤ 1 := by
  obtain ⟨hfield, hspan, hspan'⟩ := keys_ne
  cases node <;> cases field <;> cases span <;>
    simp [paramsOf, optionalParam, URLSearchParams.get, URLSearchParams.getAll, hfield, hspan,
      hspan', hfield.symm, hspan.symm, hspan'.symm]

/-- The text with U+FFFD for every lone surrogate. -/
def repair (text : JsString) : JsString :=
  utf16 (scalars text)

/-- The location that is read after the location was written. -/
def readBack (location : ParsedLocation) : ParsedLocation :=
  { location with
    nodeId := location.nodeId.map repair
    fieldName := (location.fieldName.filter fun name => name ≠ []).map repair }

/-- What a location of an artifact has to meet. -/
structure IsLocationOf (sizes : List (JsString × ℕ)) (location : ParsedLocation) : Prop where
  exists_size : ∃ size, sizes.lookup location.artifactId = some size ∧ location.end ≤ size
  artifactId_ne : location.artifactId ≠ []
  wellFormed : isWellFormed location.artifactId = true
  start_lt : location.start < location.end
  end_lt : location.end < 2 ^ 53
  nodeId_ne : ∀ id, location.nodeId = some id → id ≠ []
  field_of_node : location.nodeId = none → location.fieldName = none
  span_of_node : location.nodeId = none → location.spanIndex = none
  span_lt : ∀ index, location.spanIndex = some index → index < 2 ^ 53

variable {sizes : List (JsString × ℕ)} {location : ParsedLocation}

theorem getText_written {params : URLSearchParams} {name : List Char} {text : Option JsString}
    (h : params.get name = written text) :
    getText params name = (text.filter fun text => text ≠ []).map repair := by
  rw [getText, h]
  cases text with
  | none => rfl
  | some text =>
    by_cases hempty : text = []
    · simp [written, Option.filter_some, hempty]
    · simp [written, Option.filter_some, hempty, scalars_ne_nil hempty, repair]

/-- The span is read as it was written. -/
theorem parseSpan_written {index : ℕ} (h : index < 2 ^ 53) :
    parseSpan (scalars (radixText 10 index)) = some index := by
  have hnonneg : ¬(index : ℤ) < 0 := by omega
  rw [parseSpan, utf16_scalars_radixText (by decide), toNumber_radixText h, Option.bind_eq_bind,
    Option.bind_some, safeInteger?_natCast h, Option.bind_eq_bind, Option.bind_some,
    if_neg hnonneg, Int.toNat_natCast]

theorem parseParams_locationParams (h : IsLocationOf sizes location) :
    parseParams (locationParams location) location.artifactId location.start location.end =
      some (readBack location) := by
  have hspec := paramsOf_spec (written location.nodeId) (written location.fieldName)
    (location.spanIndex.map fun index => scalars (radixText 10 index))
  rw [← locationParams_eq] at hspec
  obtain ⟨hnode, hfield, hspan, hknown, honce⟩ := hspec
  have hknown' : ((locationParams location).any fun param =>
      param.1 ∉ [nodeKey, fieldKey, spanKey]) = false :=
    List.any_eq_false.2 fun param hparam => by simp [hknown param hparam]
  have honce' : ([nodeKey, fieldKey, spanKey].any fun key =>
      1 < ((locationParams location).getAll key).length) = false :=
    List.any_eq_false.2 fun key hkey => by simpa using honce key hkey
  have hnodeText : getText (locationParams location) nodeKey = location.nodeId.map repair := by
    rw [getText_written hnode]
    cases hid : location.nodeId with
    | none => rfl
    | some id => simp [Option.filter_some, h.nodeId_ne id hid]
  rw [parseParams]
  simp only [hknown', honce', hnodeText, getText_written hfield, hspan, Bool.false_eq_true,
    if_false]
  cases hid : location.nodeId with
  | none =>
    rw [h.field_of_node hid, h.span_of_node hid]
    simp [readBack, hid, h.field_of_node hid, h.span_of_node hid]
  | some id =>
    rw [if_neg (by simp)]
    cases hindex : location.spanIndex with
    | none => simp [readBack, hid, hindex]
    | some index =>
      have hlt := h.span_lt index hindex
      simp [readBack, hid, hindex, parseSpan_written hlt]

/-! ## The round trip -/

theorem repair_eq_iff {text : JsString} : repair text = text ↔ isWellFormed text = true :=
  ⟨fun h => h ▸ isWellFormed_utf16 _, utf16_scalars⟩

/-- Exactly the locations with well-formed names, and no empty field name, are read back as they
are. -/
theorem readBack_eq_iff : readBack location = location ↔
    (∀ id, location.nodeId = some id → isWellFormed id = true) ∧
      ∀ name, location.fieldName = some name → name ≠ [] ∧ isWellFormed name = true := by
  obtain ⟨artifactId, start, «end», nodeId, fieldName, spanIndex⟩ := location
  have hnode : nodeId.map repair = nodeId ↔ ∀ id, nodeId = some id → isWellFormed id = true := by
    cases nodeId with
    | none => simp
    | some id => simp [repair_eq_iff]
  have hfield : (fieldName.filter fun name => name ≠ []).map repair = fieldName ↔
      ∀ name, fieldName = some name → name ≠ [] ∧ isWellFormed name = true := by
    cases fieldName with
    | none => simp
    | some name =>
      by_cases hempty : name = []
      · simp [Option.filter_some, hempty]
      · simp [Option.filter_some, hempty, repair_eq_iff]
  rw [← hnode, ← hfield]
  simp [readBack]

/-- The text before the query. -/
theorem mem_base {artifact : JsString} (h : encodeURIComponent location.artifactId = some artifact)
    {unit : CodeUnit} (hmem : unit ∈ artifact ++ codeUnits ":" ++ rangeText location) :
    0x21 ≤ unit.toNat ∧ unit.toNat < 0x7f ∧ unit.toNat ≠ 0x3f := by
  rw [List.append_assoc] at hmem
  rcases List.mem_append.1 hmem with hmem | hmem
  · have := mem_encodeURIComponent h hmem
    omega
  · rcases List.mem_append.1 hmem with hmem | hmem
    · rw [List.mem_singleton.1 (show unit ∈ [0x3a] from hmem)]
      decide
    · rcases mem_rangeText hmem with halpha | rfl
      · simp only [isAlphanumeric, Bool.or_eq_true, Bool.and_eq_true, decide_eq_true_eq] at halpha
        omega
      · decide

/-- The parts of a text with a query, which may be missing. -/
theorem cut_query {base query : JsString} (h : (0x3f : CodeUnit) ∉ base) :
    ((base ++ if query = [] then [] else codeUnits "?" ++ query).takeWhile
        fun unit => unit ≠ 0x3f) = base ∧
      ((base ++ if query = [] then [] else codeUnits "?" ++ query).dropWhile
        fun unit => unit ≠ 0x3f).drop 1 = query := by
  by_cases hquery : query = []
  · rw [if_pos hquery, List.append_nil, takeWhile_uncut h, dropWhile_uncut h, hquery]
    exact ⟨rfl, rfl⟩
  · have hcut : base ++ (codeUnits "?" ++ query) = base ++ 0x3f :: query := rfl
    rw [if_neg hquery, hcut, takeWhile_cut h, dropWhile_cut h]
    exact ⟨rfl, rfl⟩

theorem findArtifact_lookup (toLowerCase : JsString → JsString) {requested : JsString} {size : ℕ}
    (h : sizes.lookup requested = some size) :
    findArtifact toLowerCase sizes requested = some (requested, size) := by
  rw [findArtifact, h]

/-- The end that is read. -/
theorem readEnd_eq (h : location.start < location.end) :
    (match if location.start + 1 < location.end then some (radixText 16 location.end) else none with
      | some endText => parseHex endText
      | none => location.start + 1) = location.end := by
  split_ifs with hend
  · exact parseHex_radixText _
  · exact (by omega : location.start + 1 = location.end)

/-- What is written for a location of an artifact is read, whatever the current artifact is. -/
theorem exists_parsed (toLowerCase : JsString → JsString) (currentArtifactId : JsString)
    (h : IsLocationOf sizes location) : ∃ text, formatLocationExpression location = some text ∧
      parseLocationExpression toLowerCase text currentArtifactId sizes =
        some (readBack location) := by
  obtain ⟨artifact, hartifact⟩ : ∃ artifact, encodeURIComponent location.artifactId =
      some artifact := ⟨_, if_pos h.wellFormed⟩
  have hbase := fun unit (hmem : unit ∈ artifact ++ codeUnits ":" ++ rangeText location) =>
    mem_base hartifact hmem
  have hcolon : ∀ unit ∈ artifact, 0x21 ≤ unit.toNat ∧ unit.toNat < 0x7f ∧ unit ≠ 0x3a := by
    intro unit hunit
    have hbounds := mem_encodeURIComponent hartifact hunit
    exact ⟨hbounds.1, hbounds.2.1, fun heq => hbounds.2.2.1 (by rw [heq]; rfl)⟩
  have hmark : (0x3f : CodeUnit) ∉ artifact ++ codeUnits ":" ++ rangeText location := fun hmem =>
    (hbase _ hmem).2.2 rfl
  have hquery : (0x3f : CodeUnit) ∉ (locationParams location).format := fun hmem =>
    (URLSearchParams.mem_format hmem).2.2 rfl
  have hprintable : ∀ unit ∈ artifact ++ codeUnits ":" ++ rangeText location ++
      (if (locationParams location).format = [] then []
        else codeUnits "?" ++ (locationParams location).format),
      0x21 ≤ unit.toNat ∧ unit.toNat < 0x7f := by
    intro unit hunit
    rcases List.mem_append.1 hunit with hunit | hunit
    · exact ⟨(hbase unit hunit).1, (hbase unit hunit).2.1⟩
    · split_ifs at hunit
      · simp at hunit
      · rcases List.mem_append.1 hunit with hunit | hunit
        · rw [List.mem_singleton.1 (show unit ∈ [0x3f] from hunit)]
          decide
        · have := URLSearchParams.mem_format hunit
          omega
  obtain ⟨hbaseText, hqueryText⟩ : _ ∧ _ = (locationParams location).format := cut_query hmark
  obtain ⟨size, hsize, hend⟩ := h.exists_size
  have hstart := h.start_lt
  have hlimit := h.end_lt
  refine ⟨_, by rw [formatLocationExpression, hartifact]; rfl, ?_⟩
  rw [parseLocationExpression, trim_of_printable hprintable]
  simp only [hbaseText, hqueryText]
  rw [if_neg hquery, matchBase_format (encodeURIComponent_ne_nil hartifact h.artifactId_ne) hcolon]
  simp only [Option.bind_eq_bind, Option.bind_some, decodeURIComponent_encode hartifact,
    findArtifact_lookup toLowerCase hsize, parseHex_radixText, readEnd_eq hstart,
    URLSearchParams.parse_format]
  rw [if_neg (by omega), if_neg (by omega), parseParams_locationParams h]

/-- What is written for a location of an artifact is read as this location, with U+FFFD for the
lone surrogates of its names and without an empty field name, whatever the current artifact is.
So the location is read back if its names are well formed and its field name is not empty, and
only then. -/
theorem location_round_trip (toLowerCase : JsString → JsString) (currentArtifactId : JsString)
    (h : IsLocationOf sizes location) : ∃ text, formatLocationExpression location = some text ∧
      parseLocationExpression toLowerCase text currentArtifactId sizes =
        some (readBack location) ∧
      (readBack location = location ↔
        (∀ id, location.nodeId = some id → isWellFormed id = true) ∧
          ∀ name, location.fieldName = some name → name ≠ [] ∧ isWellFormed name = true) := by
  obtain ⟨text, hformat, hparse⟩ := exists_parsed toLowerCase currentArtifactId h
  exact ⟨text, hformat, hparse, readBack_eq_iff⟩

/-- The first byte of the artifact `a`, at a node. -/
def firstByteAt (nodeId : JsString) : ParsedLocation where
  artifactId := codeUnits "a"
  start := 0
  «end» := 1
  nodeId := some nodeId
  fieldName := none
  spanIndex := none

theorem isLocationOf_firstByteAt {nodeId : JsString} (h : nodeId ≠ []) :
    IsLocationOf [(codeUnits "a", 1)] (firstByteAt nodeId) where
  exists_size := ⟨1, rfl, le_rfl⟩
  artifactId_ne := show codeUnits "a" ≠ [] by decide
  wellFormed := show isWellFormed (codeUnits "a") = true by decide
  start_lt := Nat.one_pos
  end_lt := show 1 < 2 ^ 53 by decide
  nodeId_ne id hid := by
    obtain rfl := Option.some.inj hid
    exact h
  field_of_node hnone := by cases hnone
  span_of_node hnone := by cases hnone
  span_lt index hindex := by cases hindex

/-- A range of an artifact, with a field and a span of a node and separators in every name. -/
def reservedLocation : ParsedLocation where
  artifactId := codeUnits "a b/50%:c"
  start := 5
  «end» := 17
  nodeId := some (codeUnits "blob/x=1&y+z")
  fieldName := some (codeUnits "100% é?#")
  spanIndex := some 3

theorem isLocationOf_reservedLocation :
    IsLocationOf [(codeUnits "x", 8), (codeUnits "a b/50%:c", 32)] reservedLocation where
  exists_size := ⟨32, by decide +kernel, show 17 ≤ 32 by decide⟩
  artifactId_ne := by decide +kernel
  wellFormed := by decide +kernel
  start_lt := show 5 < 17 by decide
  end_lt := show 17 < 2 ^ 53 by decide
  nodeId_ne id hid := by
    obtain rfl := Option.some.inj hid
    decide +kernel
  field_of_node hnone := by cases hnone
  span_of_node hnone := by cases hnone
  span_lt index hindex := by
    obtain rfl := Option.some.inj hindex
    exact show 3 < 2 ^ 53 by decide

theorem location_round_trip_reserved :
    formatLocationExpression reservedLocation = some (codeUnits ("a%20b%2F50%25%3Ac:0x5-0x11" ++
        "?node=blob%2Fx%3D1%26y%2Bz&field=100%25+%C3%A9%3F%23&span=3")) ∧
      ∃ text, formatLocationExpression reservedLocation = some text ∧
        parseLocationExpression id text [] [(codeUnits "x", 8), (codeUnits "a b/50%:c", 32)] =
          some reservedLocation := by
  obtain ⟨text, hformat, hparse, hback⟩ := location_round_trip id [] isLocationOf_reservedLocation
  refine ⟨by decide +kernel, text, hformat, ?_⟩
  rw [hparse, hback.2]
  refine ⟨fun id hid => ?_, fun name hname => ?_⟩
  · obtain rfl := Option.some.inj hid
    decide +kernel
  · obtain rfl := Option.some.inj hname
    decide +kernel

/-- A node id that is a lone surrogate is not read back. -/
theorem lone_surrogate_lost : IsLocationOf [(codeUnits "a", 1)] (firstByteAt [0xd800]) ∧
    ∃ text, formatLocationExpression (firstByteAt [0xd800]) = some text ∧
      parseLocationExpression id text [] [(codeUnits "a", 1)] ≠ some (firstByteAt [0xd800]) := by
  have h := isLocationOf_firstByteAt (show ([0xd800] : JsString) ≠ [] by decide)
  obtain ⟨text, hformat, hparse⟩ := exists_parsed id [] h
  refine ⟨h, text, hformat, fun heq => ?_⟩
  rw [hparse, Option.some_inj, readBack_eq_iff] at heq
  exact absurd (heq.1 [0xd800] rfl) (by decide)

end Npunlock
