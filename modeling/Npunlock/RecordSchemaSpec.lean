import Mathlib.Data.Int.ModEq
import Npunlock.Counting
import Npunlock.RecordSchema

/-!
# Decoding under a validated schema

What `decode_record_fields` promises on a schema that `validate_schema` accepts
(`DecodesRecord`), and when it keeps the promise (`decodesRecord_iff`).

The checks look at the encoding, the display and the value map of a field one by one. A
display needs an integer, which the text of `bytes-hex` is not and an entry of the value
map need not be; and an entry may hold a float that no field takes. Under such a
combination the decoding raises although the record fits.
-/

namespace Npunlock.RecordSchema

/-! ## Reading a descriptor -/

/-- An integer that is not negative, under a key. -/
def naturalAt (value : Json) (key : String) : ℕ :=
  match value.get? key with
  | some (.number value) => value.toNat
  | _ => 0

/-- A text, under a key. -/
def textAt (value : Json) (key : String) : String :=
  match value.get? key with
  | some (.string text) => text
  | _ => ""

/-- The elements of a list, under a key. -/
def itemsAt (value : Json) (key : String) : List Json :=
  match value.get? key with
  | some (.array items) => items
  | _ => []

/-- The entries of an object, if there is one under the key. -/
def entriesAt (value : Json) (key : String) : Option (List (String × Json)) :=
  match value.get? key with
  | some (.object entries) => some entries
  | _ => none

/-- The bytes a field is read from. -/
def bytesOf (data : List UInt8) (base : ℤ) (descriptor : Json) : List UInt8 :=
  (data.drop (base.toNat + naturalAt descriptor "offset")).take (naturalAt descriptor "size")

/-- The entry that the value map holds for the bytes. -/
def mapEntry (descriptor : Json) (bytes : List UInt8) : Option Json :=
  (entriesAt descriptor "value_map").bind fun entries =>
    entries.lookup (keyText (decodeBytes (.string (textAt descriptor "encoding")) bytes))

/-! ## What is promised -/

/-- The value an encoding gives to bytes. -/
inductive Encodes (bytes : List UInt8) : String → Json → Prop
  | hex : Encodes bytes "bytes-hex"
    (.string (" ".intercalate (bytes.map fun byte => String.ofList (hexByte byte))))
  | unsigned {encoding : String} (h : encoding ∈ ["u8", "u16le", "u32le", "u64le"]) :
    Encodes bytes encoding (.number (Nat.ofDigits 256 (bytes.map UInt8.toNat) : ℕ))
  | signed {encoding : String} (h : encoding ∈ ["i32le", "i64le"]) {value : ℤ}
    (low : -256 ^ bytes.length ≤ 2 * value) (high : 2 * value < 256 ^ bytes.length)
    (congruent : value ≡ (Nat.ofDigits 256 (bytes.map UInt8.toNat) : ℕ)
      [ZMOD 256 ^ bytes.length]) :
    Encodes bytes encoding (.number value)
  | high : Encodes bytes "u64le-hi32"
    (.number (Nat.ofDigits 256 ((bytes.drop 4).map UInt8.toNat) : ℕ))
  | low : Encodes bytes "u64le-lo32"
    (.number (Nat.ofDigits 256 ((bytes.take 4).map UInt8.toNat) : ℕ))

/-- The value of a field is what the value map has for the decoded value, or the decoded
value. -/
def IsMapped (descriptor decoded value : Json) : Prop :=
  value = ((entriesAt descriptor "value_map").bind fun entries =>
    entries.lookup (keyText decoded)).getD decoded

section Promise

variable (artifact : Artifact) (data : List UInt8) (base : ℤ)
  (computed : List (String × Option Json))

/-- The field that a descriptor describes. -/
def IsField (descriptor : Json) (field : String × ArtifactField) : Prop :=
  descriptor.get? "id" = some (.string field.1) ∧
    if isComputed descriptor then
      computed.lookup field.1 = some (some field.2.value) ∧ field.2.spans = []
    else
      field.2.spans = [{
        artifact := artifact.id
        start := base.toNat + naturalAt descriptor "offset"
        stop := base.toNat + naturalAt descriptor "offset" + naturalAt descriptor "size" }] ∧
      ∃ decoded, Encodes (bytesOf data base descriptor) (textAt descriptor "encoding") decoded ∧
        IsMapped descriptor decoded field.2.value

/-- The record lies in the data and in the artifact. -/
structure RecordFits (record : Json) : Prop where
  base_nonneg : 0 ≤ base
  data_le : base + naturalAt record "size" ≤ data.length
  artifact_le : base + naturalAt record "size" ≤ artifact.size

/-- The values are given for exactly the computed fields. -/
def ComputedFits (record : Json) : Prop :=
  ∀ id, id ∈ computed.map Prod.fst ↔ id ∈ computedIds (itemsAt record "fields")

/-- The record is decoded if it fits, and otherwise only a `ValueError` is raised. -/
structure DecodesRecord (repr : Json → String) (schema : Json) (recordId : String)
    (record : Json) : Prop where
  decodes : RecordFits artifact data base record → ComputedFits computed record →
    ∃ fields, decodeRecordFields repr recordId artifact data base computed schema = .ok fields ∧
      List.Forall₂ (IsField artifact data base computed) (itemsAt record "fields") fields
  raises : ∀ error,
    decodeRecordFields repr recordId artifact data base computed schema = .error error →
      (∃ message, error = valueError message) ∧
        ¬(RecordFits artifact data base record ∧ ComputedFits computed record)

/-! ## When it is kept -/

/-- The display of the field is one of the two for integers. -/
def hasDisplay (descriptor : Json) : Bool :=
  textAt descriptor "display" ∈ displays

/-- An entry of the value map that the display can show : an integer or a boolean, or where
only values from zero on are shown in hexadecimal a float below zero. -/
def isShown (descriptor : Json) : Json → Bool
  | .number _ | .boolean _ => true
  | .float text => textAt descriptor "display" == "hex-nonnegative" && isBelowZero text
  | .null | .string _ | .array _ | .object _ => false

/-- The display of a field agrees with its encoding, or with the entry that the value map
holds for its bytes. -/
def Showable (descriptor : Json) : Prop :=
  isComputed descriptor = false → hasDisplay descriptor = true →
    match mapEntry descriptor (bytesOf data base descriptor) with
    | some value => isShown descriptor value = true
    | none => textAt descriptor "encoding" ≠ "bytes-hex"

/-- The field has a value that can be written as JSON. -/
def Writable (descriptor : Json) : Prop :=
  if isComputed descriptor then
    ∃ value, computed.lookup (textAt descriptor "id") = some (some value) ∧ value.isFinite = true
  else
    ∀ value ∈ mapEntry descriptor (bytesOf data base descriptor), value.isFinite = true

/-- The condition on the record : where it lies in the data, every field up to the first
one without a writable value can be shown, and if the computed values fit every field has
a writable value. -/
structure Consistent (record : Json) : Prop where
  showable : ∀ before descriptor after,
    itemsAt record "fields" = before ++ descriptor :: after →
      (∀ earlier ∈ before, Writable data base computed earlier) → Showable data base descriptor
  writable : ComputedFits computed record → ∀ descriptor ∈ itemsAt record "fields",
    Writable data base computed descriptor

end Promise

/-! ## Accepted descriptors -/

/-- What validation found in the descriptor of a stored field. -/
structure StoredChecks (recordSize : ℕ) (descriptor : Json) : Prop where
  offset_eq : descriptor.get? "offset" = some (.number (naturalAt descriptor "offset"))
  size_eq : descriptor.get? "size" = some (.number (naturalAt descriptor "size"))
  encoding_eq : descriptor.get? "encoding" = some (.string (textAt descriptor "encoding"))
  inside : naturalAt descriptor "offset" + naturalAt descriptor "size" ≤ recordSize
  known : textAt descriptor "encoding" ∈ encodingSizes.map Prod.fst ++ variableSizeEncodings
  encodingSize : ∀ expected, encodingSizes.lookup (textAt descriptor "encoding") = some expected →
    expected = naturalAt descriptor "size"

/-- What validation found in a descriptor. -/
structure DescriptorChecks (recordSize : ℕ) (descriptor : Json) : Prop where
  id_eq : descriptor.get? "id" = some (.string (textAt descriptor "id"))
  description_eq : descriptor.get? "description" = some (.string (textAt descriptor "description"))
  description_stripped : isStripped (textAt descriptor "description") = true
  annotations_finite : (Json.object (annotationsOf descriptor)).isFinite = true
  stored : isComputed descriptor = false → StoredChecks recordSize descriptor

/-- What validation found in a record. -/
structure RecordChecks (record : Json) : Prop where
  size_eq : record.get? "size" = some (.number (naturalAt record "size"))
  fields_eq : record.get? "fields" = some (.array (itemsAt record "fields"))
  descriptors : ∀ descriptor ∈ itemsAt record "fields",
    DescriptorChecks (naturalAt record "size") descriptor

theorem schemaText_eq_ok_iff {value : Json} {what text : String} :
    schemaText value what = .ok text ↔ value = .string text ∧ isStripped text = true := by
  cases value with
  | string text' =>
    simp only [schemaText, refuseIf_bind_eq_ok_iff, Except.ok.injEq, Json.string.injEq,
      Bool.not_eq_false]
    constructor
    · rintro ⟨hstripped, rfl⟩
      exact ⟨rfl, hstripped⟩
    · rintro ⟨rfl, hstripped⟩
      exact ⟨hstripped, rfl⟩
  | null | boolean | number | float | array | object => simp [schemaText]

/-- A key that a value other than `None` is found under is in the object. -/
theorem lookup_of_entry {fields : List (String × Json)} {key : String} {value : Json}
    (h : entry fields key = value) (hnull : value ≠ .null) : fields.lookup key = some value := by
  unfold entry at h
  cases hlookup : fields.lookup key with
  | none =>
    rw [hlookup] at h
    exact absurd h.symm hnull
  | some found =>
    rw [hlookup] at h
    exact congrArg some h

theorem textAt_of_lookup {fields : List (String × Json)} {key text : String}
    (h : fields.lookup key = some (.string text)) : textAt (.object fields) key = text := by
  simp [textAt, h]

theorem isMember_eq_ok_true_iff {value : Json} {choices : List String} :
    isMember value choices = .ok true ↔ ∃ text ∈ choices, value = .string text := by
  cases value <;> simp [isMember]

theorem storedChecks_of_validateStored {name : String} {recordSize : ℤ}
    {fields : List (String × Json)} (h : validateStored name recordSize fields = .ok ()) :
    StoredChecks recordSize.toNat (.object fields) := by
  simp only [validateStored, refuseIf_bind_eq_ok_iff] at h
  obtain ⟨-, h⟩ := h
  split at h
  case h_2 => cases h
  case h_1 offset size hoffset hsize =>
    simp only [bind_eq_ok_iff, refuseIf_eq_ok_iff, not_or, Int.not_lt, Int.not_le] at h
    obtain ⟨_, ⟨hoffset0, hsize0, -, hinside⟩, known, hknown, _, hknown', _, hdiffers, -⟩ := h
    obtain rfl : known = true := by simpa using hknown'
    obtain ⟨encoding, hmem, hencoding⟩ := isMember_eq_ok_true_iff.1 hknown
    have hoffsetAt := lookup_of_entry hoffset (by simp)
    have hsizeAt := lookup_of_entry hsize (by simp)
    have hencodingAt := lookup_of_entry hencoding (by simp)
    have htext := textAt_of_lookup hencodingAt
    have hoffsetNat : naturalAt (.object fields) "offset" = offset.toNat := by
      simp [naturalAt, hoffsetAt]
    have hsizeNat : naturalAt (.object fields) "size" = size.toNat := by
      simp [naturalAt, hsizeAt]
    refine ⟨?_, ?_, ?_, ?_, ?_, fun expected hexpected => ?_⟩
    · rw [hoffsetNat, Int.toNat_of_nonneg hoffset0]
      exact hoffsetAt
    · rw [hsizeNat, Int.toNat_of_nonneg (by omega)]
      exact hsizeAt
    · rw [htext]
      exact hencodingAt
    · rw [hoffsetNat, hsizeNat]
      omega
    · rw [htext]
      exact hmem
    · rw [htext] at hexpected
      rw [hsizeNat, Int.toNat_of_nonneg (by omega)]
      simpa [hencoding, sizeDiffers, hexpected] using hdiffers

theorem fieldsFinite_iff : ∀ {fields : List (String × Json)},
    Json.fieldsFinite fields = true ↔ ∀ field ∈ fields, field.2.isFinite = true
  | [] => by simp [Json.fieldsFinite]
  | field :: fields => by
    rw [Json.fieldsFinite, Bool.and_eq_true, fieldsFinite_iff, List.forall_mem_cons]

theorem isFinite_of_optionalMember {value : Json} {choices : List String} {message : String}
    (h : optionalMember value choices message = .ok ()) : value.isFinite = true := by
  cases value with
  | null => rfl
  | boolean | number | float | string | array | object =>
    obtain ⟨known, hknown, h⟩ := bind_eq_ok_iff.1 h
    obtain rfl : known = true := by simpa using h
    obtain ⟨text, -, htext⟩ := isMember_eq_ok_true_iff.1 hknown
    rw [htext, Json.isFinite]

/-- The annotations of a descriptor are texts or null. -/
theorem annotations_finite_of_validateAnnotations {repr : Json → String} {name : String}
    {fields : List (String × Json)} (h : validateAnnotations repr name fields = .ok ()) :
    (Json.object (annotationsOf (.object fields))).isFinite = true := by
  simp only [validateAnnotations, bind_eq_ok_iff] at h
  obtain ⟨_, -, _, hconfidence, _, hscope, hrelevance⟩ := h
  rw [Json.isFinite, fieldsFinite_iff]
  intro field hfield
  obtain ⟨key, hkey, hvalue⟩ := List.mem_filterMap.1 hfield
  rw [Json.get?_object] at hvalue
  obtain ⟨value, hlookup, rfl⟩ := Option.map_eq_some_iff.1 hvalue
  have hentry : entry fields key = value := by rw [entry, hlookup, Option.getD_some]
  simp only [List.mem_cons, List.not_mem_nil, or_false] at hkey
  rcases hkey with rfl | rfl | rfl
  · exact hentry ▸ isFinite_of_optionalMember hconfidence
  · rw [optionalScope, hlookup] at hscope
    obtain ⟨text, htext, -⟩ := bind_eq_ok_iff.1 hscope
    rw [(schemaText_eq_ok_iff.1 htext).1, Json.isFinite]
  · exact hentry ▸ isFinite_of_optionalMember hrelevance

theorem descriptorChecks_of_validateField {repr : Json → String} {recordId : String}
    {recordSize : ℤ} {seen seen' : List String} {descriptor : Json}
    (h : validateField repr recordId recordSize seen descriptor = .ok seen') :
    DescriptorChecks recordSize.toNat descriptor := by
  unfold validateField at h
  split at h
  case h_2 => cases h
  case h_1 fields =>
    simp only [bind_eq_ok_iff, schemaText_eq_ok_iff] at h
    obtain ⟨id, ⟨hid, -⟩, _, -, _, -, _, hannotations, _, hsource, -⟩ := h
    have hfinite := annotations_finite_of_validateAnnotations hannotations
    simp only [validateAnnotations, bind_eq_ok_iff, schemaText_eq_ok_iff] at hannotations
    obtain ⟨description, ⟨hdescription, hstripped⟩, -⟩ := hannotations
    have hidAt := lookup_of_entry hid (by simp)
    have hdescriptionAt := lookup_of_entry hdescription (by simp)
    refine ⟨?_, ?_, ?_, hfinite, fun hcomputed => ?_⟩
    · rw [textAt_of_lookup hidAt]
      exact hidAt
    · rw [textAt_of_lookup hdescriptionAt]
      exact hdescriptionAt
    · rw [textAt_of_lookup hdescriptionAt]
      exact hstripped
    · unfold validateSource at hsource
      simp only [isComputed, Json.get?_object] at hcomputed
      split at hsource
      case h_1 hflag =>
        rw [hflag] at hcomputed
        cases hcomputed
      case h_2 => exact storedChecks_of_validateStored hsource
      case h_3 => cases hsource

/-- Every element of a list that a fold accepts was accepted by a step. -/
theorem exists_step_of_foldlM {σ : Type} {step : σ → Json → Except SchemaError σ} :
    ∀ {items : List Json} {s s' : σ}, items.foldlM step s = .ok s' →
      ∀ item ∈ items, ∃ before after, step before item = .ok after
  | [], s, s', h, item, hitem => by simp at hitem
  | first :: items, s, s', h, item, hitem => by
    rw [List.foldlM_cons] at h
    obtain ⟨middle, hfirst, hrest⟩ := bind_eq_ok_iff.1 h
    rcases List.mem_cons.1 hitem with rfl | hitem
    · exact ⟨s, middle, hfirst⟩
    · exact exists_step_of_foldlM hrest item hitem

theorem recordChecks_of_validateFields {repr : Json → String} {recordId : String} {record : Json}
    (h : validateFields repr recordId record = .ok ()) : RecordChecks record := by
  unfold validateFields at h
  dsimp only at h
  split at h
  case h_2 => cases h
  case h_1 size hsize =>
    simp only [refuseIf_bind_eq_ok_iff] at h
    obtain ⟨hpositive, h⟩ := h
    split at h
    case h_2 => cases h
    case h_1 descriptors hdescriptors =>
      simp only [bind_eq_ok_iff] at h
      obtain ⟨_, -, ids, hfold, -⟩ := h
      have hsizeAt : record.get? "size" = some (.number size) := by
        cases hget : record.get? "size" with
        | none => simp [hget] at hsize
        | some value => simpa [hget] using hsize
      have hfieldsAt : record.get? "fields" = some (.array descriptors) := by
        cases hget : record.get? "fields" with
        | none => simp [hget] at hdescriptors
        | some value => simpa [hget] using hdescriptors
      have hsizeNat : naturalAt record "size" = size.toNat := by
        simp [naturalAt, hsizeAt]
      have hitems : itemsAt record "fields" = descriptors := by
        simp [itemsAt, hfieldsAt]
      refine ⟨?_, ?_, fun descriptor hdescriptor => ?_⟩
      · rw [hsizeNat, Int.toNat_of_nonneg (by omega)]
        exact hsizeAt
      · rw [hitems]
        exact hfieldsAt
      · rw [hitems] at hdescriptor
        obtain ⟨before, after, hstep⟩ := exists_step_of_foldlM hfold descriptor hdescriptor
        rw [hsizeNat]
        exact descriptorChecks_of_validateField hstep

/-- Every record of an accepted schema was checked. -/
theorem recordChecks_of_validateSchema {repr : Json → String} {schema record : Json}
    {recordId : String} (h : validateSchema repr schema = .ok ())
    (hrecord : (schema.get? "records").bind (fun records => records.get? recordId) =
      some record) : RecordChecks record := by
  unfold validateSchema at h
  split at h
  case h_2 => cases h
  case h_1 fields =>
    simp only [bind_eq_ok_iff] at h
    obtain ⟨_, -, _, -, _, -, _, h, -⟩ := h
    unfold validateDescriptors at h
    split at h
    case h_2 => cases h
    case h_1 nodes records hnodes hrecords =>
      obtain ⟨-, -, h⟩ := bind_eq_ok_iff.1 h
      split at h
      case h_2 => cases h
      case h_1 links hlinks =>
        obtain ⟨-, -, h⟩ := bind_eq_ok_iff.1 h
        rw [Json.get?_object, lookup_of_entry hrecords (by simp), Option.bind_some,
          Json.get?_object, List.lookup_eq_some_iff] at hrecord
        obtain ⟨before, after, rfl, -⟩ := hrecord
        have hentry := forM_eq_ok_iff.1 h (recordId, record) (by simp)
        simp only [validateRecord, bind_eq_ok_iff] at hentry
        obtain ⟨id, -, _, -, hfields⟩ := hentry
        exact recordChecks_of_validateFields hfields

/-! ## Decoded bytes -/

section Bytes

variable {bytes : List UInt8}

theorem unsignedBytes_lt (bytes : List UInt8) : unsignedBytes bytes < 256 ^ bytes.length := by
  have h := Nat.ofDigits_lt_base_pow_length (b := 256) (l := bytes.map UInt8.toNat) (by norm_num)
    (fun digit hdigit => by
      obtain ⟨byte, -, rfl⟩ := List.mem_map.1 hdigit
      exact byte.toNat_lt)
  simpa [unsignedBytes] using h

/-- The low and the high half of eight bytes. -/
theorem unsignedBytes_eight (h : bytes.length = 8) :
    unsignedBytes bytes = unsignedBytes (bytes.take 4) + 2 ^ 32 * unsignedBytes (bytes.drop 4) := by
  have hlength : ((bytes.take 4).map UInt8.toNat).length = 4 := by simp [h]
  conv_lhs => rw [← List.take_append_drop 4 bytes]
  rw [unsignedBytes, List.map_append, Nat.ofDigits_append, hlength]
  rfl

theorem unsignedBytes_take_lt (h : bytes.length = 8) :
    unsignedBytes (bytes.take 4) < 2 ^ 32 := by
  have := unsignedBytes_lt (bytes.take 4)
  rw [List.length_take, h] at this
  exact this

theorem encodes_signed {encoding : String} (h : encoding ∈ ["i32le", "i64le"]) :
    Encodes bytes encoding (.number (signedBytes bytes)) := by
  have hlt : (unsignedBytes bytes : ℤ) < 256 ^ bytes.length := by
    exact_mod_cast unsignedBytes_lt bytes
  unfold signedBytes
  dsimp only
  split_ifs with hsmall
  · refine .signed h (by omega) (by exact_mod_cast hsmall) ?_
    exact Int.ModEq.refl _
  · have hlarge : (256 : ℤ) ^ bytes.length ≤ 2 * unsignedBytes bytes := by
      exact_mod_cast Nat.not_lt.1 hsmall
    refine .signed h (by omega) (by omega) ?_
    exact Int.modEq_iff_dvd.2 ⟨1, by rw [unsignedBytes]; omega⟩

/-- The decoded value is the one the encoding gives, for the number of bytes it needs. -/
theorem encodes_decodeBytes {encoding : String}
    (hknown : encoding ∈ encodingSizes.map Prod.fst ++ variableSizeEncodings)
    (hsize : ∀ expected, encodingSizes.lookup encoding = some expected →
      expected = bytes.length) :
    Encodes bytes encoding (decodeBytes (.string encoding) bytes) := by
  simp only [encodingSizes, variableSizeEncodings, List.map_cons, List.map_nil, List.cons_append,
    List.nil_append, List.mem_cons, List.not_mem_nil, or_false] at hknown
  rcases hknown with rfl | rfl | rfl | rfl | rfl | rfl | rfl | rfl | rfl
  · exact .unsigned (by simp)
  · exact .unsigned (by simp)
  · exact .unsigned (by simp)
  · exact encodes_signed (by simp)
  · exact .unsigned (by simp)
  · exact encodes_signed (by simp)
  · have hlength : bytes.length = 8 := by
      exact_mod_cast (hsize 8 rfl).symm
    have hhigh : unsignedBytes bytes >>> 32 = unsignedBytes (bytes.drop 4) := by
      have := unsignedBytes_take_lt hlength
      rw [unsignedBytes_eight hlength, Nat.shiftRight_eq_div_pow]
      omega
    change Encodes bytes "u64le-hi32" (.number (unsignedBytes bytes >>> 32 : ℕ))
    rw [hhigh]
    exact .high
  · have hlength : bytes.length = 8 := by
      exact_mod_cast (hsize 8 rfl).symm
    have hlow : unsignedBytes bytes &&& 0xFFFFFFFF = unsignedBytes (bytes.take 4) := by
      have := unsignedBytes_take_lt hlength
      have hmask := Nat.and_two_pow_sub_one_eq_mod (unsignedBytes bytes) 32
      rw [unsignedBytes_eight hlength] at hmask ⊢
      norm_num at hmask ⊢
      omega
    change Encodes bytes "u64le-lo32" (.number (unsignedBytes bytes &&& 0xFFFFFFFF : ℕ))
    rw [hlow]
    exact .low
  · exact .hex

end Bytes

/-! ## One field -/

theorem optionalChoice_legacyChoice {choices : List String}
    (hchoices : ∀ choice ∈ choices, isStripped choice = true)
    (properties : List (String × Json)) (key what : String) :
    ∃ choice, optionalChoice (inherited .none (legacyChoice properties key choices)) choices what =
      .ok choice := by
  unfold legacyChoice
  split
  case h_2 => exact ⟨none, rfl⟩
  case h_1 text _ =>
    split_ifs with hmem
    · refine ⟨some text, ?_⟩
      simp [inherited, optionalChoice, identifier, hchoices text hmem, refuseIf, hmem]
    · exact ⟨none, rfl⟩

theorem optionalDescription_legacyText (properties : List (String × Json)) (key what : String) :
    ∃ text, optionalDescription (inherited .none (legacyText properties key)) what =
      .ok text := by
  unfold legacyText
  split
  case h_2 => exact ⟨none, rfl⟩
  case h_1 text _ =>
    split_ifs with hstripped
    · exact ⟨some text, by simp [inherited, optionalDescription, hstripped]⟩
    · exact ⟨none, rfl⟩

theorem isStripped_confidenceValues : ∀ choice ∈ confidenceValues, isStripped choice = true := by
  decide +kernel

theorem isStripped_relevanceValues : ∀ choice ∈ relevanceValues, isStripped choice = true := by
  decide +kernel

section Field

variable {value : Json} {spans : List Span} {display : Argument} {description : String}
  {properties : List (String × Json)}

/-- A field is made of a value that can be written, a text or nothing to show, and a
description. Its annotations are among its properties, where only valid ones are taken. -/
theorem schemaField_of_isFinite (hfinite : value.isFinite = true)
    (hproperties : (Json.object properties).isFinite = true)
    (hdisplay : display = .none ∨ ∃ text, display = .text text)
    (hstripped : isStripped description = true) :
    ∃ field, schemaField
        { value := some value
          spans
          display
          description := .text description
          properties := .entries properties } = .ok field ∧
      field.value = value ∧ field.spans = spans := by
  obtain ⟨confidence, hconfidence⟩ := optionalChoice_legacyChoice isStripped_confidenceValues
    properties "confidence" "field confidence"
  obtain ⟨scope, hscope⟩ := optionalDescription_legacyText properties "scope" "field scope"
  obtain ⟨relevance, hrelevance⟩ := optionalChoice_legacyChoice isStripped_relevanceValues
    properties "relevance" "field relevance"
  obtain ⟨shown, hshown⟩ : ∃ shown, ArtifactGraph.displayText display = .ok shown := by
    rcases hdisplay with rfl | ⟨text, rfl⟩
    · exact ⟨none, rfl⟩
    · exact ⟨some text, rfl⟩
  have hdescription : optionalDescription (.text description) "field description" =
      .ok (some description) := by
    simp [optionalDescription, hstripped]
  refine ⟨⟨value, spans, shown, some description, properties, confidence, scope, relevance⟩,
    ?_, rfl, rfl⟩
  simp [schemaField, ArtifactGraph.makeField, ArtifactGraph.jsonValue, hfinite, hshown,
    hdescription, propertyValues, hproperties, hconfidence, hscope, hrelevance, Except.mapError]

theorem schemaField_of_not_isFinite (hfinite : value.isFinite = false) :
    ∃ message, schemaField
        { value := some value
          spans
          display
          description := .text description
          properties := .entries properties } = .error (valueError message) := by
  simp [schemaField, ArtifactGraph.makeField, ArtifactGraph.jsonValue, hfinite, Except.mapError,
    valueError]

end Field

section Stored

variable {artifact : Artifact} {data : List UInt8} {base : ℤ} {recordSize : ℕ} {descriptor : Json}

/-- The decoded bytes, before the value map. -/
def decodedOf (data : List UInt8) (base : ℤ) (descriptor : Json) : Json :=
  decodeBytes (.string (textAt descriptor "encoding")) (bytesOf data base descriptor)

/-- The value of a stored field. -/
def valueOf (data : List UInt8) (base : ℤ) (descriptor : Json) : Json :=
  (mapEntry descriptor (bytesOf data base descriptor)).getD (decodedOf data base descriptor)

theorem mapValue_eq (descriptor decoded : Json) :
    mapValue ((descriptor.get? "value_map").getD .null) decoded =
      ((entriesAt descriptor "value_map").bind fun entries =>
        entries.lookup (keyText decoded)).getD decoded := by
  unfold entriesAt
  cases descriptor.get? "value_map" with
  | none => rfl
  | some map => cases map <;> rfl

theorem isText_get? (descriptor : Json) (key : String) {text : String} (htext : text ≠ "") :
    isText ((descriptor.get? key).getD .null) text = (textAt descriptor key == text) := by
  unfold textAt
  have hempty : ("" == text) = false := by simpa using htext.symm
  cases descriptor.get? key with
  | none => simp [isText, hempty]
  | some found => cases found <;> simp [isText, hempty]

/-- A decoded value is an integer, or the text of bytes. -/
theorem decodeBytes_cases (encoding : String) (bytes : List UInt8) :
    encoding = "bytes-hex" ∧ decodeBytes (.string encoding) bytes = .string (spacedHex bytes) ∨
      encoding ≠ "bytes-hex" ∧ ∃ value, decodeBytes (.string encoding) bytes = .number value := by
  by_cases hhex : encoding = "bytes-hex"
  · exact .inl ⟨hhex, by simp [decodeBytes, isText, hhex]⟩
  · refine .inr ⟨hhex, ?_⟩
    have hnot : isText (.string encoding) "bytes-hex" = false := by simpa [isText] using hhex
    unfold decodeBytes
    rw [hnot, if_neg Bool.false_ne_true]
    split_ifs
    all_goals exact ⟨_, rfl⟩

theorem isFinite_decodedOf : (decodedOf data base descriptor).isFinite = true := by
  rcases decodeBytes_cases (textAt descriptor "encoding") (bytesOf data base descriptor) with
    ⟨-, h⟩ | ⟨-, value, h⟩
  all_goals
    rw [decodedOf, h]
    simp [Json.isFinite]

/-- Only an entry of the value map can be a value that cannot be written. -/
theorem isFinite_valueOf_iff : (valueOf data base descriptor).isFinite = true ↔
    ∀ value ∈ mapEntry descriptor (bytesOf data base descriptor), value.isFinite = true := by
  unfold valueOf
  cases mapEntry descriptor (bytesOf data base descriptor) with
  | none => simpa using isFinite_decodedOf
  | some value => simp

/-- A field is showable if its display can show its value. -/
theorem showable_iff (hstored : isComputed descriptor = false) :
    Showable data base descriptor ↔ (hasDisplay descriptor = true →
      isShown descriptor (valueOf data base descriptor) = true) := by
  unfold Showable valueOf
  simp only [hstored, forall_const]
  refine imp_congr_right fun _ => ?_
  cases mapEntry descriptor (bytesOf data base descriptor) with
  | some value => rfl
  | none =>
    rw [Option.getD_none, decodedOf]
    rcases decodeBytes_cases (textAt descriptor "encoding") (bytesOf data base descriptor) with
      ⟨hhex, h⟩ | ⟨hhex, value, h⟩
    · rw [h]
      simp [hhex, isShown]
    · rw [h]
      simp [hhex, isShown]

theorem showHex_spec (descriptor value : Json) :
    (isShown descriptor value = true → textAt descriptor "display" = "hex" →
      ∃ text, showHex value = .ok text) ∧
    (isShown descriptor value = false → ∃ message, showHex value = .error (typeError message)) := by
  cases value with
  | number _ | boolean _ => exact ⟨fun _ _ => ⟨_, rfl⟩, Bool.noConfusion⟩
  | float text =>
    refine ⟨fun h hhex => ?_, fun _ => ⟨_, rfl⟩⟩
    change (textAt descriptor "display" == "hex-nonnegative" && _) = true at h
    rw [hhex] at h
    cases h
  | _ => exact ⟨Bool.noConfusion, fun _ => ⟨_, rfl⟩⟩

theorem showNonnegative_spec (descriptor value : Json)
    (hhex : textAt descriptor "display" = "hex-nonnegative") :
    (isShown descriptor value = true → ∃ text, showNonnegative value = .ok text) ∧
    (isShown descriptor value = false →
      ∃ message, showNonnegative value = .error (typeError message)) := by
  cases value with
  | number _ | boolean _ => exact ⟨fun _ => ⟨_, rfl⟩, Bool.noConfusion⟩
  | float text =>
    have hshown : isShown descriptor (.float text) = isBelowZero text := by
      change (textAt descriptor "display" == "hex-nonnegative" && isBelowZero text) = _
      rw [hhex]
      rfl
    rw [hshown, showNonnegative]
    exact ⟨fun h => ⟨text, if_pos h⟩, fun h => ⟨_, if_neg (Bool.not_eq_true _ ▸ h)⟩⟩
  | _ => exact ⟨Bool.noConfusion, fun _ => ⟨_, rfl⟩⟩

theorem hasDisplay_iff : hasDisplay descriptor = true ↔
    textAt descriptor "display" = "hex" ∨ textAt descriptor "display" = "hex-nonnegative" := by
  simp [hasDisplay, displays]

theorem displayOf_of_isShown {value : Json}
    (h : hasDisplay descriptor = true → isShown descriptor value = true) :
    ∃ display, displayOf ((descriptor.get? "display").getD .null) value = .ok display ∧
      (display = .none ∨ ∃ text, display = .text text) := by
  unfold displayOf
  rw [isText_get? descriptor "display" (by decide), isText_get? descriptor "display" (by decide)]
  by_cases hhex : textAt descriptor "display" = "hex"
  · obtain ⟨text, htext⟩ := (showHex_spec descriptor value).1
      (h (hasDisplay_iff.2 (.inl hhex))) hhex
    exact ⟨.text text, by simp [hhex, htext], .inr ⟨text, rfl⟩⟩
  · by_cases hnonnegative : textAt descriptor "display" = "hex-nonnegative"
    · obtain ⟨text, htext⟩ := (showNonnegative_spec descriptor value hnonnegative).1
        (h (hasDisplay_iff.2 (.inr hnonnegative)))
      exact ⟨.text text, by simp [hnonnegative, htext], .inr ⟨text, rfl⟩⟩
    · exact ⟨.none, by simp [hhex, hnonnegative], .inl rfl⟩

theorem displayOf_of_not_isShown {value : Json} (hdisplay : hasDisplay descriptor = true)
    (h : isShown descriptor value = false) :
    ∃ message, displayOf ((descriptor.get? "display").getD .null) value =
      .error (typeError message) := by
  unfold displayOf
  rw [isText_get? descriptor "display" (by decide), isText_get? descriptor "display" (by decide)]
  rcases hasDisplay_iff.1 hdisplay with hhex | hnonnegative
  · obtain ⟨message, hmessage⟩ := (showHex_spec descriptor value).2 h
    exact ⟨message, by simp [hhex, hmessage]⟩
  · obtain ⟨message, hmessage⟩ := (showNonnegative_spec descriptor value hnonnegative).2 h
    exact ⟨message, by simp [hnonnegative, hmessage]⟩

/-- The steps of the decoding of a stored field, for a descriptor that was checked. -/
theorem storedField_eq (hbase : 0 ≤ base) (hchecks : DescriptorChecks recordSize descriptor)
    (hstored : StoredChecks recordSize descriptor) :
    storedField artifact data base descriptor = (do
      let display ← displayOf ((descriptor.get? "display").getD .null)
        (valueOf data base descriptor)
      schemaField
        { value := some (valueOf data base descriptor)
          spans := [{
            artifact := artifact.id
            start := base.toNat + naturalAt descriptor "offset"
            stop := base.toNat + naturalAt descriptor "offset" + naturalAt descriptor "size" }]
          display
          description := .text (textAt descriptor "description")
          properties := .entries (annotationsOf descriptor) }) := by
  have hitem : ∀ {key : String} {value : Json}, descriptor.get? key = some value →
      item descriptor key = .ok value := by
    intro key value h
    cases descriptor with
    | object fields =>
      rw [Json.get?_object] at h
      simp [item, h]
    | null | boolean | number | float | string | array => simp [Json.get?] at h
  have hstart : (base + (naturalAt descriptor "offset" : ℤ)).toNat =
      base.toNat + naturalAt descriptor "offset" := by omega
  have hstop : (base + (naturalAt descriptor "offset" : ℤ) +
      (naturalAt descriptor "size" : ℤ)).toNat =
        base.toNat + naturalAt descriptor "offset" + naturalAt descriptor "size" := by omega
  have hbytes : (data.take (base.toNat + naturalAt descriptor "offset" +
      naturalAt descriptor "size")).drop (base.toNat + naturalAt descriptor "offset") =
        bytesOf data base descriptor := by
    rw [bytesOf, List.drop_take]
    congr 1
    omega
  unfold storedField
  simp only [integerItem, hitem hstored.offset_eq, hitem hstored.size_eq,
    hitem hstored.encoding_eq, hitem hchecks.description_eq, ok_bind, hstart, hstop, hbytes,
    mapValue_eq, argumentOf]
  rfl

end Stored

section Outcomes

variable {recordId : String} {artifact : Artifact} {data : List UInt8} {base : ℤ}
  {computed : List (String × Option Json)} {recordSize : ℕ} {descriptor : Json}

theorem item_eq_ok {value found : Json} {key : String} (h : value.get? key = some found) :
    item value key = .ok found := by
  cases value with
  | object fields =>
    rw [Json.get?_object] at h
    simp [item, h]
  | null | boolean | number | float | string | array => simp [Json.get?] at h

/-- The outcome for a stored field whose value can be shown : a field if it can be written. -/
theorem storedField_of_showable (hbase : 0 ≤ base)
    (hchecks : DescriptorChecks recordSize descriptor) (hcomputed : isComputed descriptor = false)
    (hshow : Showable data base descriptor) :
    (Writable data base computed descriptor → ∃ field,
      storedField artifact data base descriptor = .ok field ∧
        field.value = valueOf data base descriptor ∧ field.spans = [{
          artifact := artifact.id
          start := base.toNat + naturalAt descriptor "offset"
          stop := base.toNat + naturalAt descriptor "offset" + naturalAt descriptor "size" }]) ∧
    (¬Writable data base computed descriptor → ∃ message,
      storedField artifact data base descriptor = .error (valueError message)) := by
  obtain ⟨display, hdisplay, htext⟩ := displayOf_of_isShown ((showable_iff hcomputed).1 hshow)
  have hwritable : Writable data base computed descriptor ↔
      (valueOf data base descriptor).isFinite = true := by
    rw [isFinite_valueOf_iff, Writable, hcomputed, if_neg Bool.false_ne_true]
  rw [storedField_eq hbase hchecks (hchecks.stored hcomputed), hdisplay, ok_bind, hwritable]
  constructor
  · intro hfinite
    exact schemaField_of_isFinite hfinite hchecks.annotations_finite htext
      hchecks.description_stripped
  · intro hfinite
    exact schemaField_of_not_isFinite (by simpa using hfinite)

/-- The outcome for a computed field : a field if a value is given that can be written. -/
theorem computedField_spec (hchecks : DescriptorChecks recordSize descriptor)
    (hcomputed : isComputed descriptor = true) :
    (Writable data base computed descriptor → ∃ field,
      computedField recordId computed descriptor (textAt descriptor "id") = .ok field ∧
        computed.lookup (textAt descriptor "id") = some (some field.value) ∧ field.spans = []) ∧
    (¬Writable data base computed descriptor → ∃ message,
      computedField recordId computed descriptor (textAt descriptor "id") =
        .error (valueError message)) := by
  simp only [Writable, hcomputed, if_true, computedField]
  constructor
  · rintro ⟨value, hlookup, hfinite⟩
    rw [hlookup]
    dsimp only
    rw [item_eq_ok hchecks.description_eq, ok_bind, argumentOf]
    obtain ⟨field, hfield, hvalue, hspans⟩ :=
      schemaField_of_isFinite hfinite hchecks.annotations_finite (.inl rfl)
        hchecks.description_stripped
    exact ⟨field, hfield, by rw [hvalue], hspans⟩
  · intro hnot
    cases hlookup : computed.lookup (textAt descriptor "id") with
    | none => exact ⟨_, rfl⟩
    | some value =>
      dsimp only
      rw [item_eq_ok hchecks.description_eq, ok_bind, argumentOf]
      cases value with
      | none => exact ⟨_, rfl⟩
      | some value =>
        refine schemaField_of_not_isFinite ?_
        by_contra hfinite
        exact hnot ⟨value, hlookup, by simpa using hfinite⟩

theorem decodeField_eq (hchecks : DescriptorChecks recordSize descriptor) :
    decodeField recordId artifact data base computed descriptor =
      (if isComputed descriptor then do
        let field ← computedField recordId computed descriptor (textAt descriptor "id")
        .ok (textAt descriptor "id", field)
      else do
        let field ← storedField artifact data base descriptor
        .ok (textAt descriptor "id", field)) := by
  rw [decodeField, item_eq_ok hchecks.id_eq]
  rfl

section Classified

variable (recordId artifact computed)

/-- A field that cannot be shown is the one that raises a `TypeError`. -/
theorem decodeField_of_not_showable (hbase : 0 ≤ base)
    (hchecks : DescriptorChecks recordSize descriptor) (h : ¬Showable data base descriptor) :
    ∃ message, decodeField recordId artifact data base computed descriptor =
      .error (typeError message) := by
  have hcomputed : isComputed descriptor = false := by
    by_contra hnot
    exact h fun hfalse => absurd hfalse hnot
  have hnot := mt (showable_iff hcomputed).2 h
  rw [Classical.not_imp, Bool.not_eq_true] at hnot
  obtain ⟨message, hmessage⟩ := displayOf_of_not_isShown hnot.1 hnot.2
  refine ⟨message, ?_⟩
  rw [decodeField_eq hchecks, hcomputed, if_neg Bool.false_ne_true,
    storedField_eq hbase hchecks (hchecks.stored hcomputed), hmessage]
  rfl

theorem decodeField_of_not_writable (hbase : 0 ≤ base)
    (hchecks : DescriptorChecks recordSize descriptor) (hshow : Showable data base descriptor)
    (h : ¬Writable data base computed descriptor) :
    ∃ message, decodeField recordId artifact data base computed descriptor =
      .error (valueError message) := by
  rw [decodeField_eq hchecks]
  split_ifs with hcomputed
  · obtain ⟨message, hmessage⟩ := (computedField_spec hchecks hcomputed).2 h
    exact ⟨message, by rw [hmessage]; rfl⟩
  · obtain ⟨message, hmessage⟩ := (storedField_of_showable hbase hchecks
      (by simpa using hcomputed) hshow).2 h
    exact ⟨message, by rw [hmessage]; rfl⟩

theorem decodeField_of_writable (hbase : 0 ≤ base)
    (hdata : base + recordSize ≤ data.length)
    (hchecks : DescriptorChecks recordSize descriptor) (hshow : Showable data base descriptor)
    (h : Writable data base computed descriptor) :
    ∃ field, decodeField recordId artifact data base computed descriptor = .ok field ∧
      IsField artifact data base computed descriptor field := by
  rw [decodeField_eq hchecks]
  unfold IsField
  split_ifs with hcomputed
  · obtain ⟨field, hfield, hvalue, hspans⟩ := (computedField_spec hchecks hcomputed).1 h
    exact ⟨(textAt descriptor "id", field), by rw [hfield]; rfl, hchecks.id_eq, hvalue, hspans⟩
  · have hnot : isComputed descriptor = false := by simpa using hcomputed
    obtain ⟨field, hfield, hvalue, hspans⟩ :=
      (storedField_of_showable hbase hchecks hnot hshow).1 h
    have hstored := hchecks.stored hnot
    have hlength : (bytesOf data base descriptor).length = naturalAt descriptor "size" := by
      have := hstored.inside
      rw [bytesOf, List.length_take, List.length_drop]
      omega
    refine ⟨(textAt descriptor "id", field), by rw [hfield]; rfl, hchecks.id_eq, hspans,
      decodedOf data base descriptor, encodes_decodeBytes hstored.known ?_, ?_⟩
    · intro expected hexpected
      rw [hlength]
      exact hstored.encodingSize expected hexpected
    · rw [hvalue]
      rfl

end Classified

/-- A field is decoded only if it has a value that can be shown and written. -/
theorem decodeField_eq_ok {field : String × ArtifactField} (hbase : 0 ≤ base)
    (hchecks : DescriptorChecks recordSize descriptor)
    (h : decodeField recordId artifact data base computed descriptor = .ok field) :
    Showable data base descriptor ∧ Writable data base computed descriptor := by
  have hshow : Showable data base descriptor := by
    by_contra hnot
    obtain ⟨message, hmessage⟩ :=
      decodeField_of_not_showable recordId artifact computed hbase hchecks hnot
    rw [hmessage] at h
    cases h
  refine ⟨hshow, ?_⟩
  by_contra hnot
  obtain ⟨message, hmessage⟩ :=
    decodeField_of_not_writable recordId artifact computed hbase hchecks hshow hnot
  rw [hmessage] at h
  cases h

end Outcomes

/-! ## A record -/

section Lists

variable {α β : Type} {f : α → Except SchemaError β}

/-- The first element that fails. -/
theorem split_of_mapM_error {error : SchemaError} : ∀ {items : List α},
    items.mapM f = .error error → ∃ before item after, items = before ++ item :: after ∧
      (∀ earlier ∈ before, ∃ value, f earlier = .ok value) ∧ f item = .error error
  | [], h => by
    rw [List.mapM_nil] at h
    cases h
  | first :: items, h => by
    rw [List.mapM_cons] at h
    cases hfirst : f first with
    | error error' =>
      rw [hfirst] at h
      obtain rfl := Except.error.inj h
      exact ⟨[], first, items, rfl, by simp, hfirst⟩
    | ok value =>
      rw [hfirst, ok_bind] at h
      cases hrest : items.mapM f with
      | error error' =>
        rw [hrest] at h
        obtain rfl := Except.error.inj h
        obtain ⟨before, item, after, rfl, hbefore, hitem⟩ := split_of_mapM_error hrest
        refine ⟨first :: before, item, after, rfl, fun earlier hearlier => ?_, hitem⟩
        rcases List.mem_cons.1 hearlier with rfl | hearlier
        · exact ⟨value, hfirst⟩
        · exact hbefore earlier hearlier
      | ok values =>
        rw [hrest] at h
        cases h

theorem exists_mapM_forall₂ {R : α → β → Prop} : ∀ {items : List α},
    (∀ item ∈ items, ∃ value, f item = .ok value ∧ R item value) →
      ∃ values, items.mapM f = .ok values ∧ List.Forall₂ R items values
  | [], _ => ⟨[], rfl, .nil⟩
  | first :: items, h => by
    obtain ⟨value, hvalue, hR⟩ := h first (by simp)
    obtain ⟨values, hvalues, hforall⟩ := exists_mapM_forall₂
      fun item hitem => h item (List.mem_cons_of_mem _ hitem)
    refine ⟨value :: values, ?_, .cons hR hforall⟩
    rw [List.mapM_cons, hvalue, ok_bind, hvalues]
    rfl

end Lists

section Record

variable {repr : Json → String} {schema record : Json} {recordId : String} {artifact : Artifact}
  {data : List UInt8} {base : ℤ} {computed : List (String × Option Json)}

section Steps

variable (repr computed)

/-- The steps of the decoding of a record that lies in the data. -/
theorem decodeRecordFields_of_recordFits
    (hrecord : (schema.get? "records").bind (fun records => records.get? recordId) = some record)
    (hchecks : RecordChecks record) (hfits : RecordFits artifact data base record) :
    decodeRecordFields repr recordId artifact data base computed schema = (do
      let result ← (itemsAt record "fields").mapM (decodeField recordId artifact data base computed)
      let extra := (computed.map Prod.fst).filter
        fun id => id ∉ computedIds (itemsAt record "fields")
      let shownExtra := sortedText repr extra
      refuseIf (extra ≠ []) (valueError s!"unused computed fields for {recordId}: {shownExtra}")
      .ok result) := by
  obtain ⟨hbase, hdata, hartifact⟩ := hfits
  have hinside : ¬((data.length : ℤ) < base ∨ (data.length : ℤ) - base < naturalAt record "size" ∨
      (artifact.size : ℤ) < base + naturalAt record "size") := by omega
  rw [decodeRecordFields, findRecord]
  simp only [hrecord, ok_bind, integerItem, item_eq_ok hchecks.size_eq,
    item_eq_ok hchecks.fields_eq, refuseIf_of_not _ (not_lt.2 hbase), refuseIf_of_not _ hinside,
    listItems]

theorem decodeRecordFields_of_not_recordFits
    (hrecord : (schema.get? "records").bind (fun records => records.get? recordId) = some record)
    (hchecks : RecordChecks record) (hfits : ¬RecordFits artifact data base record) :
    ∃ message, decodeRecordFields repr recordId artifact data base computed schema =
      .error (valueError message) := by
  rw [decodeRecordFields, findRecord]
  simp only [hrecord, ok_bind, integerItem, item_eq_ok hchecks.size_eq]
  by_cases hbase : base < 0
  · rw [refuseIf_of _ hbase]
    exact ⟨_, rfl⟩
  · have houtside : (data.length : ℤ) < base ∨
        (data.length : ℤ) - base < naturalAt record "size" ∨
          (artifact.size : ℤ) < base + naturalAt record "size" := by
      by_contra hnot
      exact hfits ⟨by omega, by omega, by omega⟩
    rw [refuseIf_of_not _ hbase, ok_bind, refuseIf_of _ houtside]
    exact ⟨_, rfl⟩

end Steps

/-- Computed fields that all have a value leave only values for other ids unused. -/
theorem computedFits_iff (hchecks : RecordChecks record)
    (hwritable : ∀ descriptor ∈ itemsAt record "fields", Writable data base computed descriptor) :
    ComputedFits computed record ↔ (computed.map Prod.fst).filter
      (fun id => id ∉ computedIds (itemsAt record "fields")) = [] := by
  have hgiven : ∀ id ∈ computedIds (itemsAt record "fields"), id ∈ computed.map Prod.fst := by
    intro id hid
    obtain ⟨descriptor, hdescriptor, htext⟩ := List.mem_filterMap.1 hid
    obtain ⟨hmem, hcomputed⟩ := List.mem_filter.1 hdescriptor
    have hlookup := hwritable descriptor hmem
    rw [Writable, if_pos hcomputed] at hlookup
    obtain ⟨value, hvalue, -⟩ := hlookup
    obtain rfl : textAt descriptor "id" = id := by
      simpa [(hchecks.descriptors descriptor hmem).id_eq] using htext
    obtain ⟨before, after, rfl, -⟩ := List.lookup_eq_some_iff.1 hvalue
    simp
  simp only [ComputedFits, List.filter_eq_nil_iff, decide_not, Bool.not_eq_true',
    decide_eq_false_iff_not, not_not]
  exact ⟨fun h id hid => (h id).1 hid, fun h id => ⟨h id, hgiven id⟩⟩

/-- The promise is kept in two cases : the record does not fit, or it is consistent. -/
theorem decodesRecord_of_consistent
    (hrecord : (schema.get? "records").bind (fun records => records.get? recordId) = some record)
    (hchecks : RecordChecks record) (hfits : RecordFits artifact data base record)
    (hconsistent : Consistent data base computed record) :
    DecodesRecord artifact data base computed repr schema recordId record := by
  have hbase := hfits.base_nonneg
  have hrun := decodeRecordFields_of_recordFits repr computed hrecord hchecks hfits
  have hshow : (∀ descriptor ∈ itemsAt record "fields", Writable data base computed descriptor) →
      ∀ descriptor ∈ itemsAt record "fields", Showable data base descriptor := by
    intro hwritable descriptor hdescriptor
    obtain ⟨before, after, hsplit⟩ := List.append_of_mem hdescriptor
    refine hconsistent.showable before descriptor after hsplit fun earlier hearlier => ?_
    exact hwritable earlier (by rw [hsplit]; exact List.mem_append_left _ hearlier)
  refine ⟨fun _ hcomputed => ?_, fun error herror => ?_⟩
  · have hwritable := hconsistent.writable hcomputed
    obtain ⟨fields, hfields, hforall⟩ := exists_mapM_forall₂ fun descriptor hdescriptor =>
      decodeField_of_writable recordId artifact computed hbase hfits.data_le
        (hchecks.descriptors descriptor hdescriptor) (hshow hwritable descriptor hdescriptor)
        (hwritable descriptor hdescriptor)
    refine ⟨fields, ?_, hforall⟩
    have hextra := (computedFits_iff hchecks hwritable).1 hcomputed
    rw [hrun, hfields, ok_bind]
    dsimp only
    rw [refuseIf_of_not _ (not_not.2 hextra), ok_bind]
  · rw [hrun] at herror
    cases hmap : (itemsAt record "fields").mapM
        (decodeField recordId artifact data base computed) with
    | error error' =>
      rw [hmap] at herror
      obtain rfl := Except.error.inj herror
      obtain ⟨before, descriptor, after, hsplit, hbefore, hfails⟩ := split_of_mapM_error hmap
      have hmem : ∀ earlier ∈ before, earlier ∈ itemsAt record "fields" := by
        intro earlier hearlier
        rw [hsplit]
        exact List.mem_append_left _ hearlier
      have hmemDescriptor : descriptor ∈ itemsAt record "fields" := by simp [hsplit]
      have hdescriptor := hchecks.descriptors descriptor hmemDescriptor
      have hshown : Showable data base descriptor := by
        refine hconsistent.showable before descriptor after hsplit fun earlier hearlier => ?_
        obtain ⟨field, hfield⟩ := hbefore earlier hearlier
        exact (decodeField_eq_ok hbase (hchecks.descriptors earlier (hmem earlier hearlier))
          hfield).2
      by_cases hwritable : Writable data base computed descriptor
      · obtain ⟨field, hfield, -⟩ := decodeField_of_writable recordId artifact
          computed hbase hfits.data_le hdescriptor hshown hwritable
        rw [hfield] at hfails
        cases hfails
      · obtain ⟨message, hmessage⟩ := decodeField_of_not_writable recordId artifact
          computed hbase hdescriptor hshown hwritable
        rw [hmessage] at hfails
        obtain rfl := Except.error.inj hfails
        exact ⟨⟨message, rfl⟩,
          fun hboth => hwritable (hconsistent.writable hboth.2 descriptor hmemDescriptor)⟩
    | ok fields =>
      rw [hmap, ok_bind] at herror
      dsimp only at herror
      have hwritable : ∀ descriptor ∈ itemsAt record "fields",
          Writable data base computed descriptor := by
        intro descriptor hdescriptor
        obtain ⟨field, -, hfield⟩ := exists_of_forall₂ (mapM_eq_ok_iff.1 hmap) hdescriptor
        exact (decodeField_eq_ok hbase (hchecks.descriptors descriptor hdescriptor) hfield).2
      by_cases hextra : (computed.map Prod.fst).filter
          (fun id => id ∉ computedIds (itemsAt record "fields")) = []
      · rw [refuseIf_of_not _ (not_not.2 hextra)] at herror
        cases herror
      · rw [refuseIf_of _ hextra] at herror
        obtain rfl := Except.error.inj herror
        exact ⟨⟨_, rfl⟩, fun hboth => hextra ((computedFits_iff hchecks hwritable).1 hboth.2)⟩

/-- A record that fits and is decoded as promised is consistent. -/
theorem consistent_of_decodesRecord
    (hrecord : (schema.get? "records").bind (fun records => records.get? recordId) = some record)
    (hchecks : RecordChecks record) (hfits : RecordFits artifact data base record)
    (hdecodes : DecodesRecord artifact data base computed repr schema recordId record) :
    Consistent data base computed record := by
  have hbase := hfits.base_nonneg
  have hrun := decodeRecordFields_of_recordFits repr computed hrecord hchecks hfits
  have hsettled : ∀ {fields : List (String × ArtifactField)}, (itemsAt record "fields").mapM
      (decodeField recordId artifact data base computed) = .ok fields →
        ∀ descriptor ∈ itemsAt record "fields",
          Showable data base descriptor ∧ Writable data base computed descriptor := by
    intro fields hmap descriptor hdescriptor
    obtain ⟨field, -, hfield⟩ := exists_of_forall₂ (mapM_eq_ok_iff.1 hmap) hdescriptor
    exact decodeField_eq_ok hbase (hchecks.descriptors descriptor hdescriptor) hfield
  refine ⟨fun before descriptor after hsplit hbefore => ?_, fun hcomputed => ?_⟩
  · cases hmap : (itemsAt record "fields").mapM
        (decodeField recordId artifact data base computed) with
    | ok fields => exact (hsettled hmap descriptor (by simp [hsplit])).1
    | error error =>
      obtain ⟨before', failed, after', hsplit', hbefore', hfails⟩ := split_of_mapM_error hmap
      have herror : decodeRecordFields repr recordId artifact data base computed schema =
          .error error := by
        rw [hrun, hmap]
        rfl
      obtain ⟨⟨message, rfl⟩, -⟩ := hdecodes.raises error herror
      have hchecksFailed := hchecks.descriptors failed (by simp [hsplit'])
      have hshown : Showable data base failed := by
        by_contra hnot
        obtain ⟨message', hmessage⟩ := decodeField_of_not_showable recordId artifact
          computed hbase hchecksFailed hnot
        rw [hmessage] at hfails
        simp [valueError, typeError] at hfails
      -- the field that fails comes after the ones before, whose values can be written
      rcases List.append_eq_append_iff.1 (hsplit.symm.trans hsplit') with
        ⟨middle, rfl, hrest⟩ | ⟨middle, rfl, hrest⟩
      · cases middle with
        | nil =>
          obtain ⟨rfl, -⟩ := List.cons.inj hrest
          exact hshown
        | cons first middle =>
          obtain ⟨rfl, -⟩ := List.cons.inj hrest
          obtain ⟨field, hfield⟩ := hbefore' descriptor (by simp)
          exact (decodeField_eq_ok hbase (hchecks.descriptors descriptor (by simp [hsplit]))
            hfield).1
      · cases middle with
        | nil =>
          obtain ⟨rfl, -⟩ := List.cons.inj hrest
          exact hshown
        | cons first middle =>
          obtain ⟨rfl, -⟩ := List.cons.inj hrest
          have hwritable := hbefore failed (by simp)
          obtain ⟨field, hfield, -⟩ := decodeField_of_writable recordId artifact
            computed hbase hfits.data_le hchecksFailed hshown hwritable
          rw [hfield] at hfails
          cases hfails
  · obtain ⟨fields, hfields, -⟩ := hdecodes.decodes hfits hcomputed
    rw [hrun] at hfields
    obtain ⟨result, hmap, -⟩ := bind_eq_ok_iff.1 hfields
    exact fun descriptor hdescriptor => (hsettled hmap descriptor hdescriptor).2

/-- On an accepted schema the decoding keeps its promise if and only if the record, where it
lies in the data, is consistent. -/
theorem decodesRecord_iff (repr : Json → String) (schema : Json)
    (h : validateSchema repr schema = .ok ()) (recordId : String) (record : Json)
    (hrecord : (schema.get? "records").bind (fun records => records.get? recordId) = some record)
    (artifact : Artifact) (data : List UInt8) (base : ℤ)
    (computed : List (String × Option Json)) :
    DecodesRecord artifact data base computed repr schema recordId record ↔
      (RecordFits artifact data base record → Consistent data base computed record) := by
  have hchecks := recordChecks_of_validateSchema h hrecord
  constructor
  · intro hdecodes hfits
    exact consistent_of_decodesRecord hrecord hchecks hfits hdecodes
  · intro hconsistent
    by_cases hfits : RecordFits artifact data base record
    · exact decodesRecord_of_consistent hrecord hchecks hfits (hconsistent hfits)
    · obtain ⟨message, hmessage⟩ := decodeRecordFields_of_not_recordFits repr
        computed hrecord hchecks hfits
      refine ⟨fun hfits' => absurd hfits' hfits, fun error herror => ?_⟩
      obtain rfl := Except.error.inj (hmessage.symm.trans herror)
      exact ⟨⟨message, rfl⟩, fun hboth => hfits hboth.1⟩

end Record

/-! ## A schema that is accepted -/

/-- The record of one byte, under an encoding and a display. -/
def byteRecord (encoding display : String) : Json :=
  .object [("size", .number 1), ("fields", .array [.object [("id", .string "tag"),
    ("description", .string "Tag"), ("offset", .number 0), ("size", .number 1),
    ("encoding", .string encoding), ("display", .string display)]])]

/-- A schema with this record. -/
def byteSchema (encoding display : String) : Json :=
  .object [("format", .string "npunlock.viz-schema"), ("version", .number 1),
    ("id", .string "example"), ("nodes", .object []),
    ("records", .object [("byte", byteRecord encoding display)])]

def byteArtifact : Artifact where
  id := "example"
  name := "example"
  mediaType := "application/octet-stream"
  size := 1

/-- The descriptor of a stored field. -/
def packetField (id : String) (offset size : ℤ) (encoding : String)
    (others : List (String × Json)) : Json :=
  .object ([("id", .string id), ("description", .string id), ("offset", .number offset),
    ("size", .number size), ("encoding", .string encoding)] ++ others)

/-- A number, a byte with a value map, a signed number and a computed field. -/
def packetFields : List Json :=
  [packetField "length" 0 2 "u16le" [("display", .string "hex")],
    packetField "kind" 2 1 "u8" [("value_map", .object [("7", .string "data")])],
    packetField "delta" 3 4 "i32le" [("display", .string "hex-nonnegative")],
    .object [("id", .string "total"), ("description", .string "total"),
      ("computed", .boolean true)]]

def packetRecord : Json :=
  .object [("size", .number 7), ("fields", .array packetFields)]

def packetSchema : Json :=
  .object [("format", .string "npunlock.viz-schema"), ("version", .number 1),
    ("id", .string "example"), ("nodes", .object []),
    ("records", .object [("packet", packetRecord)])]

def packetArtifact : Artifact :=
  { byteArtifact with size := 8 }

/-- A packet behind a byte. -/
def packetData : List UInt8 :=
  [0, 0x34, 0x12, 7, 0xfe, 0xff, 0xff, 0xff]

def packetComputed : List (String × Option Json) :=
  [("total", some (.number 9))]

theorem consistent_packetRecord : Consistent packetData 1 packetComputed packetRecord := by
  have hentries : packetFields.map (fun field => mapEntry field (bytesOf packetData 1 field)) =
      [none, some (.string "data"), none, none] :=
    rfl
  simp only [packetFields, List.map_cons, List.map_nil, List.cons.injEq, and_true] at hentries
  obtain ⟨hlength, hkind, hdelta, -⟩ := hentries
  have hshowable : ∀ field ∈ packetFields, Showable packetData 1 field := by
    simp only [packetFields, List.forall_mem_cons]
    refine ⟨fun _ _ => ?_, fun _ hdisplay => ?_, fun _ _ => ?_, fun hcomputed => ?_,
      List.forall_mem_nil _⟩
    · rw [hlength]
      decide +kernel
    · exact absurd hdisplay (by decide +kernel)
    · rw [hdelta]
      decide +kernel
    · exact absurd hcomputed (by decide +kernel)
  refine ⟨fun before field after hsplit _ => hshowable field ?_, fun _ => ?_⟩
  · rw [show packetFields = _ from hsplit]
    simp
  · change ∀ field ∈ packetFields, Writable packetData 1 packetComputed field
    simp only [packetFields, List.forall_mem_cons]
    refine ⟨?_, ?_, ?_, ?_, List.forall_mem_nil _⟩
    · rw [Writable, if_neg (by decide +kernel), hlength]
      rintro _ ⟨⟩
    · rw [Writable, if_neg (by decide +kernel), hkind]
      rintro _ ⟨⟩
      rfl
    · rw [Writable, if_neg (by decide +kernel), hdelta]
      rintro _ ⟨⟩
    · rw [Writable, if_pos (by decide +kernel)]
      exact ⟨.number 9, rfl, rfl⟩

/-- The packet is decoded. -/
theorem decodesRecord_packetSchema :
    DecodesRecord packetArtifact packetData 1 packetComputed (fun _ => "") packetSchema "packet"
        packetRecord ∧
      (decodeRecordFields (fun _ => "") "packet" packetArtifact packetData 1 packetComputed
        packetSchema).toOption.map (·.map fun field => (field.1, field.2.value)) =
          some [("length", .number 0x1234), ("kind", .string "data"), ("delta", .number (-2)),
            ("total", .number 9)] := by
  refine ⟨?_, rfl⟩
  exact (decodesRecord_iff (fun _ => "") packetSchema (by decide +kernel) "packet" packetRecord
    rfl packetArtifact packetData 1 packetComputed).2 fun _ => consistent_packetRecord

/-- The text of bytes has no hexadecimal display. -/
theorem hexText_not_decoded :
    ¬∀ (repr : Json → String) (schema : Json) (recordId : String) (record : Json)
      (artifact : Artifact) (data : List UInt8) (base : ℤ)
      (computed : List (String × Option Json)), validateSchema repr schema = .ok () →
        (schema.get? "records").bind (fun records => records.get? recordId) = some record →
          DecodesRecord artifact data base computed repr schema recordId record := by
  intro h
  have hdecodes := h (fun _ => "") (byteSchema "bytes-hex" "hex") "byte"
    (byteRecord "bytes-hex" "hex") byteArtifact [42] 0 [] (by decide +kernel) rfl
  have herror : decodeRecordFields (fun _ => "") "byte" byteArtifact [42] 0 []
      (byteSchema "bytes-hex" "hex") =
        .error (typeError "'str' object cannot be interpreted as an integer") := rfl
  obtain ⟨⟨message, hmessage⟩, -⟩ := hdecodes.raises _ herror
  simp [valueError, typeError] at hmessage

end Npunlock.RecordSchema
