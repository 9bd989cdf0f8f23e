import Mathlib.Data.List.Sort
import Mathlib.Data.Nat.Digits.Defs
import Npunlock.ArtifactGraph
import Npunlock.Artifacts

/-!
# Record schemas

`_schema.py` of the visualiser : the JSON descriptors of binary records, their validation
(`validateSchema`), and the decoding of the bytes of a record into fields
(`decodeRecordFields`).

The schema is any JSON value. `repr` stands for the text Python's `repr` gives for a value
in a message. A `float` is known by the text `repr` gives for it.
-/

namespace Npunlock.RecordSchema

open ArtifactGraph (FieldArguments)

/-- What the functions raise : an exception of the model's checks, or a `KeyError`. -/
inductive SchemaError
  | raised (error : ArtifactError)
  | key (name : String)
  deriving DecidableEq

def valueError (message : String) : SchemaError :=
  .raised (.value message)

def typeError (message : String) : SchemaError :=
  .raised (.type message)

/-! ## JSON values as Python has them -/

/-- `dict.get(key)`. -/
def entry (fields : List (String × Json)) (key : String) : Json :=
  (fields.lookup key).getD .null

/-- `type(value).__name__`. -/
def typeName : Json → String
  | .null => "NoneType"
  | .boolean _ => "bool"
  | .number _ => "int"
  | .float _ => "float"
  | .string _ => "str"
  | .array _ => "list"
  | .object _ => "dict"

/-- `value == 1`. -/
def isOne : Json → Bool
  | .number value => value == 1
  | .boolean value => value
  | .float text => text == "1.0"
  | .null | .string _ | .array _ | .object _ => false

/-- `value == text`. -/
def isText (value : Json) (text : String) : Bool :=
  match value with
  | .string value => value == text
  | .null | .boolean _ | .number _ | .float _ | .array _ | .object _ => false

/-- `value in choices`, which hashes the value. -/
def isMember (value : Json) (choices : List String) : Except SchemaError Bool :=
  match value with
  | .string text => .ok (text ∈ choices)
  | .array _ => .error (typeError "unhashable type: 'list'")
  | .object _ => .error (typeError "unhashable type: 'dict'")
  | .null | .boolean _ | .number _ | .float _ => .ok false

/-- The truth value of a JSON value. -/
def isTrue : Json → Bool
  | .null => false
  | .boolean value => value
  | .number value => value != 0
  | .float text => text != "0.0" && text != "-0.0"
  | .string text => text != ""
  | .array items => !items.isEmpty
  | .object fields => !fields.isEmpty

/-- `set(fields) - allowed`. -/
def unknownKeys (fields : List (String × Json)) (allowed : List String) : List String :=
  (fields.map Prod.fst).filter fun key => key ∉ allowed

/-- `names & set(fields)`. -/
def presentKeys (fields : List (String × Json)) (names : List String) : List String :=
  names.filter fun key => key ∈ fields.map Prod.fst

/-- The text of `sorted(keys)` in a message. -/
def sortedText (repr : Json → String) (keys : List String) : String :=
  repr (.array (keys.mergeSort.map .string))

/-! ## Validation -/

/-- `_text`. -/
def schemaText (value : Json) (what : String) : Except SchemaError String :=
  match value with
  | .string text => do
    refuseIf (isStripped text = false)
      (valueError s!"{what} must be a non-empty string without surrounding whitespace")
    .ok text
  | .null | .boolean _ | .number _ | .float _ | .array _ | .object _ =>
    .error (valueError s!"{what} must be a non-empty string without surrounding whitespace")

/-- `_ENCODING_SIZES`. -/
def encodingSizes : List (String × ℤ) :=
  [("u8", 1), ("u16le", 2), ("u32le", 4), ("i32le", 4), ("u64le", 8), ("i64le", 8),
    ("u64le-hi32", 8), ("u64le-lo32", 8)]

/-- `_VARIABLE_SIZE_ENCODINGS`. -/
def variableSizeEncodings : List String :=
  ["bytes-hex"]

/-- `_DISPLAYS`, other than `None`. -/
def displays : List String :=
  ["hex", "hex-nonnegative"]

/-- `_ROOT_KEYS`. -/
def rootKeys : List String :=
  ["format", "version", "id", "nodes", "links", "records", "lookups", "rules"]

/-- The keys a field descriptor may have. -/
def fieldKeys : List String :=
  ["id", "computed", "offset", "size", "encoding", "display", "description", "value_map",
    "confidence", "scope", "relevance"]

/-- A value that is `None` or one of the choices. -/
def optionalMember (value : Json) (choices : List String) (message : String) :
    Except SchemaError Unit :=
  match value with
  | .null => .ok ()
  | value => do
    let known ← isMember value choices
    refuseIf (known = false) (valueError message)

/-- The check of `scope`, if the key is there. -/
def optionalScope (fields : List (String × Json)) (what : String) : Except SchemaError Unit :=
  match fields.lookup "scope" with
  | none => .ok ()
  | some value => do
    let _ ← schemaText value what
    .ok ()

section Validation

variable (repr : Json → String)

/-- One round of the loop over `nodes`. -/
def validateNode (node : String × Json) : Except SchemaError Unit := do
  let id ← schemaText (.string node.1) "node descriptor id"
  let shown := repr (.string id)
  refuseIf (¬node.2.HasKeys ["kind", "category", "description"])
    (valueError s!"node descriptor {shown} must contain kind, category, and description")
  ["kind", "category", "description"].forM fun key => do
    let _ ← schemaText ((node.2.get? key).getD .null) s!"node descriptor {shown} {key}"
    .ok ()

/-- One round of the loop over `links`. -/
def validateLink (link : String × Json) : Except SchemaError Unit := do
  let id ← schemaText (.string link.1) "link descriptor id"
  let shown := repr (.string id)
  match link.2 with
  | .object fields => do
    refuseIf (unknownKeys fields ["description", "confidence", "scope"] ≠ [])
      (valueError s!"link descriptor {shown} has unsupported keys")
    let _ ← schemaText (entry fields "description") s!"link descriptor {shown} description"
    let confidence := entry fields "confidence"
    let shownConfidence := repr confidence
    optionalMember confidence confidenceValues
      s!"link descriptor {shown} has unsupported confidence {shownConfidence}"
    optionalScope fields s!"link descriptor {shown} scope"
  | _ => .error (valueError s!"link descriptor {shown} has unsupported keys")

/-- The size of the encoding is not the size of the field. -/
def sizeDiffers (encoding : Json) (size : ℤ) : Bool :=
  match encoding with
  | .string text => (encodingSizes.lookup text).any fun expected => expected != size
  | _ => false

/-- The checks of a field that is read from the bytes. -/
def validateStored (name : String) (recordSize : ℤ) (fields : List (String × Json)) :
    Except SchemaError Unit := do
  refuseIf (presentKeys fields ["offset", "size", "encoding"] ≠ ["offset", "size", "encoding"])
    (valueError s!"field {name} requires offset, size, and encoding")
  match entry fields "offset", entry fields "size" with
  | .number offset, .number size => do
    refuseIf (offset < 0 ∨ size ≤ 0 ∨ recordSize < offset ∨ recordSize - offset < size)
      (valueError s!"field {name} is outside its record")
    let encoding := entry fields "encoding"
    let known ← isMember encoding (encodingSizes.map Prod.fst ++ variableSizeEncodings)
    refuseIf (known = false) (valueError s!"field {name} uses an unknown encoding")
    refuseIf (sizeDiffers encoding size = true)
      (valueError s!"field {name} encoding does not match its size")
    optionalMember (entry fields "display") displays s!"field {name} has unsupported display"
    match entry fields "value_map" with
    | .null | .object _ => .ok ()
    | _ => .error (valueError s!"field {name} value_map must be an object with string keys")
  | _, _ => .error (valueError s!"field {name} offset and size must be integers")

/-- The checks of `description`, `confidence`, `scope` and `relevance`. -/
def validateAnnotations (name : String) (fields : List (String × Json)) :
    Except SchemaError Unit := do
  let _ ← schemaText (entry fields "description") s!"field {name} description"
  let confidence := entry fields "confidence"
  let shownConfidence := repr confidence
  optionalMember confidence confidenceValues
    s!"field {name} has unsupported confidence {shownConfidence}"
  optionalScope fields s!"field {name} scope"
  let relevance := entry fields "relevance"
  let shownRelevance := repr relevance
  optionalMember relevance relevanceValues
    s!"field {name} has unsupported relevance {shownRelevance}"

/-- The checks that depend on `computed`. -/
def validateSource (name : String) (recordSize : ℤ) (fields : List (String × Json)) :
    Except SchemaError Unit :=
  match (fields.lookup "computed").getD (.boolean false) with
  | .boolean true => do
    let forbidden := presentKeys fields ["offset", "size", "encoding", "display", "value_map"]
    let shown := sortedText repr forbidden
    refuseIf (forbidden ≠ []) (valueError s!"computed field {name} cannot contain {shown}")
  | .boolean false => validateStored name recordSize fields
  | _ => .error (valueError s!"field {name} computed must be boolean")

/-- One round of the loop over the fields of a record. `seen` is `field_ids`. -/
def validateField (recordId : String) (recordSize : ℤ) (seen : List String) (field : Json) :
    Except SchemaError (List String) :=
  let shown := repr (.string recordId)
  match field with
  | .object fields => do
    let id ← schemaText (entry fields "id") s!"record descriptor {shown} field id"
    let shownId := repr (.string id)
    refuseIf (id ∈ seen) (valueError s!"record descriptor {shown} has duplicate field {shownId}")
    let name := s!"{recordId}.{id}"
    let extra := unknownKeys fields fieldKeys
    let shownExtra := sortedText repr extra
    refuseIf (extra ≠ []) (valueError s!"field {name} has unknown keys: {shownExtra}")
    validateAnnotations repr name fields
    validateSource repr name recordSize fields
    .ok (seen ++ [id])
  | _ => .error (valueError s!"record descriptor {shown} field must be an object")

/-- The checks of the size and the fields of a record. -/
def validateFields (recordId : String) (record : Json) : Except SchemaError Unit :=
  let shown := repr (.string recordId)
  match (record.get? "size").getD .null with
  | .number size => do
    refuseIf (size ≤ 0)
      (valueError s!"record descriptor {shown} size must be a positive integer")
    match (record.get? "fields").getD .null with
    | .array fields => do
      refuseIf (fields.isEmpty = true)
        (valueError s!"record descriptor {shown} fields must be a non-empty array")
      let _ ← fields.foldlM (validateField repr recordId size) []
      .ok ()
    | _ => .error (valueError s!"record descriptor {shown} fields must be a non-empty array")
  | _ => .error (valueError s!"record descriptor {shown} size must be a positive integer")

/-- One round of the loop over `records`. -/
def validateRecord (record : String × Json) : Except SchemaError Unit := do
  let id ← schemaText (.string record.1) "record descriptor id"
  let shown := repr (.string id)
  refuseIf (¬record.2.HasKeys ["size", "fields"])
    (valueError s!"record descriptor {shown} must contain size and fields")
  validateFields repr id record.2

/-- One matcher of a rule. -/
def validateMatcher (shown key : String) (value : Json) : Except SchemaError Unit :=
  match value with
  | .array (item :: items) =>
    (item :: items).forM fun item => do
      let _ ← schemaText item s!"schema rule {shown} {key} item"
      .ok ()
  | _ => .error (valueError s!"schema rule {shown} {key} must be a non-empty array")

/-- One entry of a rule. -/
def validateRule (shown : String) (rule : Json) : Except SchemaError Unit :=
  match rule with
  | .object fields => do
    refuseIf ("value" ∉ fields.map Prod.fst)
      (valueError s!"schema rule {shown} entries must be objects with a value")
    refuseIf (unknownKeys fields ["value", "equals", "prefixes", "contains"] ≠ [])
      (valueError s!"schema rule {shown} has unknown matcher keys")
    let _ ← schemaText (entry fields "value") s!"schema rule {shown} value"
    let keys := ["equals", "prefixes", "contains"].filter fun key => key ∈ fields.map Prod.fst
    keys.forM fun key => validateMatcher shown key (entry fields key)
    refuseIf (keys.length ≠ 1)
      (valueError s!"schema rule {shown} entry must use exactly one matcher")
  | _ => .error (valueError s!"schema rule {shown} entries must be objects with a value")

/-- One round of the loop over `rules`. -/
def validateRules (rules : String × Json) : Except SchemaError Unit := do
  let id ← schemaText (.string rules.1) "rule id"
  let shown := repr (.string id)
  match rules.2 with
  | .array values => values.forM (validateRule shown)
  | _ => .error (valueError s!"schema rule {shown} must be an array")

/-- The checks of `lookups` and `rules`. -/
def validateLookups (fields : List (String × Json)) : Except SchemaError Unit :=
  match (fields.lookup "lookups").getD (.object []), (fields.lookup "rules").getD (.object []) with
  | .object lookups, .object rules => do
    refuseIf ((Json.object lookups).isFinite = false)
      (valueError "Out of range float values are not JSON compliant")
    rules.forM (validateRules repr)
  | _, _ => .error (valueError "visualization schema lookups and rules must be objects")

/-- The checks of `nodes`, `links` and `records`. -/
def validateDescriptors (fields : List (String × Json)) : Except SchemaError Unit :=
  match entry fields "nodes", entry fields "records" with
  | .object nodes, .object records => do
    nodes.forM (validateNode repr)
    match (fields.lookup "links").getD (.object []) with
    | .object links => do
      links.forM (validateLink repr)
      records.forM (validateRecord repr)
    | _ => .error (valueError "visualization schema links must be an object")
  | _, _ => .error (valueError "visualization schema nodes and records must be objects")

/-- `validate_schema`. -/
def validateSchema (schema : Json) : Except SchemaError Unit :=
  match schema with
  | .object fields => do
    let unknown := unknownKeys fields rootKeys
    let shown := sortedText repr unknown
    refuseIf (unknown ≠ [])
      (valueError s!"visualization schema has unknown top-level keys: {shown}")
    refuseIf (isText (entry fields "format") "npunlock.viz-schema" = false ∨
        isOne (entry fields "version") = false)
      (valueError "unsupported visualization schema format or version")
    let _ ← schemaText (entry fields "id") "schema id"
    validateDescriptors repr fields
    validateLookups repr fields
  | _ => .error (valueError "visualization schema must be a JSON object")

end Validation

/-! ## Decoding -/

/-- `value[key]`. -/
def item (value : Json) (key : String) : Except SchemaError Json :=
  match value with
  | .object fields =>
    match fields.lookup key with
    | some value => .ok value
    | none => .error (.key key)
  | value =>
    let name := typeName value
    .error (typeError s!"'{name}' object is not subscriptable")

/-- `value[key]` where an integer is needed. -/
def integerItem (value : Json) (key : String) : Except SchemaError ℤ := do
  match ← item value key with
  | .number value => .ok value
  | other =>
    let name := typeName other
    .error (typeError s!"unsupported operand type: '{name}'")

/-- `bytes.hex(" ")`. -/
def spacedHex (bytes : List UInt8) : String :=
  " ".intercalate (bytes.map fun byte => String.ofList (hexByte byte))

/-- `int.from_bytes(bytes, "little", signed=False)`. -/
def unsignedBytes (bytes : List UInt8) : ℕ :=
  Nat.ofDigits 256 (bytes.map UInt8.toNat)

/-- `int.from_bytes(bytes, "little", signed=True)`. -/
def signedBytes (bytes : List UInt8) : ℤ :=
  let value := unsignedBytes bytes
  if 2 * value < 256 ^ bytes.length then value else value - 256 ^ bytes.length

/-- The value of the bytes under an encoding. -/
def decodeBytes (encoding : Json) (bytes : List UInt8) : Json :=
  if isText encoding "bytes-hex" then .string (spacedHex bytes)
  else if isText encoding "i32le" || isText encoding "i64le" then .number (signedBytes bytes)
  else if isText encoding "u64le-hi32" then .number (unsignedBytes bytes >>> 32 : ℕ)
  else if isText encoding "u64le-lo32" then .number (unsignedBytes bytes &&& 0xFFFFFFFF : ℕ)
  else .number (unsignedBytes bytes)

/-- `str(value)` of a decoded value. -/
def keyText : Json → String
  | .number value => toString value
  | .string text => text
  | .null | .boolean _ | .float _ | .array _ | .object _ => ""

/-- `value_map.get(str(value), value)`, if there is a map. -/
def mapValue (valueMap value : Json) : Json :=
  match valueMap with
  | .object entries => (entries.lookup (keyText value)).getD value
  | _ => value

/-- `hex` of an integer. -/
def hexInteger (value : ℤ) : String :=
  (if value < 0 then "-0x" else "0x") ++ String.ofList (Nat.toDigits 16 value.natAbs)

/-- `hex`. -/
def showHex (value : Json) : Except SchemaError String :=
  match value with
  | .number value => .ok (hexInteger value)
  | .boolean value => .ok (if value then "0x1" else "0x0")
  | value =>
    let name := typeName value
    .error (typeError s!"'{name}' object cannot be interpreted as an integer")

/-- A float that is not at least zero : a negative one, or NaN. -/
def isBelowZero (text : String) : Bool :=
  text == "nan" || text.toList.head? == some '-' && text != "-0.0"

/-- `hex(value) if value >= 0 else str(value)`. -/
def showNonnegative (value : Json) : Except SchemaError String :=
  match value with
  | .number value => .ok (if 0 ≤ value then hexInteger value else toString value)
  | .float text => if isBelowZero text then .ok text else showHex (.float text)
  | .boolean value => showHex (.boolean value)
  | value =>
    let name := typeName value
    .error (typeError s!"'>=' not supported between instances of '{name}' and 'int'")

/-- The text a field is shown as. -/
def displayOf (kind value : Json) : Except SchemaError Argument :=
  if isText kind "hex" then do
    let text ← showHex value
    .ok (.text text)
  else if isText kind "hex-nonnegative" then do
    let text ← showNonnegative value
    .ok (.text text)
  else .ok .none

/-- A JSON value given where a string is expected. -/
def argumentOf : Json → Argument
  | .null => .none
  | .string text => .text text
  | .boolean _ | .number _ | .float _ | .array _ | .object _ => .other ""

/-- The entries that `properties` takes over. -/
def annotationsOf (descriptor : Json) : List (String × Json) :=
  ["confidence", "scope", "relevance"].filterMap fun key =>
    (descriptor.get? key).map fun value => (key, value)

/-- The descriptor is one of a computed field. -/
def isComputed (descriptor : Json) : Bool :=
  isTrue ((descriptor.get? "computed").getD (.boolean false))

/-- `Field`, in the functions of the schema. -/
def schemaField (arguments : FieldArguments) : Except SchemaError ArtifactField :=
  (ArtifactGraph.makeField arguments).mapError .raised

/-- A field that is given. -/
def computedField (recordId : String) (computed : List (String × Option Json))
    (descriptor : Json) (id : String) : Except SchemaError ArtifactField :=
  match computed.lookup id with
  | none => .error (valueError s!"computed field {recordId}.{id} was not supplied")
  | some value => do
    let description ← item descriptor "description"
    schemaField
      { value
        description := argumentOf description
        properties := .entries (annotationsOf descriptor) }

/-- A field that is read from the bytes. -/
def storedField (artifact : Artifact) (data : List UInt8) (base : ℤ) (descriptor : Json) :
    Except SchemaError ArtifactField := do
  let offset ← integerItem descriptor "offset"
  let size ← integerItem descriptor "size"
  let start := (base + offset).toNat
  let stop := (base + offset + size).toNat
  let encoding ← item descriptor "encoding"
  let value := mapValue ((descriptor.get? "value_map").getD .null)
    (decodeBytes encoding ((data.take stop).drop start))
  let display ← displayOf ((descriptor.get? "display").getD .null) value
  let description ← item descriptor "description"
  schemaField
    { value := some value
      spans := [{ artifact := artifact.id, start, stop }]
      display
      description := argumentOf description
      properties := .entries (annotationsOf descriptor) }

section Decoding

variable (repr : Json → String) (recordId : String) (artifact : Artifact) (data : List UInt8)
  (base : ℤ) (computed : List (String × Option Json))

/-- One round of the loop of `decode_record_fields`. The ids in a validated record are
distinct, so the dictionary it fills has one entry for each descriptor. -/
def decodeField (descriptor : Json) : Except SchemaError (String × ArtifactField) := do
  match ← item descriptor "id" with
  | .string id =>
    if isComputed descriptor then do
      let field ← computedField recordId computed descriptor id
      .ok (id, field)
    else do
      let field ← storedField artifact data base descriptor
      .ok (id, field)
  | other =>
    let name := typeName other
    .error (typeError s!"unhashable type: '{name}'")

/-- The ids of the computed fields. -/
def computedIds (descriptors : List Json) : List String :=
  (descriptors.filter isComputed).filterMap fun descriptor =>
    (descriptor.get? "id").bind Json.string?

/-- `schema["records"][record_id]`. -/
def findRecord (schema : Json) : Except SchemaError Json :=
  let shown := repr (.string recordId)
  match (schema.get? "records").bind fun records => records.get? recordId with
  | some record => .ok record
  | none => .error (valueError s!"schema has no record descriptor {shown}")

/-- The elements of a list. -/
def listItems (value : Json) : Except SchemaError (List Json) :=
  match value with
  | .array items => .ok items
  | other =>
    let name := typeName other
    .error (typeError s!"'{name}' object is not iterable")

/-- `decode_record_fields`. A computed value that is no JSON value is `none`. -/
def decodeRecordFields (schema : Json) : Except SchemaError (List (String × ArtifactField)) := do
  let record ← findRecord repr recordId schema
  let size ← integerItem record "size"
  let shown := repr (.string artifact.id)
  refuseIf (base < 0) (valueError "record base must be a non-negative integer")
  refuseIf (data.length < base ∨ data.length - base < size ∨ artifact.size < base + size)
    (valueError s!"{recordId} record is outside artifact {shown}")
  let descriptors ← item record "fields"
  let descriptors ← listItems descriptors
  let result ← descriptors.mapM (decodeField recordId artifact data base computed)
  let extra := (computed.map Prod.fst).filter fun id => id ∉ computedIds descriptors
  let shownExtra := sortedText repr extra
  refuseIf (extra ≠ []) (valueError s!"unused computed fields for {recordId}: {shownExtra}")
  .ok result

end Decoding

end Npunlock.RecordSchema
