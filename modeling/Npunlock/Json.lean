import Mathlib.Data.Finset.Dedup
import Mathlib.Tactic.Common

/-!
# JSON values

`Json` is what a JSON text denotes. A `JsonCodec` writes and reads texts; it is `Lossless`
on a value if it reads back what it wrote.
-/

namespace Npunlock

/-- A JSON value. A number that is not an integer is held as its text. The fields of an
object that the program writes are in the order of their keys, as its texts have them. -/
inductive Json
  | null
  | boolean (value : Bool)
  | number (value : ℤ)
  | float (text : String)
  | string (value : String)
  | array (items : List Json)
  | object (fields : List (String × Json))

namespace Json

/-- The value of a field of an object. -/
def get? : Json → String → Option Json
  | .object fields, key => fields.lookup key
  | _, _ => none

/-- The value is an object with these fields and no others. -/
def HasKeys : Json → List String → Prop
  | .object fields, keys => (fields.map Prod.fst).toFinset = keys.toFinset
  | _, _ => False

instance : ∀ (json : Json) (keys : List String), Decidable (json.HasKeys keys)
  | .object _, _ => inferInstanceAs (Decidable (_ = _))
  | .null, _ | .boolean _, _ | .number _, _ | .float _, _ | .string _, _ | .array _, _ =>
    inferInstanceAs (Decidable False)

def string? : Json → Option String
  | .string value => some value
  | _ => none

def array? : Json → Option (List Json)
  | .array items => some items
  | _ => none

/-- An integer that is not negative. -/
def natural? : Json → Option ℕ
  | .number value => if 0 ≤ value then some value.toNat else none
  | _ => none

def isNull : Json → Bool
  | .null => true
  | _ => false

def isObject : Json → Bool
  | .object _ => true
  | _ => false

mutual

/-- `json.dumps` with `allow_nan=False` writes the value : it holds no infinity and no NaN. -/
def isFinite : Json → Bool
  | .float text => text != "nan" && text != "inf" && text != "-inf"
  | .array items => itemsFinite items
  | .object fields => fieldsFinite fields
  | .null | .boolean _ | .number _ | .string _ => true

def itemsFinite : List Json → Bool
  | [] => true
  | item :: items => item.isFinite && itemsFinite items

def fieldsFinite : List (String × Json) → Bool
  | [] => true
  | (_, value) :: fields => value.isFinite && fieldsFinite fields

end

@[simp]
theorem get?_object (fields : List (String × Json)) (key : String) :
    (object fields).get? key = fields.lookup key :=
  rfl

@[simp]
theorem string?_string (value : String) : (string value).string? = some value :=
  rfl

@[simp]
theorem array?_array (items : List Json) : (array items).array? = some items :=
  rfl

@[simp]
theorem natural?_number (value : ℕ) : (number value).natural? = some value := by
  simp [natural?]

end Json

/-- Writes values as texts, and reads a text if it is one. -/
structure JsonCodec where
  dumps : Json → List UInt8
  loads : List UInt8 → Option Json

def JsonCodec.Lossless (codec : JsonCodec) (json : Json) : Prop :=
  codec.loads (codec.dumps json) = some json

end Npunlock
