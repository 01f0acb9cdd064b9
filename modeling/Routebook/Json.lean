import Routebook.Assoc
import Routebook.Error
import Routebook.Yaml.Value

/-!
# JSON trees

A JSON tree is what a document is written as, and also one form in which a
document can be given.

Every value has a JSON form as long as the keys of its mappings have a text: a
key is a string, a boolean, an integer or a finite number.  Two keys with the
same text share the place of the first and the value of the second.  A number
that is not finite is written as null, and a tagged value as an object with the
tag as its only key.
-/

namespace Routebook

/-- A JSON tree; objects keep the order of their members. -/
inductive Json
  | null
  | bool (value : Bool)
  | number (value : Number)
  | string (value : String)
  | array (items : List Json)
  | object (members : List (String × Json))
deriving Repr, Inhabited

namespace Json

/-- Floating point keys are written like other numbers, but a positive power of
ten has a plus sign. -/
def keyLayout : FloatLayout :=
  { Number.layout with signedPower := true }

/-- The text of a mapping key. -/
def keyText : Value → Except JsonKeyFault String
  | .string text => .ok text
  | .bool b => .ok (toString b)
  | .number (.int n) => .ok (toString n)
  | .number (.float x) => if x.isFinite then .ok (keyLayout.text x) else .error .notFinite
  | .null | .sequence _ | .mapping _ | .tagged .. => .error .notScalar

mutual

/-- The JSON form of a value. -/
def ofValue : Value → Except JsonKeyFault Json
  | .null => .ok .null
  | .bool b => .ok (.bool b)
  | .number (.int n) => .ok (.number (.int n))
  | .number (.float x) => .ok (if x.isFinite then .number (.float x) else .null)
  | .string text => .ok (.string text)
  | .sequence items => Json.array <$> ofItems items
  | .mapping entries => (fun members => .object (Assoc.ofList members)) <$> ofEntries entries
  | .tagged tag value => (fun json => .object [(tag.text, json)]) <$> ofValue value

/-- The JSON forms of the items of a sequence. -/
def ofItems : List Value → Except JsonKeyFault (List Json)
  | [] => .ok []
  | item :: rest => do
    let item ← ofValue item
    let rest ← ofItems rest
    return item :: rest

/-- The members for the entries of a mapping. -/
def ofEntries : Mapping → Except JsonKeyFault (List (String × Json))
  | [] => .ok []
  | (key, value) :: rest => do
    let key ← keyText key
    let value ← ofValue value
    let rest ← ofEntries rest
    return (key, value) :: rest

end

/-- The JSON form of a mapping. -/
def ofMapping (entries : Mapping) : Except JsonKeyFault Json :=
  ofValue (.mapping entries)

mutual

/-- The value that a JSON tree stands for. -/
def toValue : Json → Value
  | .null => .null
  | .bool b => .bool b
  | .number n => .number n
  | .string text => .string text
  | .array items => .sequence (toValues items)
  | .object members => .mapping (toEntries members)

/-- The values that JSON trees stand for. -/
def toValues : List Json → List Value
  | [] => []
  | item :: rest => item.toValue :: toValues rest

/-- The entries that the members of an object stand for. -/
def toEntries : List (String × Json) → Mapping
  | [] => []
  | (name, json) :: rest => (.string name, json.toValue) :: toEntries rest

end

/-! ## Members of an object -/

/-- A member, unless its value is absent. -/
def optional {α : Type} (name : String) (form : α → Json) : Option α → List (String × Json)
  | none => []
  | some x => [(name, form x)]

/-- A member with a value as it is, unless the value is absent. -/
def optionalValue {α : Type} (name : String) (form : α → Except JsonKeyFault Json) :
    Option α → Except JsonKeyFault (List (String × Json))
  | none => .ok []
  | some x => (fun json => [(name, json)]) <$> form x

/-- The number of a natural number. -/
def ofNat (n : Nat) : Json :=
  .number (.int n)

end Json

end Routebook
