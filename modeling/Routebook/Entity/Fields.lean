import Routebook.Assoc
import Routebook.Error
import Routebook.Yaml.Mapping

/-!
# Reading the fields of an entity

The fields of an entity are looked up by name, so it does not matter where they
stand in a mapping or what else stands there.  A null field counts as absent.
Values of scalar fields may be any scalar; the text of the scalar is what counts.
-/

namespace Routebook

/-- The entries of an entity of some kind at some place. -/
structure Fields where
  kind : EntityKind
  scope : Scope
  entries : Mapping

namespace Fields

/-- The value of a field as it is written. -/
def raw? (fields : Fields) (name : String) : Option Value :=
  Mapping.get? fields.entries name

/-- The value of a field. -/
def value? (fields : Fields) (name : String) : Option Value :=
  (fields.raw? name).filter fun value => !value.isNull

/-- The fault of a field whose value is not what it has to be. -/
def fault (fields : Fields) (name : String) (expected : Expectation) (found : Value) :
    ShapeFault :=
  .field fields.kind name fields.scope expected found.kind

/-- Read a field with a function that fails on values of the wrong shape. -/
def readWith {α : Type} (fields : Fields) (name : String) (expected : Expectation)
    (read : Value → Option α) : Except ShapeFault (Option α) :=
  match fields.value? name with
  | none => .ok none
  | some value =>
    match read value with
    | some x => .ok (some x)
    | none => .error (fields.fault name expected value)

/-- The text of a scalar field. -/
def text? (fields : Fields) (name : String) : Except ShapeFault (Option String) :=
  fields.readWith name .scalar Value.text?

/-- A boolean field, false if it is absent. -/
def flag (fields : Fields) (name : String) : Except ShapeFault Bool := do
  let value ← fields.readWith name .boolean fun value =>
    match value with
    | .bool b => some b
    | _ => none
  return value.getD false

/-- A field that holds a natural number. -/
def unsigned? (fields : Fields) (name : String) : Except ShapeFault (Option Nat) :=
  fields.readWith name .unsigned Value.unsigned?

/-- A field that holds a mapping. -/
def mapping? (fields : Fields) (name : String) : Except ShapeFault (Option Mapping) :=
  fields.readWith name .mapping fun value =>
    match value with
    | .mapping entries => some entries
    | _ => none

/-- A way to build an entity from a value. -/
abbrev Builder (α : Type) := Scope → Value → Except ShapeFault α

/-- A nested entity. -/
def entity? {α : Type} (fields : Fields) (name : String) (build : Builder α) :
    Except ShapeFault (Option α) :=
  match fields.raw? name with
  | none | some .null => .ok none
  | some value => some <$> build (fields.scope.child name) value

/-- Build the entities of a map one after the other. -/
def namedEntities {α : Type} (fields : Fields) (name : String) (build : Builder α) :
    Mapping → Except ShapeFault (List (String × α))
  | [] => .ok []
  | (key, value) :: rest => do
    match key.name? with
    | none => throw (fields.fault name .scalarKeys key)
    | some text =>
      let entity ← build ((fields.scope.child name).child text) value
      let rest ← namedEntities fields name build rest
      return (text, entity) :: rest

/-- A field with an entity under each of its keys, by the texts of the keys. -/
def entitiesByName {α : Type} (fields : Fields) (name : String) (build : Builder α) :
    Except ShapeFault (List (String × α)) :=
  match fields.raw? name with
  | none | some .null => .ok []
  | some (.mapping entries) => Assoc.ofList <$> fields.namedEntities name build entries
  | some other => .error (fields.fault name .mapping other)

/-- Build the entities of a list one after the other, counted from `index`. -/
def listedEntities {α : Type} (fields : Fields) (name : String) (build : Builder α)
    (index : Nat) : List Value → Except ShapeFault (List α)
  | [] => .ok []
  | item :: rest => do
    let entity ← build ((fields.scope.child name).child (toString index)) item
    let rest ← listedEntities fields name build (index + 1) rest
    return entity :: rest

/-- A field with a list of entities. -/
def entitiesInOrder {α : Type} (fields : Fields) (name : String) (build : Builder α) :
    Except ShapeFault (List α) :=
  match fields.raw? name with
  | none | some .null => .ok []
  | some (.sequence items) => fields.listedEntities name build 0 items
  | some other => .error (fields.fault name .sequence other)

end Fields

/-- The mapping that a value stands for where a mapping is expected: a scalar
stands for its field `shorthand`, and null for no fields at all. -/
def Value.asFields? (shorthand : String) : Value → Option Mapping
  | .mapping entries => some entries
  | .null => some []
  | .bool b => some [(.string shorthand, .bool b)]
  | .number n => some [(.string shorthand, .number n)]
  | .string s => some [(.string shorthand, .string s)]
  | .sequence _ | .tagged .. => none

/-- The fields of an entity that a value stands for. -/
def Fields.ofValue (kind : EntityKind) (shorthand : String) (scope : Scope) (value : Value) :
    Except ShapeFault Fields :=
  match value.asFields? shorthand with
  | some entries => .ok ⟨kind, scope, entries⟩
  | none => .error (.entity kind scope value.kind)

/-! ## Fields that are looked up -/

namespace Fields

variable {fields : Fields} {name : String}

theorem value?_eq_none (h : fields.raw? name = none) : fields.value? name = none := by
  rw [value?, h]
  rfl

theorem flag_eq_false (h : fields.raw? name = none) : fields.flag name = .ok false := by
  rw [flag, readWith, value?_eq_none h]
  rfl

theorem flag_eq_of_bool {flag : Bool} (h : fields.raw? name = some (.bool flag)) :
    fields.flag name = .ok flag := by
  have hvalue : fields.value? name = some (.bool flag) := by
    rw [value?, h]
    rfl
  rw [Fields.flag, readWith, hvalue]
  rfl

end Fields

end Routebook
