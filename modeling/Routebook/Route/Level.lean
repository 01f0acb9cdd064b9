import Routebook.Error
import Routebook.Yaml.Mapping

/-!
# What the entries of a mapping mean

At the root of a document and in a route, an entry is one of the fields, an
option, or a route of its own.  Keys that start with a dot are options.  In a
route the verbs and the types of interface, used as keys, are routes that have
the verb or type as a field and share the path of the route around them.
-/

namespace Routebook

/-- Where a mapping stands. -/
inductive Level
  | document
  | route
deriving DecidableEq, Repr

/-- The verbs that stand for routes. -/
def httpVerbs : List String :=
  ["GET", "POST", "PUT", "PATCH", "DELETE", "OPTIONS"]

/-- The types of interface that stand for routes. -/
def apiTypes : List String :=
  ["json", "xml"]

/-- A key that sets a field of the route it stands for. -/
structure Promotion where
  key : String
  field : String
deriving DecidableEq, Repr

/-- The keys that set a field of the route they stand for, in order. -/
def promotions : List Promotion :=
  httpVerbs.map (⟨·, "http"⟩) ++ apiTypes.map (⟨·, "apiType"⟩)

namespace Promotion

/-- The promotion for a key. -/
def ofKey? (key : String) : Option Promotion :=
  promotions.find? fun promotion => promotion.key == key

/-- The entries of a route that stands under a promoted key. -/
def stamp (promotion : Promotion) (entries : Mapping) : Mapping :=
  Mapping.setDefault "path" (.bool false)
    (Mapping.set promotion.field (.string promotion.key) entries)

end Promotion

/-- What an entry means. -/
inductive Role
  /-- A field, or a marker that a tag has left. -/
  | field
  | option (name : String)
  /-- A route. -/
  | child (name : String) (promotion : Option Promotion)
  /-- Nothing, because the value is null. -/
  | empty
  /-- A fault: the key is no name. -/
  | nameless
deriving DecidableEq, Repr

/-- The name of an option, if the text is one with its dot. -/
def optionName? (text : String) : Option String :=
  match text.toList with
  | '.' :: rest => some (.ofList rest)
  | _ => none

namespace Level

/-- The kind of entity whose fields stand at this level. -/
def kind : Level → EntityKind
  | .document => .document
  | .route => .route

/-- The markers that tags leave at this level. -/
def markers : Level → List String
  | .document => []
  | .route => [Keyword.controllerMarker, Keyword.methodMarker]

/-- Whether a string key is taken by a field or a marker. -/
def takes (level : Level) (key : String) : Bool :=
  level.kind.hasField key || level.markers.contains key

/-- The promotion of a string key at this level. -/
def promotion? (level : Level) (key : String) : Option Promotion :=
  match level with
  | .document => none
  | .route => Promotion.ofKey? key

/-- The role of an entry that is no field and not promoted. -/
def roleOfText (text : Option String) (value : Value) : Role :=
  match text with
  | none => .nameless
  | some text =>
    match optionName? text with
    | some name => .option name
    | none => if value.isNull then .empty else .child text none

/-- The role of an entry. -/
def role (level : Level) (key value : Value) : Role :=
  match key with
  | .string name =>
    if level.takes name then .field
    else
      match level.promotion? name with
      | some promotion => .child name (some promotion)
      | none => roleOfText (some name) value
  | key => roleOfText key.name? value

/-- The options at a level, by name; of two with the same name the later one
counts. -/
def options (level : Level) (entries : Mapping) : List (String × Value) :=
  Assoc.ofList <| entries.filterMap fun entry =>
    match level.role entry.1 entry.2 with
    | .option name => some (name, entry.2)
    | _ => none

end Level

end Routebook
