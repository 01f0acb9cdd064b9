import Routebook.Number.Basic

/-!
# Values

A value is a scalar, a sequence, a mapping or a value under a tag.  Mappings
keep the order of their entries and any value may be a key, so a mapping is a
list of pairs.  A tag is written `!name`; it is kept until expansion resolves
it.

Two views of a value are told apart throughout the library.  Matching on a
value sees a tag; `untagged` looks through all tags in front of a node.
-/

namespace Routebook

/-- A tag, by its name without the exclamation mark that introduces it.  Only
the lone mark is a name with nothing removed. -/
structure Tag where
  name : String
deriving DecidableEq, Repr, Inhabited

namespace Tag

/-- The tag for a text in which the introducing `!` may be written or not. -/
def ofText (text : String) : Tag :=
  match text.toList with
  | '!' :: c :: rest => ⟨.ofList (c :: rest)⟩
  | _ => ⟨text⟩

/-- The tag as it is written. -/
def text (tag : Tag) : String :=
  "!" ++ tag.name

/-- The name with all exclamation marks in front removed. -/
def bareName (tag : Tag) : String :=
  .ofList (tag.name.toList.dropWhile (· = '!'))

end Tag

/-- A value of a document. -/
inductive Value
  | null
  | bool (value : Bool)
  | number (value : Number)
  | string (value : String)
  | sequence (items : List Value)
  | mapping (entries : List (Value × Value))
  | tagged (tag : Tag) (value : Value)
deriving Repr, Inhabited

/-- The entries of a mapping, in order. -/
abbrev Mapping := List (Value × Value)

/-- The kinds of value. -/
inductive ValueKind
  | null
  | boolean
  | number
  | string
  | sequence
  | mapping
  | tagged
deriving DecidableEq, Repr

/-- The name of a kind of value in messages. -/
def ValueKind.name : ValueKind → String
  | .null => "null"
  | .boolean => "boolean"
  | .number => "number"
  | .string => "string"
  | .sequence => "sequence"
  | .mapping => "mapping"
  | .tagged => "tagged value"

namespace Value

/-- The kind of a value. -/
def kind : Value → ValueKind
  | .null => .null
  | .bool _ => .boolean
  | .number _ => .number
  | .string _ => .string
  | .sequence _ => .sequence
  | .mapping _ => .mapping
  | .tagged .. => .tagged

/-- The value below the tags in front of it. -/
def untagged : Value → Value
  | .tagged _ value => value.untagged
  | value => value

/-- Whether the value is null, looking through tags. -/
def isNull (value : Value) : Bool :=
  value.untagged matches .null

/-- The entries of a mapping, looking through tags. -/
def mapping? (value : Value) : Option Mapping :=
  match value.untagged with
  | .mapping entries => some entries
  | _ => none

/-- The text of a string, looking through tags. -/
def string? (value : Value) : Option String :=
  match value.untagged with
  | .string text => some text
  | _ => none

/-- A natural number, looking through tags. -/
def unsigned? (value : Value) : Option Nat :=
  match value.untagged with
  | .number n => n.unsigned?
  | _ => none

/-- The text of a scalar: null has the empty text, and collections and tagged
values have none. -/
def text? : Value → Option String
  | .null => some ""
  | .bool b => some (toString b)
  | .number n => some n.text
  | .string s => some s
  | .sequence _ | .mapping _ | .tagged .. => none

theorem isSome_text?_iff (value : Value) :
    value.text?.isSome ↔ value.kind ∈ [.null, .boolean, .number, .string] := by
  cases value <;> simp [text?, kind]

/-- The text of a key that can be a name: any scalar but null. -/
def name? : Value → Option String
  | .null => none
  | key => key.text?

/-- Whether the value is the string `name`, as a key that is looked up by name
has to be. -/
def isName (name : String) : Value → Bool
  | .string s => s == name
  | _ => false

end Value

end Routebook
