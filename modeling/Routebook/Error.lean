import Routebook.Entity.Kind
import Routebook.Entity.Scope
import Routebook.Files.Basic
import Routebook.Keyword
import Routebook.Yaml.Fault
import Routebook.Yaml.Value

/-!
# Errors

An error is the cause of a failure, with the data that its wording needs.  The
causes are grouped: each group has a category, and a heading that its messages
start with.
-/

namespace Routebook

/-- The kinds of operand that a tag can accept. -/
inductive OperandKind
  | scalar
  | mapping
deriving DecidableEq, Repr

/-- The name of a kind of operand in messages. -/
def OperandKind.name : OperandKind → String
  | .scalar => "scalar"
  | .mapping => "mapping"

/-- A tag that is used wrongly. -/
inductive TagFault
  /-- The value under a tag has the wrong kind. -/
  | value (tag : String) (expected : OperandKind) (found : ValueKind)
  /-- The operand handed to a tag has the wrong kind. -/
  | operand (tag : String) (expected : OperandKind)
  | traitNameMissing
  | traitName (found : ValueKind)
  | traitListMissing
  | traitList (found : ValueKind)
  | traitListEntry (found : ValueKind)
  | bindings (found : ValueKind)
deriving DecidableEq, Repr

/-- The wording of a fault in the use of a tag. -/
def TagFault.message : TagFault → String
  | .value tag expected found =>
    "!" ++ tag ++ " expects a " ++ expected.name ++ ", found " ++ found.name
  | .operand tag expected => "!" ++ tag ++ " expects a " ++ expected.name
  | .traitNameMissing => "!define requires a '" ++ Keyword.traitName ++ "' key"
  | .traitName found =>
    "!define expects '" ++ Keyword.traitName ++ "' to be a string, found " ++ found.name
  | .traitListMissing => "!use requires a '" ++ Keyword.traitList ++ "' key"
  | .traitList found =>
    "'" ++ Keyword.traitList ++ "' must be a string or a sequence of strings, found " ++
      found.name
  | .traitListEntry found =>
    "'" ++ Keyword.traitList ++ "' entries must be strings, found " ++ found.name
  | .bindings found => "'" ++ Keyword.bindings ++ "' must be a mapping, found " ++ found.name

/-- A placeholder that cannot be filled. -/
inductive PlaceholderFault
  | declarations (traitName : String) (found : ValueKind)
  | variableName (traitName : String)
  | paths (placeholder traitName : String)
  | emptyPath (path : String)
  | splice (found : ValueKind) (path : String)
  | blocked (segment path : String) (found : ValueKind)
  | absent (segment path : String)
deriving DecidableEq, Repr

/-- The wording of a fault in a placeholder. -/
def PlaceholderFault.message : PlaceholderFault → String
  | .declarations traitName found =>
    "'" ++ Keyword.placeholders ++ "' of trait '" ++ traitName ++
      "' must be a mapping, found " ++ found.name
  | .variableName traitName =>
    "placeholder names of trait '" ++ traitName ++ "' must be strings"
  | .paths placeholder traitName =>
    "placeholder '" ++ placeholder ++ "' of trait '" ++ traitName ++
      "' must map to a path or a sequence of paths"
  | .emptyPath path => "empty path '" ++ path ++ "'"
  | .splice found path => "cannot splice a " ++ found.name ++ " into text at '" ++ path ++ "'"
  | .blocked segment path found =>
    "segment '" ++ segment ++ "' of '" ++ path ++ "' is a " ++ found.name ++
      ", expected a mapping or string"
  | .absent segment path => "segment '" ++ segment ++ "' of '" ++ path ++ "' does not exist"

/-- What the value of a field has to be. -/
inductive Expectation
  | scalar
  | boolean
  | unsigned
  | mapping
  | scalarKeys
  | sequence
deriving DecidableEq, Repr

/-- The wording of an expectation. -/
def Expectation.text : Expectation → String
  | .scalar => "a scalar"
  | .boolean => "a boolean"
  | .unsigned => "an unsigned integer"
  | .mapping => "a mapping"
  | .scalarKeys => "keyed by scalars"
  | .sequence => "a sequence"

/-- A value of the wrong shape in the route model. -/
inductive ShapeFault
  | field (kind : EntityKind) (name : String) (scope : Scope) (expected : Expectation)
      (found : ValueKind)
  | entity (kind : EntityKind) (scope : Scope) (found : ValueKind)
  | path (scope : Scope) (found : ValueKind)
  | promoted (key : String) (scope : Scope) (found : ValueKind)
  | routeKey (scope : Scope) (found : ValueKind)
deriving DecidableEq, Repr

/-- The wording of a fault of shape. -/
def ShapeFault.message : ShapeFault → String
  | .field kind name scope expected found =>
    kind.label ++ " field '" ++ name ++ "' at '" ++ scope.text ++ "' must be " ++
      expected.text ++ ", found " ++ found.name
  | .entity kind scope found =>
    kind.label ++ " at '" ++ scope.text ++ "' must be a mapping, found " ++ found.name
  | .path scope found =>
    "route field 'path' at '" ++ scope.text ++ "' must be a string or false, found " ++
      found.name
  | .promoted key scope found =>
    "'" ++ key ++ "' at '" ++ scope.text ++ "' must be a mapping, found " ++ found.name
  | .routeKey scope found =>
    "route keys at '" ++ scope.text ++ "' must be scalars, found " ++ found.name

/-- A mapping key that has no form as a name in JSON. -/
inductive JsonKeyFault
  | notScalar
  | notFinite
deriving DecidableEq, Repr

/-- The wording of a fault in a key. -/
def JsonKeyFault.message : JsonKeyFault → String
  | .notScalar => "key must be a string"
  | .notFinite => "float key must be finite (got NaN or +/-inf)"

/-- The categories of errors. -/
inductive ErrorCategory
  | io
  | yaml
  | json
  | configuration
  | unfulfilledVariable
  | placeholderPath
  | traitNotFound
  | unknownTag
  | invalidTag
  | shape
  | general
deriving DecidableEq, Repr

/-- What the messages of a category start with. -/
def ErrorCategory.heading : ErrorCategory → String
  | .io => "IO Error: "
  | .yaml => "YAML Error: "
  | .json => "JSON Error: "
  | .configuration => "Configuration Error: "
  | .unfulfilledVariable => "Unfulfilled variable "
  | .placeholderPath => "Placeholder Path Error: "
  | .traitNotFound => "Trait not found: "
  | .unknownTag => "Unknown tag: "
  | .invalidTag => "Invalid Tag Usage: "
  | .shape => "Shape Error: "
  | .general => "General Error: "

/-- The cause of a failure. -/
inductive Error
  | unreadable (fault : ReadFault)
  | text (fault : Yaml.TextFault)
  | jsonKey (fault : JsonKeyFault)
  | documentRoot (found : ValueKind)
  | unfulfilledVariable (traitName variableName : String)
  | placeholder (fault : PlaceholderFault)
  | traitNotFound (name : String)
  | unknownTag (tag : String)
  | tag (fault : TagFault)
  | shape (fault : ShapeFault)
  /-- A failure that a program using the library reports under a category. -/
  | reported (category : ErrorCategory) (detail : String)
deriving DecidableEq, Repr

namespace Error

/-- The category of an error. -/
def category : Error → ErrorCategory
  | .unreadable _ => .io
  | .text _ => .yaml
  | .jsonKey _ => .json
  | .documentRoot _ => .configuration
  | .unfulfilledVariable .. => .unfulfilledVariable
  | .placeholder _ => .placeholderPath
  | .traitNotFound _ => .traitNotFound
  | .unknownTag _ => .unknownTag
  | .tag _ => .invalidTag
  | .shape _ => .shape
  | .reported category _ => category

/-- What a message says behind the heading of its category. -/
def detail : Error → String
  | .unreadable fault => fault.message
  | .text fault => fault.message
  | .jsonKey fault => fault.message
  | .documentRoot found => "document root must be a mapping, found " ++ found.name
  | .unfulfilledVariable traitName variableName =>
    "'" ++ variableName ++ "' required by trait '" ++ traitName ++ "'"
  | .placeholder fault => fault.message
  | .traitNotFound name => name
  | .unknownTag written => written
  | .tag fault => fault.message
  | .shape fault => fault.message
  | .reported _ detail => detail

/-- The message of an error. -/
def message (error : Error) : String :=
  error.category.heading ++ error.detail

end Error

end Routebook
