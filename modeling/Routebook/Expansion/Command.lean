import Routebook.Error
import Routebook.Yaml.Value

/-!
# Tags with a meaning

A tag is either one of these commands or unknown.  What stands under the tag is
the operand of the command, and each command accepts one kind of operand.  Where
it accepts a mapping, an empty operand stands for the empty mapping.
-/

namespace Routebook

/-- What a command is carried out on. -/
inductive Operand
  | scalar (text : String)
  | mapping (entries : Mapping)
deriving Repr

/-- Take the value under a tag as an operand of the given kind. -/
def OperandKind.accept (kind : OperandKind) (tag : String) (value : Value) :
    Except TagFault Operand :=
  match kind, value with
  | .scalar, .string text => .ok (.scalar text)
  | .mapping, .mapping entries => .ok (.mapping entries)
  | .mapping, .null => .ok (.mapping [])
  | .mapping, .string "" => .ok (.mapping [])
  | kind, other => .error (.value tag kind other.kind)

/-- The commands. -/
inductive Command
  /-- Takes in another file, whose root has no path segment by default. -/
  | includeFile
  /-- Takes in another file together with its path segment. -/
  | includePath
  /-- Defines a trait. -/
  | define
  /-- Applies traits. -/
  | use
  /-- Names a controller after the key of the route. -/
  | controller
  /-- Names a handler method after the key of the route. -/
  | method
  /-- Makes a route a mere group of routes. -/
  | group
deriving DecidableEq, Repr

namespace Command

/-- All commands, in the order in which they are listed. -/
def all : List Command :=
  [.includeFile, .includePath, .define, .use, .controller, .method, .group]

/-- The name of the tag for a command. -/
def name : Command → String
  | .includeFile => "include"
  | .includePath => "includePath"
  | .define => "define"
  | .use => "use"
  | .controller => "controller"
  | .method => "method"
  | .group => "virtual"

/-- The command with the given tag name. -/
def ofName? (name : String) : Option Command :=
  all.find? fun command => command.name == name

/-- The kind of operand that a command accepts. -/
def accepts : Command → OperandKind
  | .includeFile | .includePath => .scalar
  | .define | .use | .controller | .method | .group => .mapping

end Command

end Routebook
