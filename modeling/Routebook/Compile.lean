import Routebook.Expansion.Include
import Routebook.Options
import Routebook.Route.Printer
import Routebook.Route.Visit

/-!
# Compiling a document

A source is loaded as a value, the value is expanded, and the document is built
from what comes out.  References in the root document start from the directory
that the options name, or else from the directory of the source file.
-/

namespace Routebook

/-- Where a document comes from. -/
inductive Source
  /-- A file. -/
  | file (path : Path)
  /-- A text. -/
  | text (text : String)
  /-- A value, whose merge keys are left alone. -/
  | value (value : Value)
  /-- A data tree. -/
  | json (tree : Json)

namespace Source

/-- Load a source: its value, and the directory it lies in. -/
def load (bundle : Bundle) : Source → Except Error (Value × Option Path)
  | .file path => do
    let text ← (bundle.read path).mapError .unreadable
    let value ← (Yaml.read text).mapError .text
    return (value, path.parent?)
  | .text written => do
    let value ← (Yaml.read written).mapError .text
    return (value, none)
  | .value given => .ok (given, none)
  | .json tree => .ok (tree.toValue, none)

end Source

/-- Compile a document with the files of a bundle. -/
def compile (source : Source) (options : Options) (bundle : Bundle) :
    Except Error Document := do
  let (value, directory) ← source.load bundle
  let context : Context :=
    { configDir := options.configDir.or directory, methodPrefix := options.methodPrefix }
  let (root, context) := (expandRoot bundle value).runFrom context
  (Document.build (← root) context).mapError .shape

end Routebook
