import Routebook.Yaml.Merge
import Routebook.Yaml.Node.Document
import Routebook.Yaml.Resolve
import Routebook.Yaml.Token.Lexer

/-!
# Reading a text

A text without a document is null.  A text with a second document is refused,
but only when the first one has no fault of its own.
-/

namespace Routebook.Yaml

/-- Turn a fault at one place into a fault of the text. -/
def placed {α : Type} (result : Except SyntaxFault α) : Except TextFault α :=
  result.mapError TextFault.malformed

/-- Read the tree of a text with a function on its root, which has `none` for a
text without a document. -/
def readWith {α : Type} (text : String)
    (value : Option (Bound × Anchors) → Except TextFault α) : Except TextFault α := do
  let document ← placed (FirstDocument.ofTokens (tokens text))
  let root ← placed (document.root.mapM (bindNode {}))
  let result ← value root
  if document.followed then
    throw .severalDocuments
  return result

/-- Read a text as a value, merge keys left as they are written. -/
def readPlain (text : String) : Except TextFault Value :=
  readWith text fun root =>
    match root with
    | none => .ok .null
    | some (root, anchors) => (nodeValue anchors maxDepth root).run' 0

/-- Read a text as a value. -/
def read (text : String) : Except TextFault Value := do
  let value ← readPlain text
  (mergeKeys value).mapError .merge

end Routebook.Yaml
