/-!
# The tree of a text

A node is a scalar, a sequence, a mapping or an alias of a node before it.
Nodes other than aliases may carry an anchor, which aliases name, and a tag,
which is kept as its bytes with the handle expanded.
-/

namespace Routebook.Yaml

/-- What may stand in front of a node. -/
structure Properties where
  anchor : Option String := none
  tag : Option (List UInt8) := none
deriving Repr, Inhabited

/-- A node of a text. -/
inductive Node
  | alias (name : String)
  | scalar (properties : Properties) (text : String) (plain : Bool)
  | sequence (properties : Properties) (items : List Node)
  | mapping (properties : Properties) (entries : List (Node × Node))
deriving Repr, Inhabited

/-- The node where the text shows none. -/
def Node.empty (properties : Properties) : Node :=
  .scalar properties "" true

end Routebook.Yaml
