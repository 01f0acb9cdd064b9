import Routebook.Yaml.Fault
import Routebook.Yaml.Node.Basic

/-!
# What aliases name

Anchors share numbered slots.  A node with an anchor gets the slot whose number
is the count of names known so far, and its name then stands for that slot; an
alias takes the slot that its name stands for where the alias is written.  When
the whole document has been read, the last node with a slot is what the slot
holds.

A name given twice keeps the count unchanged, so that the slot of its second
node is also the slot of the next new name.
-/

namespace Routebook.Yaml

/-- A node whose aliases name slots. -/
inductive Bound
  | alias (slot : Nat)
  | scalar (tag : Option (List UInt8)) (text : String) (plain : Bool)
  | sequence (tag : Option (List UInt8)) (items : List Bound)
  | mapping (tag : Option (List UInt8)) (entries : List (Bound × Bound))
deriving Repr, Inhabited

/-- The names known at a place of the document, each with its slot, and the
nodes with a slot in front of it, last one first.  Nodes are counted in the
order in which they start. -/
structure Anchors where
  slots : List (String × Nat) := []
  nodes : Nat := 0
  anchored : List (Nat × Nat × Bound) := []

namespace Anchors

/-- Give the name its slot. -/
def name (anchors : Anchors) (name : String) : Anchors :=
  let others := anchors.slots.filter fun entry => entry.1 != name
  { anchors with slots := (name, anchors.slots.length) :: others }

/-- Count a node that starts, and give its anchor a slot: the slot, and the
number of the node. -/
def enter (anchors : Anchors) (anchor : Option String) : Option (Nat × Nat) × Anchors :=
  let counted := { anchors with nodes := anchors.nodes + 1 }
  match anchor with
  | none => (none, counted)
  | some anchor => (some (anchors.slots.length, anchors.nodes), counted.name anchor)

/-- Record what a slot holds. -/
def record (anchors : Anchors) (place : Option (Nat × Nat)) (node : Bound) : Anchors :=
  match place with
  | none => anchors
  | some (slot, start) => { anchors with anchored := (slot, start, node) :: anchors.anchored }

/-- What a slot holds: of the nodes with that slot, the one that starts last. -/
def holds (anchors : Anchors) (slot : Nat) : Option Bound :=
  let candidates := anchors.anchored.filter fun entry => entry.1 == slot
  let last := candidates.foldl (fun best entry =>
    match best with
    | none => some entry
    | some (found : Nat × Nat × Bound) =>
      if found.2.1 < entry.2.1 then some entry else some found) none
  last.map fun entry => entry.2.2

end Anchors

mutual

/-- Replace the names of aliases by slots. -/
def bindNode (anchors : Anchors) : Node → Except SyntaxFault (Bound × Anchors)
  | .alias name =>
    match anchors.slots.lookup name with
    | some slot => .ok (.alias slot, { anchors with nodes := anchors.nodes + 1 })
    | none => .error .unknownAlias
  | .scalar properties text plain =>
    let (place, anchors) := anchors.enter properties.anchor
    let node := Bound.scalar properties.tag text plain
    .ok (node, anchors.record place node)
  | .sequence properties items => do
    let (place, anchors) := anchors.enter properties.anchor
    let (items, anchors) ← bindItems anchors items
    let node := Bound.sequence properties.tag items
    return (node, { anchors with nodes := anchors.nodes + 1 }.record place node)
  | .mapping properties entries => do
    let (place, anchors) := anchors.enter properties.anchor
    let (entries, anchors) ← bindEntries anchors entries
    let node := Bound.mapping properties.tag entries
    return (node, { anchors with nodes := anchors.nodes + 1 }.record place node)

/-- Replace the names of aliases by slots, item by item. -/
def bindItems (anchors : Anchors) : List Node → Except SyntaxFault (List Bound × Anchors)
  | [] => .ok ([], anchors)
  | item :: rest => do
    let (item, anchors) ← bindNode anchors item
    let (rest, anchors) ← bindItems anchors rest
    return (item :: rest, anchors)

/-- Replace the names of aliases by slots, keys before their values. -/
def bindEntries (anchors : Anchors) :
    List (Node × Node) → Except SyntaxFault (List (Bound × Bound) × Anchors)
  | [] => .ok ([], anchors)
  | (key, value) :: rest => do
    let (key, anchors) ← bindNode anchors key
    let (value, anchors) ← bindNode anchors value
    let (rest, anchors) ← bindEntries anchors rest
    return ((key, value) :: rest, anchors)

end

end Routebook.Yaml
