import Routebook.Yaml.Mapping
import Routebook.Yaml.Node.Anchors
import Routebook.Yaml.Scalar

/-!
# From the tree to a value

Scalars get their meaning, aliases are replaced by what they name, and a tag of
the text's own (one that starts with an exclamation mark) is kept around the
value.  Other tags matter for scalars only: some demand a type, and under any
other one a scalar is a string.

Collections may be nested 128 deep.  That bounds the replacing of aliases too,
since an alias never names an alias.  Their number is bounded by a hundred times
the size of the document.
-/

namespace Routebook.Yaml

/-- The greatest depth of nested collections. -/
def maxDepth : Nat := 128

/-- The number of aliases that may be replaced per node of a document. -/
def aliasesPerNode : Nat := 100

/-- Reading values counts the aliases replaced so far. -/
abbrev Resolution := StateT Nat (Except TextFault)

/-- A fault at a place of the text. -/
def faulty {α : Type} (fault : SyntaxFault) : Resolution α :=
  throw (.malformed fault)

/-- The tag to keep around a node, if it is one of the text's own. -/
def ownTag? (tag : Option (List UInt8)) : Option Tag :=
  match tag with
  | some (33 :: rest) =>
    let name := if rest.isEmpty then [33] else rest
    (String.fromUTF8? ⟨name.toArray⟩).map Tag.ofText
  | _ => none

/-- The meaning of a scalar, its own tag left aside. -/
def scalarValue (tag : Option (List UInt8)) (text : String) (plain : Bool) :
    Except SyntaxFault Value :=
  let untyped := if plain then plainValue text else .ok (.string text)
  match tag with
  | none => untyped
  | some (33 :: _) => untyped
  | some tag =>
    match ScalarType.ofTag? tag with
    | some type => typedValue type text
    | none => .ok (.string text)

/-- The node that an alias stands for. -/
def followAlias (anchors : Anchors) (slot : Nat) : Resolution Bound := do
  let followed ← get
  set (followed + 1)
  if aliasesPerNode * anchors.nodes < followed + 1 then
    throw .repetition
  match anchors.holds slot with
  | some node => return node
  | none => faulty .unknownAlias

/-- Put the entries of a mapping together, where no key may stand twice. -/
def collectEntries (value : Bound → Resolution Value) (done : Mapping) :
    List (Bound × Bound) → Resolution Mapping
  | [] => return done
  | (key, node) :: rest => do
    let key ← value key
    if Mapping.hasKey done key then
      faulty .duplicateKey
    let node ← value node
    collectEntries value (done ++ [(key, node)]) rest

/-- The value under the tag to keep, if there is one. -/
def withOwnTag (tag : Option (List UInt8)) (value : Value) : Value :=
  match ownTag? tag with
  | some tag => .tagged tag value
  | none => value

/-- The value of a node that is no alias, given that of the nodes inside it.
Where collections may not be nested any deeper there is none. -/
def contentValue (inside : Option (Bound → Resolution Value)) : Bound → Resolution Value
  | .scalar tag text plain =>
    match scalarValue tag text plain with
    | .ok value => return withOwnTag tag value
    | .error fault => faulty fault
  | .sequence tag items =>
    match inside with
    | some inside => return withOwnTag tag (.sequence (← items.mapM inside))
    | none => faulty .nesting
  | .mapping tag entries =>
    match inside with
    | some inside => return withOwnTag tag (.mapping (← collectEntries inside [] entries))
    | none => faulty .nesting
  | .alias _ => faulty .unknownAlias

/-- A node, or the node that it stands for. -/
def target (anchors : Anchors) : Bound → Resolution Bound
  | .alias slot => followAlias anchors slot
  | node => return node

/-- The value of a node in which collections may be nested to the given
depth. -/
def nodeValue (anchors : Anchors) : Nat → Bound → Resolution Value
  | 0, node => do
    contentValue none (← target anchors node)
  | depth + 1, node => do
    contentValue (some (nodeValue anchors depth)) (← target anchors node)

end Routebook.Yaml
