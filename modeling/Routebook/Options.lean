import Routebook.Path.Basic
import Routebook.Yaml.Read

/-!
# Options of a compilation

A host may state where references in the root document start from and what
handler methods start with.  Both can be read from a text or from a value, as
the fields `configDir` and `methodPrefix` of a mapping; other fields are
ignored, and null is the same as no mapping or no field.

From a text a scalar is taken as it is written, whatever it means otherwise.
From a value only a string will do, with or without a tag.
-/

namespace Routebook

/-- The options of a compilation. -/
structure Options where
  configDir : Option Path := none
  methodPrefix : Option String := none
deriving DecidableEq, Repr, Inhabited

namespace Options

open Yaml

/-- The name of the field for the directory. -/
def configDirField : String := "configDir"

/-- The name of the field for the start of handler methods. -/
def methodPrefixField : String := "methodPrefix"

/-- The options for the texts of the two fields. -/
def ofTexts (configDir methodPrefix : Option String) : Options :=
  ⟨configDir.map Path.mk, methodPrefix⟩

/-- Whether nothing is stated. -/
def isDefault (options : Options) : Bool :=
  options == {}

/-! ## From a value -/

/-- The text of a field of a value. -/
def textOfValue? : Value → Except SyntaxFault (Option String)
  | .null => .ok none
  | value =>
    match value.untagged with
    | .string text => .ok (some text)
    | _ => .error .shape

/-- Read the options from a value. -/
def ofValue (value : Value) : Except SyntaxFault Options :=
  match value.untagged with
  | .null => .ok {}
  | .mapping entries => do
    unless entries.all fun entry => entry.1.string?.isSome do
      throw .shape
    let field (name : String) : Except SyntaxFault (Option String) :=
      match entries.filter fun entry => entry.1.string? == some name with
      | [] => .ok none
      | [entry] => textOfValue? entry.2
      | _ => .error .duplicateKey
    return ofTexts (← field configDirField) (← field methodPrefixField)
  | _ => .error .shape

/-! ## From a text -/

/-- The node itself, or the one that an alias stands for. -/
def aliased (anchors : Anchors) : Bound → Except SyntaxFault Bound
  | .alias slot =>
    match anchors.holds slot with
    | some node => .ok node
    | none => .error .unknownAlias
  | node => .ok node

/-- The text of a scalar, if it is not null.  A plain scalar under the tag of null
has to be null. -/
def textOfScalar? (tag : Option (List UInt8)) (text : String) (plain : Bool) :
    Except SyntaxFault (Option String) :=
  if plain then
    match tag, tag.bind ScalarType.ofTag? with
    | none, _ => .ok (if text.isEmpty || isNullText text then none else some text)
    | some _, some .null => if isNullText text then .ok none else .error .scalar
    | some _, _ => .ok (some text)
  else
    .ok (some text)

/-- The text of a field of the tree. -/
def textOfNode? (anchors : Anchors) (node : Bound) : Except SyntaxFault (Option String) := do
  match ← aliased anchors node with
  | .scalar tag text plain => textOfScalar? tag text plain
  | _ => throw .shape

/-- The text of a key of the tree. -/
def keyOfNode (anchors : Anchors) (node : Bound) : Except SyntaxFault String := do
  match ← aliased anchors node with
  | .scalar _ text _ => return text
  | _ => throw .shape

/-- Read the fields from the entries of a mapping; each may stand there once. -/
def ofEntries (anchors : Anchors) (configDir methodPrefix : Option (Option String)) :
    List (Bound × Bound) → Except SyntaxFault Options
  | [] => .ok (ofTexts (configDir.getD none) (methodPrefix.getD none))
  | (key, node) :: rest => do
    let key ← keyOfNode anchors key
    if key == configDirField then
      if configDir.isSome then
        throw .duplicateKey
      ofEntries anchors (some (← textOfNode? anchors node)) methodPrefix rest
    else if key == methodPrefixField then
      if methodPrefix.isSome then
        throw .duplicateKey
      ofEntries anchors configDir (some (← textOfNode? anchors node)) rest
    else
      ofEntries anchors configDir methodPrefix rest

/-- Read the options from the root of a tree. -/
def ofNode (anchors : Anchors) (node : Bound) : Except SyntaxFault Options := do
  match ← aliased anchors node with
  | .mapping _ entries => ofEntries anchors none none entries
  | .scalar _ "" true => return {}
  | _ => throw .shape

/-- Read the options from a text. -/
def ofText (text : String) : Except TextFault Options :=
  readWith text fun root =>
    match root with
    | none => .ok {}
    | some (root, anchors) => placed (ofNode anchors root)

end Options

end Routebook
