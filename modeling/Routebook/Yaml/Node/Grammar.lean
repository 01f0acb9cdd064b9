import Routebook.Yaml.Fault
import Routebook.Yaml.Node.Basic
import Routebook.Yaml.Token.Basic

/-!
# From tokens to the tree

Each function reads a node, or the rest of a collection, from a list of tokens.
It returns what it has read together with the tokens behind it, and a proof that
there are no more of them than before; every entry of a collection takes at
least one token, which is why the reading ends.

Where the tokens run out, the text had a fault.
-/

namespace Routebook.Yaml

/-- The tokens behind what has been read from `tokens`. -/
abbrev Rest (tokens : List Token) :=
  { rest : List Token // rest.length ≤ tokens.length }

/-- What has been read from `tokens`, and the tokens behind it. -/
abbrev Reading (α : Type) (tokens : List Token) :=
  Except SyntaxFault (α × Rest tokens)

/-- The expansions of tag handles. -/
abbrev Handles := List (String × List UInt8)

/-- The handles that need no declaration. -/
def defaultHandles : Handles :=
  [("!", "!".toUTF8.toList), ("!!", "tag:yaml.org,2002:".toUTF8.toList)]

/-- The bytes of a tag with its handle expanded. -/
def expandTag (handles : Handles) (handle : String) (suffix : List UInt8) :
    Except SyntaxFault (List UInt8) :=
  if handle.isEmpty then
    .ok suffix
  else
    match handles.lookup handle with
    | some expansion => .ok (expansion ++ suffix)
    | none => .error .tag

/-- Read the anchor and the tag in front of a node, in either order. -/
def readProperties (handles : Handles) (tokens : List Token) : Reading Properties tokens :=
  match tokens with
  | .anchor name :: .tag handle suffix :: rest
  | .tag handle suffix :: .anchor name :: rest => do
    let tag ← expandTag handles handle suffix
    return (⟨some name, some tag⟩, ⟨rest, by simp only [List.length_cons]; omega⟩)
  | .anchor name :: rest => .ok (⟨some name, none⟩, ⟨rest, by simp⟩)
  | .tag handle suffix :: rest => do
    let tag ← expandTag handles handle suffix
    return (⟨none, some tag⟩, ⟨rest, by simp⟩)
  | tokens => .ok ({}, ⟨tokens, Nat.le_refl _⟩)

/-- Whether the entry of a block sequence is left out. -/
def endsBlockItem : Token → Bool
  | .blockEntry | .blockEnd => true
  | _ => false

/-- Whether the entry of a sequence without indentation is left out. -/
def endsIndentlessItem : Token → Bool
  | .blockEntry | .key | .value | .blockEnd => true
  | _ => false

/-- Whether the key or value of a block mapping is left out. -/
def endsBlockPart : Token → Bool
  | .key | .value | .blockEnd => true
  | _ => false

/-- Whether the key of a flow mapping is left out. -/
def endsFlowKey : Token → Bool
  | .value | .flowEntry | .flowMappingEnd => true
  | _ => false

/-- Whether the value of a flow mapping is left out. -/
def endsFlowValue : Token → Bool
  | .flowEntry | .flowMappingEnd => true
  | _ => false

/-- Whether the key of a single pair in a flow sequence is left out. -/
def endsPairKey : Token → Bool
  | .value | .flowEntry | .flowSequenceEnd => true
  | _ => false

/-- Whether the value of a single pair in a flow sequence is left out. -/
def endsPairValue : Token → Bool
  | .flowEntry | .flowSequenceEnd => true
  | _ => false

/-- Where node content may stand. -/
structure Place where
  /-- Whether block collections may start there. -/
  block : Bool
  /-- Whether a block sequence may start there without indentation. -/
  indentless : Bool

mutual

/-- Read a node. -/
def readNode (handles : Handles) (place : Place) (tokens : List Token) :
    Reading Node tokens :=
  match tokens with
  | .alias name :: rest => .ok (.alias name, ⟨rest, by simp⟩)
  | tokens =>
    match readProperties handles tokens with
    | .error fault => .error fault
    | .ok (properties, ⟨rest, h⟩) =>
      match readContent handles place properties rest with
      | .error fault => .error fault
      | .ok (node, ⟨rest₁, h₁⟩) => .ok (node, ⟨rest₁, Nat.le_trans h₁ h⟩)
termination_by 8 * tokens.length + 2

/-- Read a node behind its properties. -/
def readContent (handles : Handles) (place : Place) (properties : Properties)
    (tokens : List Token) : Reading Node tokens :=
  match tokens with
  | [] => .error .unexpected
  | .scalar text plain :: rest => .ok (.scalar properties text plain, ⟨rest, by simp⟩)
  | .flowSequenceStart :: rest => do
    let (items, ⟨rest₁, h⟩) ← readFlowItems handles rest
    return (.sequence properties items, ⟨rest₁, by simp only [List.length_cons]; omega⟩)
  | .flowMappingStart :: rest => do
    let (entries, ⟨rest₁, h⟩) ← readFlowEntries handles rest
    return (.mapping properties entries, ⟨rest₁, by simp only [List.length_cons]; omega⟩)
  | token :: rest =>
    if place.indentless && token == .blockEntry then do
      let (items, tokens) ← readIndentlessItems handles (token :: rest)
      return (.sequence properties items, tokens)
    else if place.block && token == .blockSequenceStart then do
      let (items, ⟨rest₁, h⟩) ← readBlockItems handles rest
      return (.sequence properties items, ⟨rest₁, by simp only [List.length_cons]; omega⟩)
    else if place.block && token == .blockMappingStart then do
      let (entries, ⟨rest₁, h⟩) ← readBlockEntries handles rest
      return (.mapping properties entries, ⟨rest₁, by simp only [List.length_cons]; omega⟩)
    else if properties.anchor.isSome || properties.tag.isSome then
      .ok (.empty properties, ⟨token :: rest, Nat.le_refl _⟩)
    else
      .error .unexpected
termination_by 8 * tokens.length + 1

/-- Read a node, or the empty node where `ends` recognises what follows. -/
def readOptional (handles : Handles) (place : Place) (ends : Token → Bool)
    (tokens : List Token) : Reading Node tokens :=
  match tokens with
  | [] => .error .unexpected
  | token :: rest =>
    if ends token then .ok (.empty {}, ⟨token :: rest, Nat.le_refl _⟩)
    else readNode handles place (token :: rest)
termination_by 8 * tokens.length + 3

/-- Read the rest of a block sequence. -/
def readBlockItems (handles : Handles) (tokens : List Token) : Reading (List Node) tokens :=
  match tokens with
  | .blockEntry :: rest => do
    let (item, ⟨rest₁, h⟩) ← readOptional handles ⟨true, false⟩ endsBlockItem rest
    let (items, ⟨rest₂, h₁⟩) ← readBlockItems handles rest₁
    return (item :: items, ⟨rest₂, by simp only [List.length_cons]; omega⟩)
  | .blockEnd :: rest => .ok ([], ⟨rest, by simp⟩)
  | _ => .error .unexpected
termination_by 8 * tokens.length + 0

/-- Read the rest of a block sequence without indentation, which ends where no
further entry stands. -/
def readIndentlessItems (handles : Handles) (tokens : List Token) :
    Reading (List Node) tokens :=
  match tokens with
  | .blockEntry :: rest => do
    let (item, ⟨rest₁, h⟩) ← readOptional handles ⟨true, false⟩ endsIndentlessItem rest
    let (items, ⟨rest₂, h₁⟩) ← readIndentlessItems handles rest₁
    return (item :: items, ⟨rest₂, by simp only [List.length_cons]; omega⟩)
  | [] => .error .unexpected
  | tokens => .ok ([], ⟨tokens, Nat.le_refl _⟩)
termination_by 8 * tokens.length + 0

/-- Read the rest of a block mapping. -/
def readBlockEntries (handles : Handles) (tokens : List Token) :
    Reading (List (Node × Node)) tokens :=
  match tokens with
  | .key :: rest => do
    let (key, ⟨rest₁, h⟩) ← readOptional handles ⟨true, true⟩ endsBlockPart rest
    let (value, ⟨rest₂, h₁⟩) ← readBlockValue handles rest₁
    let (entries, ⟨rest₃, h₂⟩) ← readBlockEntries handles rest₂
    return ((key, value) :: entries, ⟨rest₃, by simp only [List.length_cons]; omega⟩)
  | .blockEnd :: rest => .ok ([], ⟨rest, by simp⟩)
  | _ => .error .unexpected
termination_by 8 * tokens.length + 0

/-- Read the value behind a key of a block mapping. -/
def readBlockValue (handles : Handles) (tokens : List Token) : Reading Node tokens :=
  match tokens with
  | .value :: rest => do
    let (value, ⟨rest₁, h⟩) ← readOptional handles ⟨true, true⟩ endsBlockPart rest
    return (value, ⟨rest₁, by simp only [List.length_cons]; omega⟩)
  | [] => .error .unexpected
  | tokens => .ok (.empty {}, ⟨tokens, Nat.le_refl _⟩)
termination_by 8 * tokens.length + 4

/-- Read a flow sequence, from behind its opening mark. -/
def readFlowItems (handles : Handles) (tokens : List Token) : Reading (List Node) tokens :=
  match tokens with
  | .flowSequenceEnd :: rest => .ok ([], ⟨rest, by simp⟩)
  | tokens => do
    let (item, ⟨rest, h⟩) ← readFlowItem handles tokens
    let (items, ⟨rest₁, h₁⟩) ← readMoreFlowItems handles rest
    return (item :: items, ⟨rest₁, Nat.le_trans h₁ h⟩)
termination_by 8 * tokens.length + 6

/-- Read the rest of a flow sequence behind an entry.  A comma has to stand in
front of a further entry, and may stand at the end. -/
def readMoreFlowItems (handles : Handles) (tokens : List Token) :
    Reading (List Node) tokens :=
  match tokens with
  | .flowSequenceEnd :: rest => .ok ([], ⟨rest, by simp⟩)
  | .flowEntry :: .flowSequenceEnd :: rest =>
    .ok ([], ⟨rest, by simp only [List.length_cons]; omega⟩)
  | .flowEntry :: rest => do
    let (item, ⟨rest₁, h⟩) ← readFlowItem handles rest
    let (items, ⟨rest₂, h₁⟩) ← readMoreFlowItems handles rest₁
    return (item :: items, ⟨rest₂, by simp only [List.length_cons]; omega⟩)
  | _ => .error .unexpected
termination_by 8 * tokens.length + 5

/-- Read an entry of a flow sequence, which may be a single pair. -/
def readFlowItem (handles : Handles) (tokens : List Token) : Reading Node tokens :=
  match tokens with
  | .key :: rest => do
    let (key, ⟨rest₁, h⟩) ← readPairKey handles rest
    let (value, ⟨rest₂, h₁⟩) ← readPairValue handles rest₁
    return (.mapping {} [(key, value)], ⟨rest₂, by simp only [List.length_cons]; omega⟩)
  | tokens => readNode handles ⟨false, false⟩ tokens
termination_by 8 * tokens.length + 4

/-- Read the key of a single pair.  The token that shows that the key is left
out is passed over. -/
def readPairKey (handles : Handles) (tokens : List Token) : Reading Node tokens :=
  match tokens with
  | [] => .error .unexpected
  | token :: rest =>
    if endsPairKey token then .ok (.empty {}, ⟨rest, by simp⟩)
    else readNode handles ⟨false, false⟩ (token :: rest)
termination_by 8 * tokens.length + 3

/-- Read the value of a single pair. -/
def readPairValue (handles : Handles) (tokens : List Token) : Reading Node tokens :=
  match tokens with
  | .value :: rest => do
    let (value, ⟨rest₁, h⟩) ← readOptional handles ⟨false, false⟩ endsPairValue rest
    return (value, ⟨rest₁, by simp only [List.length_cons]; omega⟩)
  | [] => .error .unexpected
  | tokens => .ok (.empty {}, ⟨tokens, Nat.le_refl _⟩)
termination_by 8 * tokens.length + 4

/-- Read a flow mapping, from behind its opening mark. -/
def readFlowEntries (handles : Handles) (tokens : List Token) :
    Reading (List (Node × Node)) tokens :=
  match tokens with
  | .flowMappingEnd :: rest => .ok ([], ⟨rest, by simp⟩)
  | tokens => do
    let (entry, ⟨rest, h⟩) ← readFlowPair handles tokens
    let (entries, ⟨rest₁, h₁⟩) ← readMoreFlowEntries handles rest
    return (entry :: entries, ⟨rest₁, Nat.le_trans h₁ h⟩)
termination_by 8 * tokens.length + 6

/-- Read the rest of a flow mapping behind an entry.  A comma has to stand in
front of a further entry, and may stand at the end. -/
def readMoreFlowEntries (handles : Handles) (tokens : List Token) :
    Reading (List (Node × Node)) tokens :=
  match tokens with
  | .flowMappingEnd :: rest => .ok ([], ⟨rest, by simp⟩)
  | .flowEntry :: .flowMappingEnd :: rest =>
    .ok ([], ⟨rest, by simp only [List.length_cons]; omega⟩)
  | .flowEntry :: rest => do
    let (entry, ⟨rest₁, h⟩) ← readFlowPair handles rest
    let (entries, ⟨rest₂, h₁⟩) ← readMoreFlowEntries handles rest₁
    return (entry :: entries, ⟨rest₂, by simp only [List.length_cons]; omega⟩)
  | _ => .error .unexpected
termination_by 8 * tokens.length + 5

/-- Read an entry of a flow mapping.  A key without a mark in front of it has no
value. -/
def readFlowPair (handles : Handles) (tokens : List Token) : Reading (Node × Node) tokens :=
  match tokens with
  | .key :: rest => do
    let (key, ⟨rest₁, h⟩) ← readOptional handles ⟨false, false⟩ endsFlowKey rest
    let (value, ⟨rest₂, h₁⟩) ← readFlowValue handles rest₁
    return ((key, value), ⟨rest₂, by simp only [List.length_cons]; omega⟩)
  | tokens => do
    let (key, rest) ← readNode handles ⟨false, false⟩ tokens
    return ((key, .empty {}), rest)
termination_by 8 * tokens.length + 4

/-- Read the value behind a key of a flow mapping. -/
def readFlowValue (handles : Handles) (tokens : List Token) : Reading Node tokens :=
  match tokens with
  | .value :: rest => do
    let (value, ⟨rest₁, h⟩) ← readOptional handles ⟨false, false⟩ endsFlowValue rest
    return (value, ⟨rest₁, by simp only [List.length_cons]; omega⟩)
  | [] => .error .unexpected
  | tokens => .ok (.empty {}, ⟨tokens, Nat.le_refl _⟩)
termination_by 8 * tokens.length + 4

end

end Routebook.Yaml
