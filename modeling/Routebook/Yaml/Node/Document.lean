import Routebook.Yaml.Node.Grammar

/-!
# The first document of a text

A text holds documents, each introduced by directives and a start mark, which
the first document may leave out.  Only the first one is read; for what comes
after it only its presence matters.
-/

namespace Routebook.Yaml

/-- The first document of a text: its root, if the text holds a document at all,
and whether anything but end marks follows it. -/
structure FirstDocument where
  root : Option Node
  followed : Bool

/-- Read the directives in front of a document.  A version stands there at most
once, and so does each handle. -/
def readDirectives (versioned : Bool) (handles : Handles) :
    List Token → Except SyntaxFault (Handles × List Token)
  | .version major minor :: rest =>
    if versioned ∨ major ≠ 1 ∨ (minor ≠ 1 ∧ minor ≠ 2) then
      .error .directive
    else
      readDirectives true handles rest
  | .handle name expansion :: rest =>
    if (handles.lookup name).isSome then
      .error .directive
    else
      readDirectives versioned (handles ++ [(name, expansion)]) rest
  | rest => .ok (handles ++ defaultHandles, rest)

/-- Whether a token in place of a document's root leaves it empty. -/
def endsDocument : Token → Bool
  | .version .. | .handle .. | .documentStart | .documentEnd | .streamEnd => true
  | _ => false

/-- Whether a document starts with its mark or with directives. -/
def startsExplicitly : Token → Bool
  | .version .. | .handle .. | .documentStart => true
  | _ => false

/-- Read the root of the first document. -/
def readRoot (token : Token) (rest : List Token) : Except SyntaxFault (Node × List Token) := do
  if startsExplicitly token then
    let (handles, rest) ← readDirectives false [] (token :: rest)
    match rest with
    | .documentStart :: rest =>
      let (root, rest) ← readOptional handles ⟨true, false⟩ endsDocument rest
      return (root, rest)
    | _ => throw .unexpected
  else
    let (root, rest) ← readNode defaultHandles ⟨true, false⟩ (token :: rest)
    return (root, rest)

/-- Read the first document. -/
def FirstDocument.ofTokens (tokens : List Token) : Except SyntaxFault FirstDocument := do
  match tokens with
  | [] => throw .unexpected
  | .streamEnd :: _ => return ⟨none, false⟩
  | token :: rest =>
    let (root, rest) ← readRoot token rest
    if rest.isEmpty then
      throw .unexpected
    return ⟨some root, rest.dropWhile (· == .documentEnd) != [.streamEnd]⟩

end Routebook.Yaml
