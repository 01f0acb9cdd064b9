import Routebook.Yaml.Fault
import Routebook.Yaml.Token.Fold

/-!
# Plain texts

A text without quotes ends before a colon that ends a word, before a comment,
and in a flow collection before any of its marks.  It goes on over a line break
as long as the lines are indented enough; inside a flow collection indentation
does not matter.
-/

namespace Routebook.Yaml

/-- The marks of flow collections. -/
def isFlowMark (c : Char) : Bool :=
  c == ',' || c == '[' || c == ']' || c == '{' || c == '}'

/-- Whether the colon in front of `rest` can only be a mistake: it is followed
directly by a flow mark or a question mark. -/
def misplacesColon (rest : List Char) : Bool :=
  match rest with
  | c :: _ => isFlowMark c || c == '?'
  | [] => false

/-- Read a piece of plain text on one line: the piece, last character first, and
the rest of the line.  Blanks are held back until something follows them. -/
def plainPiece (inFlow : Bool) (piece blanks : List Char) :
    List Char → Except SyntaxFault (List Char × List Char)
  | [] => .ok (piece, [])
  | c :: rest =>
    if isBlank c then
      plainPiece inFlow piece (c :: blanks) rest
    else if c = '#' ∧ blanks ≠ [] then
      .ok (piece, c :: rest)
    else if inFlow ∧ c = ':' ∧ misplacesColon rest then
      .error .unexpected
    else if (c = ':' ∧ endsWord rest) ∨ (inFlow ∧ isFlowMark c) then
      .ok (piece, c :: rest)
    else
      plainPiece inFlow (c :: (blanks ++ piece)) [] rest

/-- What one line adds to a plain text.  The flag of a text that is over tells
whether a line break came after its last piece. -/
inductive PlainLine
  | over (text : List Char) (broken : Bool) (rest : List Char)
  | more (text : List Char) (fold : Fold)

/-- Whether a plain text is over at the first characters of a further line. -/
def endsPlain (inFlow : Bool) (indent blanks : Nat) (chars : List Char) : Bool :=
  (!inFlow && blanks < indent) || (blanks == 0 && isDocumentMark chars) ||
    chars.head? == some '#'

/-- Read one line of a plain text.  `text` is what has been read, last character
first, and `fold` the breaks since then. -/
def plainLine (inFlow : Bool) (indent : Nat) (text : List Char) (fold : Option Fold)
    (line : Line) : Except SyntaxFault PlainLine := do
  let blanks := if fold.isSome then line.chars.takeWhile isBlank else []
  let chars := line.chars.drop blanks.length
  if (blanks.take indent).contains '\t' then
    throw .indentation
  match fold, chars, line.ending with
  | some fold, [], some lineBreak => return .more text (fold.push lineBreak)
  | some _, [], none => return .over text true []
  | _, _, _ =>
    if fold.isSome && endsPlain inFlow indent blanks.length chars then
      return .over text true chars
    let (piece, rest) ← plainPiece inFlow [] [] chars
    if piece.isEmpty then
      return .over text fold.isSome rest
    let text := piece ++ (((fold.map Fold.text).getD []).reverse ++ text)
    match rest, line.ending with
    | [], some lineBreak => return .more text ⟨some lineBreak, []⟩
    | _, _ => return .over text false rest

/-- Read a plain text from a place on.  The result is the text, whether a line
break came after it, and the place of what follows. -/
def plainFrom (inFlow : Bool) (indent : Nat) (text : List Char) (fold : Option Fold)
    (row column : Nat) (line : Line) (below : List Line) :
    Except SyntaxFault (String × Bool × Cursor) :=
  match plainLine inFlow indent text fold line with
  | .error fault => .error fault
  | .ok (.over text broken rest) =>
    .ok (.ofList text.reverse, broken, (Cursor.mk row column line below).moveTo rest)
  | .ok (.more text fold) =>
    match below with
    | [] =>
      .ok (.ofList text.reverse, true, (Cursor.mk row column line []).moveTo [])
    | next :: below => plainFrom inFlow indent text (some fold) (row + 1) 0 next below

/-- Read a plain text at the cursor.  Further lines of a text outside flow
collections are indented by at least `indent`. -/
def plainText (inFlow : Bool) (indent : Nat) (cursor : Cursor) :
    Except SyntaxFault (String × Bool × Cursor) :=
  plainFrom inFlow indent [] none cursor.row cursor.column cursor.line cursor.below

end Routebook.Yaml
