/-!
# Lines of a text

A text is read as its lines.  A line ends at a line feed, a carriage return,
both together, a next-line character, or a line or paragraph separator; only
the separators are told apart from the line feed afterwards.  The last line has
no end.

A cursor stands somewhere on a line, with the rest of that line and the lines
below it still to be read.
-/

namespace Routebook.Yaml

/-- Space or tab. -/
def isBlank (c : Char) : Bool :=
  c == ' ' || c == '\t'

/-- The characters that a text may hold. -/
def isPermitted (c : Char) : Bool :=
  c == '\t' || c == '\n' || c == '\r' || ('\x20' ≤ c && c ≤ '\x7e') || c == '\u0085' ||
    ('\u00a0' ≤ c && c ≤ '\ufffd') || 0x10000 ≤ c.toNat

/-- A line: its characters, and the break that ends it. -/
structure Line where
  chars : List Char
  ending : Option Char
deriving Repr, Inhabited

/-- What a break is read as, if the character is one. -/
def breakOf? (c : Char) : Option Char :=
  if c = '\n' ∨ c = '\r' ∨ c = '\u0085' then some '\n'
  else if c = '\u2028' ∨ c = '\u2029' then some c
  else none

/-- The lines of a text, where `current` holds the characters of the first line
read so far, last one first. -/
def linesFrom (current : List Char) : List Char → List Line
  | [] => [⟨current.reverse, none⟩]
  | '\r' :: '\n' :: rest => ⟨current.reverse, some '\n'⟩ :: linesFrom [] rest
  | c :: rest =>
    match breakOf? c with
    | some b => ⟨current.reverse, some b⟩ :: linesFrom [] rest
    | none => linesFrom (c :: current) rest

/-- A place in a text. -/
structure Cursor where
  row : Nat
  column : Nat
  line : Line
  below : List Line
deriving Repr, Inhabited

namespace Cursor

/-- The start of a text. -/
def start (text : String) : Cursor :=
  match linesFrom [] text.toList with
  | [] => ⟨0, 0, ⟨[], none⟩, []⟩
  | line :: below => ⟨0, 0, line, below⟩

/-- The characters left on the line. -/
def here (cursor : Cursor) : List Char :=
  cursor.line.chars

/-- Move to where `rest` is left of the line. -/
def moveTo (cursor : Cursor) (rest : List Char) : Cursor :=
  { cursor with
    column := cursor.column + (cursor.here.length - rest.length)
    line := ⟨rest, cursor.line.ending⟩ }

/-- Move on by `n` characters of the line. -/
def skip (cursor : Cursor) (n : Nat) : Cursor :=
  cursor.moveTo (cursor.here.drop n)

/-- A bound on the number of tokens that start at or after the cursor. -/
def remaining (cursor : Cursor) : Nat :=
  cursor.below.foldl (fun n line => n + line.chars.length + 1) (cursor.here.length + 1)

end Cursor

/-- Whether a word is over where `rest` is left of the line. -/
def endsWord (rest : List Char) : Bool :=
  match rest with
  | [] => true
  | c :: _ => isBlank c

/-- Whether the line starts with the given mark as a word of its own. -/
def startsWithMark (mark : List Char) (chars : List Char) : Bool :=
  mark.isPrefixOf chars && endsWord (chars.drop mark.length)

/-- Whether the line starts or ends a document. -/
def isDocumentMark (chars : List Char) : Bool :=
  startsWithMark ['-', '-', '-'] chars || startsWithMark ['.', '.', '.'] chars

/-- What is left of a line when the blanks and the comment in front of the next
token are skipped.  Tabs separate tokens only where `tabs` says so.  A byte
order mark is skipped at the start of a line. -/
def afterBlanks (tabs : Bool) (column : Nat) (chars : List Char) : List Char :=
  let marked :=
    match column, chars with
    | 0, '\ufeff' :: rest => rest
    | _, chars => chars
  match marked.dropWhile fun c => c == ' ' || (c == '\t' && tabs) with
  | '#' :: _ => []
  | rest => rest

/-- Move over blanks, comments and breaks to where the next token starts, and
tell whether a plain key may start there.  Tabs separate tokens where no key
may start and inside a flow collection; a break lets a key start, except inside
a flow collection. -/
def seek (inFlow keyAllowed : Bool) (row column : Nat) (line : Line) (below : List Line) :
    Cursor × Bool :=
  let rest := afterBlanks (inFlow || !keyAllowed) column line.chars
  let cursor : Cursor := ⟨row, column, line, below⟩
  match below with
  | [] => (cursor.moveTo rest, keyAllowed)
  | next :: below =>
    if rest.isEmpty then
      seek inFlow (keyAllowed || !inFlow) (row + 1) 0 next below
    else
      (cursor.moveTo rest, keyAllowed)

end Routebook.Yaml
