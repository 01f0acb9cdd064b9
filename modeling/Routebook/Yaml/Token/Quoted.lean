import Routebook.Number.Decimal
import Routebook.Yaml.Fault
import Routebook.Yaml.Token.Fold

/-!
# Quoted texts

In single quotes only the quote itself is special, and is written twice.  In
double quotes a backslash starts an escape; at the end of a line it joins the
next line without a space.  Blanks around a line break are dropped.  A document
mark at the start of a line inside the quotes is a fault.
-/

namespace Routebook.Yaml

/-- How a piece of quoted text on one line ends. -/
inductive QuotedStop
  | closed (rest : List Char)
  | lineEnd
  | joined

/-- A piece of a text, last character first, and how it ends. -/
abbrev QuotedPiece := List Char × QuotedStop

/-- Read on in single quotes.  Blanks are held back until something follows
them on the line. -/
def singleQuoted (piece blanks : List Char) : List Char → QuotedPiece
  | [] => (piece, .lineEnd)
  | '\x27' :: '\x27' :: rest => singleQuoted ('\x27' :: (blanks ++ piece)) [] rest
  | '\x27' :: rest => (blanks ++ piece, .closed rest)
  | c :: rest =>
    if isBlank c then singleQuoted piece (c :: blanks) rest
    else singleQuoted (c :: (blanks ++ piece)) [] rest

/-- The character that an escape of one letter stands for. -/
def escapedChar? : Char → Option Char
  | '0' => some '\x00'
  | 'a' => some '\x07'
  | 'b' => some '\x08'
  | 't' => some '\t'
  | '\t' => some '\t'
  | 'n' => some '\n'
  | 'v' => some '\x0b'
  | 'f' => some '\x0c'
  | 'r' => some '\r'
  | 'e' => some '\x1b'
  | ' ' => some ' '
  | '\x22' => some '\x22'
  | '/' => some '/'
  | '\x5c' => some '\x5c'
  | 'N' => some '\u0085'
  | '_' => some '\u00a0'
  | 'L' => some '\u2028'
  | 'P' => some '\u2029'
  | _ => none

/-- The number of hexadecimal digits after an escape that names a code point. -/
def escapeLength? : Char → Option Nat
  | 'x' => some 2
  | 'u' => some 4
  | 'U' => some 8
  | _ => none

/-- The character with the given code point in hexadecimal digits. -/
def codePoint? (length : Nat) (digits : List Char) : Option Char := do
  if digits.length ≠ length then
    none
  let code ← Decimal.natural? 16 digits
  if code.isValidChar then some (Char.ofNat code) else none

/-- Read on in double quotes. -/
def doubleQuoted (piece blanks chars : List Char) : Except SyntaxFault QuotedPiece :=
  match chars with
  | [] => .ok (piece, .lineEnd)
  | '\x22' :: rest => .ok (blanks ++ piece, .closed rest)
  | '\x5c' :: [] => .ok (blanks ++ piece, .joined)
  | '\x5c' :: c :: rest =>
    match escapedChar? c, escapeLength? c with
    | some escaped, _ => doubleQuoted (escaped :: (blanks ++ piece)) [] rest
    | none, some length =>
      match codePoint? length (rest.take length) with
      | some escaped => doubleQuoted (escaped :: (blanks ++ piece)) [] (rest.drop length)
      | none => .error .quotedText
    | none, none => .error .quotedText
  | c :: rest =>
    if isBlank c then doubleQuoted piece (c :: blanks) rest
    else doubleQuoted (c :: (blanks ++ piece)) [] rest
termination_by chars.length
decreasing_by all_goals simp only [List.length_cons, List.length_drop]; omega

/-- What one line adds to a quoted text. -/
inductive QuotedLine
  | closed (text rest : List Char)
  | more (text : List Char) (fold : Fold)

/-- Read one line of a quoted text.  `text` is what has been read, last
character first, and `fold` the breaks since then. -/
def quotedLine (read : List Char → Except SyntaxFault QuotedPiece) (text : List Char)
    (fold : Option Fold) (column : Nat) (line : Line) : Except SyntaxFault QuotedLine := do
  let chars := if fold.isSome then line.chars.dropWhile isBlank else line.chars
  match fold, chars, line.ending with
  | some fold, [], some lineBreak => return .more text (fold.push lineBreak)
  | _, _, _ =>
    if column = 0 ∧ isDocumentMark line.chars then
      throw .quotedText
    let (piece, stop) ← read chars
    let text := piece ++ (((fold.map Fold.text).getD []).reverse ++ text)
    match stop, line.ending with
    | .closed rest, _ => return .closed text rest
    | .lineEnd, some lineBreak => return .more text ⟨some lineBreak, []⟩
    | .joined, some _ => return .more text ⟨none, []⟩
    | _, none => throw .quotedText

/-- Read a quoted text from a place on.  The result is the text and the place
behind the closing quote. -/
def quotedFrom (read : List Char → Except SyntaxFault QuotedPiece) (text : List Char)
    (fold : Option Fold) (row column : Nat) (line : Line) (below : List Line) :
    Except SyntaxFault (String × Cursor) :=
  match quotedLine read text fold column line with
  | .error fault => .error fault
  | .ok (.closed text rest) =>
    .ok (.ofList text.reverse, (Cursor.mk row column line below).moveTo rest)
  | .ok (.more text fold) =>
    match below with
    | [] => .error .quotedText
    | next :: below => quotedFrom read text (some fold) (row + 1) 0 next below

/-- Read a text in single quotes, from behind the opening quote. -/
def singleQuotedText (cursor : Cursor) : Except SyntaxFault (String × Cursor) :=
  quotedFrom (fun chars => .ok (singleQuoted [] [] chars)) [] none
    cursor.row cursor.column cursor.line cursor.below

/-- Read a text in double quotes, from behind the opening quote. -/
def doubleQuotedText (cursor : Cursor) : Except SyntaxFault (String × Cursor) :=
  quotedFrom (doubleQuoted [] []) [] none cursor.row cursor.column cursor.line cursor.below

end Routebook.Yaml
