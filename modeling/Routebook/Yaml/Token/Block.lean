import Routebook.Yaml.Fault
import Routebook.Yaml.Line

/-!
# Block texts

A block text takes whole lines, as far as they are indented.  A literal text
keeps its line breaks; a folded text turns a single break between two lines that
do not start with a blank into a space.  The header says what happens to the
breaks at the end, and may give the indentation, which is otherwise that of the
first line that is not empty.
-/

namespace Routebook.Yaml

/-- What happens to the line breaks at the end of a block text. -/
inductive Chomping
  | strip
  | clip
  | keep
deriving DecidableEq, Repr

/-- The decisions in the header of a block text. -/
structure BlockStyle where
  folded : Bool
  chomping : Chomping
  increment : Option Nat

/-- A chomping indicator. -/
def chomping? : Char → Option Chomping
  | '+' => some .keep
  | '-' => some .strip
  | _ => none

/-- An indentation indicator, from one to nine.  The digit zero is a fault. -/
def increment? (c : Char) : Except SyntaxFault (Option Nat) :=
  if c = '0' then .error .blockHeader
  else if c.isDigit then .ok (some (c.toNat - '0'.toNat))
  else .ok none

/-- Read the indicators behind the mark of a block text, in either order. -/
def blockIndicators (folded : Bool) (chars : List Char) :
    Except SyntaxFault (BlockStyle × List Char) :=
  match chars with
  | [] => .ok (⟨folded, .clip, none⟩, [])
  | first :: rest =>
    match chomping? first with
    | some chomping =>
      match rest with
      | [] => .ok (⟨folded, chomping, none⟩, [])
      | second :: others => do
        match ← increment? second with
        | some n => return (⟨folded, chomping, some n⟩, others)
        | none => return (⟨folded, chomping, none⟩, rest)
    | none => do
      match ← increment? first with
      | none => return (⟨folded, .clip, none⟩, chars)
      | some n =>
        match rest with
        | [] => return (⟨folded, .clip, some n⟩, [])
        | second :: others =>
          match chomping? second with
          | some chomping => return (⟨folded, chomping, some n⟩, others)
          | none => return (⟨folded, .clip, some n⟩, rest)

/-- Whether nothing but blanks and a comment is left of a line. -/
def endsLine (chars : List Char) : Bool :=
  match chars.dropWhile isBlank with
  | [] => true
  | c :: _ => c == '#'

/-- The indentation of a block text whose header gives none: that of the first
line that is not empty, or of a longer empty line in front of it. -/
def blockIndent (deepest : Nat) : List Line → Except SyntaxFault Nat
  | [] => .ok deepest
  | line :: below =>
    let spaces := (line.chars.takeWhile (· == ' ')).length
    let deepest := max deepest spaces
    match line.chars.drop spaces, line.ending with
    | '\t' :: _, _ => .error .indentation
    | [], some _ => blockIndent deepest below
    | _, _ => .ok deepest

/-- A block text in progress: the text, last character first; the break after
its last line; the breaks of the empty lines since; and whether the last line
started with a blank. -/
structure BlockText where
  text : List Char := []
  last : Option Char := none
  empty : List Char := []
  startsBlank : Bool := false

namespace BlockText

/-- Add a line that is not empty. -/
def addLine (style : BlockStyle) (block : BlockText) (chars : List Char)
    (ending : Option Char) : BlockText :=
  let startsBlank := (chars.head?.map isBlank).getD false
  let folds := style.folded && block.last == some '\n' && !block.startsBlank && !startsBlank
  let between :=
    if folds then
      if block.empty.isEmpty then [' '] else block.empty
    else
      block.last.toList ++ block.empty
  { text := chars.reverse ++ (between.reverse ++ block.text)
    last := ending
    empty := []
    startsBlank }

/-- The text with its breaks at the end as the header demands. -/
def close (style : BlockStyle) (block : BlockText) : String :=
  let ending :=
    match style.chomping with
    | .strip => []
    | .clip => block.last.toList
    | .keep => block.last.toList ++ block.empty
  .ofList (block.text.reverse ++ ending)

end BlockText

/-- Read the lines of a block text. -/
def blockLines (style : BlockStyle) (indent : Nat) (block : BlockText) (row : Nat) :
    List Line → Except SyntaxFault (String × Cursor)
  | [] => .ok (block.close style, ⟨row, 0, ⟨[], none⟩, []⟩)
  | line :: below =>
    let spaces := ((line.chars.take indent).takeWhile (· == ' ')).length
    let rest := line.chars.drop spaces
    let stop : String × Cursor := (block.close style, ⟨row, spaces, ⟨rest, line.ending⟩, below⟩)
    match rest, line.ending with
    | [], some lineBreak =>
      blockLines style indent { block with empty := block.empty ++ [lineBreak] } (row + 1) below
    | [], none => .ok stop
    | c :: _, ending =>
      if spaces < indent then
        if c = '\t' then .error .indentation else .ok stop
      else
        blockLines style indent (block.addLine style rest ending) (row + 1) below

/-- Read a block text from behind its mark.  `parent` is the least indentation
that its lines may have. -/
def blockText (folded : Bool) (parent : Nat) (cursor : Cursor) :
    Except SyntaxFault (String × Cursor) := do
  let (style, rest) ← blockIndicators folded cursor.here
  unless endsLine rest do
    throw .blockHeader
  let indent ←
    match style.increment with
    | some n => pure (parent - 1 + n)
    | none => (fun deepest => max (max deepest parent) 1) <$> blockIndent 0 cursor.below
  match cursor.line.ending with
  | none => return ("", cursor.moveTo [])
  | some _ => blockLines style indent {} (cursor.row + 1) cursor.below

end Routebook.Yaml
