import Routebook.Yaml.Token.Block
import Routebook.Yaml.Token.Plain
import Routebook.Yaml.Token.Property
import Routebook.Yaml.Token.Quoted

/-!
# From text to tokens

Tokens are read one after the other.  Two things are settled only afterwards:

* whether a token starts a key.  Where a key may start, the place is kept as a
  *pending key* until a colon shows that it was one, and the key's own token is
  then put in front of it.  A pending key is given up when its line is over or
  after 1024 characters.
* where block collections end: when a token stands further left than the
  collection.

Tokens in front of a pending key are final, those behind it are not; so when a
fault stops the reading, only the tokens in front of the first pending key have
been read.
-/

namespace Routebook.Yaml

/-- A place where a key may have started. -/
structure PendingKey where
  /-- The number of tokens in front of it. -/
  position : Nat
  row : Nat
  column : Nat
  /-- Whether nothing but a key can stand there. -/
  required : Bool
deriving Repr

/-- The state of reading tokens. -/
structure Lexer where
  cursor : Cursor
  /-- The tokens so far, last one first. -/
  tokens : List Token := []
  /-- The number of tokens so far. -/
  count : Nat := 0
  /-- The column of the innermost block collection; outside all of them, -1. -/
  indent : Int := -1
  /-- The columns of the block collections around it. -/
  outerIndents : List Int := []
  /-- Whether a key may start at the next token. -/
  keyAllowed : Bool := true
  /-- The pending key in the innermost flow collection, or outside of all. -/
  pending : Option PendingKey := none
  /-- The pending keys around the open flow collections, innermost first. -/
  outerPending : List (Option PendingKey) := []

namespace Lexer

/-- Whether a flow collection is open. -/
def inFlow (lexer : Lexer) : Bool :=
  !lexer.outerPending.isEmpty

/-- Add a token and go on at the given place. -/
def emit (lexer : Lexer) (token : Token) (cursor : Cursor) : Lexer :=
  { lexer with tokens := token :: lexer.tokens, count := lexer.count + 1, cursor }

/-- Put a token behind the first `position` tokens. -/
def insertAt (lexer : Lexer) (position : Nat) (token : Token) : Lexer :=
  { lexer with
    tokens := lexer.tokens.insertIdx (lexer.count - position) token
    count := lexer.count + 1 }

/-! ## Pending keys -/

/-- Whether a pending key is no longer possible at the given place. -/
def expires (cursor : Cursor) (key : PendingKey) : Bool :=
  key.row < cursor.row || key.column + 1024 < cursor.column

/-- Give up the pending keys that are no longer possible. -/
def dropExpired (lexer : Lexer) : Except SyntaxFault Lexer :=
  let keep (key : Option PendingKey) : Option PendingKey :=
    key.filter fun key => !expires lexer.cursor key
  let failed := (lexer.pending :: lexer.outerPending).any fun key =>
    match key with
    | some key => key.required && expires lexer.cursor key
    | none => false
  if failed then
    .error .missingColon
  else
    .ok { lexer with
      pending := keep lexer.pending
      outerPending := lexer.outerPending.map keep }

/-- Give up the innermost pending key. -/
def dropPending (lexer : Lexer) : Except SyntaxFault Lexer :=
  match lexer.pending with
  | some key => if key.required then .error .missingColon else .ok { lexer with pending := none }
  | none => .ok lexer

/-- Keep the place of the next token as a pending key, if a key may start
there. -/
def savePending (lexer : Lexer) : Except SyntaxFault Lexer := do
  if lexer.keyAllowed then
    let lexer ← lexer.dropPending
    let key : PendingKey :=
      { position := lexer.count
        row := lexer.cursor.row
        column := lexer.cursor.column
        required := !lexer.inFlow && lexer.indent == lexer.cursor.column }
    return { lexer with pending := some key }
  else
    return lexer

/-! ## Block collections -/

/-- End the block collections that are further right than `column`, given the
innermost one and those around it: how many end, and what is left. -/
def closing (column indent : Int) : List Int → Nat × Int × List Int
  | [] => if column < indent then (1, -1, []) else (0, indent, [])
  | outer :: rest =>
    if column < indent then
      let (n, indent, rest) := closing column outer rest
      (n + 1, indent, rest)
    else
      (0, indent, outer :: rest)

/-- End the block collections that are further right than `column`.  Inside
flow collections indentation does not matter. -/
def unroll (lexer : Lexer) (column : Int) : Lexer :=
  if lexer.inFlow then
    lexer
  else
    let (n, indent, outerIndents) := closing column lexer.indent lexer.outerIndents
    { lexer with
      tokens := List.replicate n Token.blockEnd ++ lexer.tokens
      count := lexer.count + n
      indent
      outerIndents }

/-- Start a block collection at `column` unless one of that column is open.  Its
token goes to the given position. -/
def roll (lexer : Lexer) (column : Nat) (position : Nat) (token : Token) : Lexer :=
  if !lexer.inFlow && lexer.indent < column then
    { lexer.insertAt position token with
      indent := column
      outerIndents := lexer.indent :: lexer.outerIndents }
  else
    lexer

/-! ## Single tokens -/

/-- Read a directive or a document mark, which end everything that is open. -/
def documentToken (lexer : Lexer) (token : Token) (cursor : Cursor) :
    Except SyntaxFault Lexer := do
  let lexer ← (lexer.unroll (-1)).dropPending
  return { lexer with keyAllowed := false }.emit token cursor

/-- Read the end of the text. -/
def endToken (lexer : Lexer) : Except SyntaxFault Lexer :=
  lexer.documentToken .streamEnd lexer.cursor

/-- Read the opening mark of a flow collection. -/
def openFlow (lexer : Lexer) (token : Token) : Except SyntaxFault Lexer := do
  let lexer ← lexer.savePending
  return { lexer with
    pending := none
    outerPending := lexer.pending :: lexer.outerPending
    keyAllowed := true }.emit token (lexer.cursor.skip 1)

/-- Read the closing mark of a flow collection. -/
def closeFlow (lexer : Lexer) (token : Token) : Except SyntaxFault Lexer := do
  let lexer ← lexer.dropPending
  let lexer :=
    match lexer.outerPending with
    | [] => lexer
    | pending :: outerPending => { lexer with pending, outerPending }
  return { lexer with keyAllowed := false }.emit token (lexer.cursor.skip 1)

/-- Read the comma between the entries of a flow collection. -/
def flowEntry (lexer : Lexer) : Except SyntaxFault Lexer := do
  let lexer ← lexer.dropPending
  return { lexer with keyAllowed := true }.emit .flowEntry (lexer.cursor.skip 1)

/-- Start a block collection for an indicator that stands at the cursor. -/
def rollAtIndicator (lexer : Lexer) (token : Token) : Except SyntaxFault Lexer :=
  if lexer.inFlow then .ok lexer
  else if lexer.keyAllowed then .ok (lexer.roll lexer.cursor.column lexer.count token)
  else .error .unexpected

/-- Read the dash in front of an entry of a block sequence. -/
def blockEntry (lexer : Lexer) : Except SyntaxFault Lexer := do
  let lexer ← (← lexer.rollAtIndicator .blockSequenceStart).dropPending
  return { lexer with keyAllowed := true }.emit .blockEntry (lexer.cursor.skip 1)

/-- Read the question mark in front of a key. -/
def keyMark (lexer : Lexer) : Except SyntaxFault Lexer := do
  let lexer ← (← lexer.rollAtIndicator .blockMappingStart).dropPending
  return { lexer with keyAllowed := !lexer.inFlow }.emit .key (lexer.cursor.skip 1)

/-- Read the colon in front of a value.  If a key was pending, it was one. -/
def valueMark (lexer : Lexer) : Except SyntaxFault Lexer := do
  match lexer.pending with
  | some key =>
    let lexer := lexer.insertAt key.position .key
    let lexer := lexer.roll key.column key.position .blockMappingStart
    return { lexer with pending := none, keyAllowed := false }.emit .value (lexer.cursor.skip 1)
  | none =>
    let lexer ← lexer.rollAtIndicator .blockMappingStart
    return { lexer with keyAllowed := !lexer.inFlow }.emit .value (lexer.cursor.skip 1)

/-- Read an anchor, an alias or a tag, or a quoted text. -/
def wordToken (lexer : Lexer) (token : Token) (cursor : Cursor) : Except SyntaxFault Lexer := do
  let lexer ← lexer.savePending
  return { lexer with keyAllowed := false }.emit token cursor

/-- The least column for further lines of a text in the innermost block
collection. -/
def textIndent (lexer : Lexer) : Nat :=
  (lexer.indent + 1).toNat

/-- Read a block text. -/
def blockScalar (lexer : Lexer) (folded : Bool) : Except SyntaxFault Lexer := do
  let lexer ← lexer.dropPending
  let (text, cursor) ← blockText folded lexer.textIndent (lexer.cursor.skip 1)
  return { lexer with keyAllowed := true }.emit (.scalar text false) cursor

/-- Read a plain text. -/
def plainScalar (lexer : Lexer) : Except SyntaxFault Lexer := do
  let (text, broken, cursor) ← plainText lexer.inFlow lexer.textIndent lexer.cursor
  let lexer ← lexer.savePending
  return { lexer with keyAllowed := broken }.emit (.scalar text true) cursor

/-- The characters that do not start a plain text. -/
def isIndicator (c : Char) : Bool :=
  isFlowMark c || "-?:#&*!|>\x27\x22%@\x60".toList.contains c

/-- Read the token that starts with `c`, with `rest` behind it on the line. -/
def tokenAt (lexer : Lexer) (c : Char) (rest : List Char) : Except SyntaxFault Lexer := do
  let cursor := lexer.cursor
  let next := cursor.skip 1
  let atStart := cursor.column == 0
  if atStart && c == '%' then
    let (token, rest) ← directive rest
    lexer.documentToken token (cursor.moveTo rest)
  else if atStart && startsWithMark ['-', '-', '-'] cursor.here then
    lexer.documentToken .documentStart (cursor.skip 3)
  else if atStart && startsWithMark ['.', '.', '.'] cursor.here then
    lexer.documentToken .documentEnd (cursor.skip 3)
  else if c = '[' then lexer.openFlow .flowSequenceStart
  else if c = '{' then lexer.openFlow .flowMappingStart
  else if c = ']' then lexer.closeFlow .flowSequenceEnd
  else if c = '}' then lexer.closeFlow .flowMappingEnd
  else if c = ',' then lexer.flowEntry
  else if c = '-' ∧ endsWord rest then lexer.blockEntry
  else if c = '?' ∧ (lexer.inFlow ∨ endsWord rest) then lexer.keyMark
  else if c = ':' ∧ (lexer.inFlow ∨ endsWord rest) then lexer.valueMark
  else if c = '*' then
    let (name, rest) ← anchorName rest
    lexer.wordToken (.alias name) (cursor.moveTo rest)
  else if c = '&' then
    let (name, rest) ← anchorName rest
    lexer.wordToken (.anchor name) (cursor.moveTo rest)
  else if c = '!' then
    let (token, rest) ← tagToken lexer.inFlow rest
    lexer.wordToken token (cursor.moveTo rest)
  else if c = '|' ∧ !lexer.inFlow then lexer.blockScalar false
  else if c = '>' ∧ !lexer.inFlow then lexer.blockScalar true
  else if c = '\x27' then
    let (text, cursor) ← singleQuotedText next
    lexer.wordToken (.scalar text false) cursor
  else if c = '\x22' then
    let (text, cursor) ← doubleQuotedText next
    lexer.wordToken (.scalar text false) cursor
  else if !isIndicator c || c == '-' || (!lexer.inFlow && (c == '?' || c == ':')) then
    if isBlank c then throw .unexpected else lexer.plainScalar
  else
    throw .unexpected

/-- Read the next token, or the end of the text: the new state, and whether the
text is over. -/
def step (lexer : Lexer) : Except SyntaxFault (Lexer × Bool) := do
  let cursor := lexer.cursor
  let (cursor, keyAllowed) :=
    seek lexer.inFlow lexer.keyAllowed cursor.row cursor.column cursor.line cursor.below
  let lexer ← { lexer with cursor, keyAllowed }.dropExpired
  let lexer := lexer.unroll cursor.column
  match cursor.here with
  | [] => return (← lexer.endToken, true)
  | c :: rest => return (← lexer.tokenAt c rest, false)

/-- The tokens that are final when a fault stops the reading. -/
def settled (lexer : Lexer) : List Token :=
  let unsettled := (lexer.pending :: lexer.outerPending).filterMap fun key =>
    key.bind fun key => if expires lexer.cursor key then none else some key.position
  (lexer.tokens.drop (lexer.count - unsettled.foldl min lexer.count)).reverse

/-- Read tokens for at most the given number of rounds, until the text is over
or a fault stops the reading. -/
def run : Nat → Lexer → List Token
  | 0, lexer => lexer.settled
  | rounds + 1, lexer =>
    match lexer.step with
    | .error _ => lexer.settled
    | .ok (lexer, true) => lexer.tokens.reverse
    | .ok (lexer, false) => run rounds lexer

end Lexer

/-- The tokens of a text.  Only those of a text without a fault end with the
token for the end of the text. -/
def tokens (text : String) : List Token :=
  if text.toList.all isPermitted then
    let cursor := Cursor.start text
    Lexer.run cursor.remaining { cursor }
  else
    []

end Routebook.Yaml
