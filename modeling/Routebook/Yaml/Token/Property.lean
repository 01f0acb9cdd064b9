import Routebook.Number.Decimal
import Routebook.Yaml.Fault
import Routebook.Yaml.Line
import Routebook.Yaml.Token.Basic

/-!
# Anchors, tags and directives

A tag is written with a handle and a suffix, or verbatim in angle brackets.  Its
text is a list of bytes, because an escape in it names a byte; the bytes of one
character are escaped together.
-/

namespace Routebook.Yaml

/-- The characters of anchor names and tag handles. -/
def isNameChar (c : Char) : Bool :=
  c.isAlphanum || c == '_' || c == '-'

/-- Read the name of an anchor or alias, from behind its mark. -/
def anchorName (chars : List Char) : Except SyntaxFault (String × List Char) :=
  let name := chars.takeWhile isNameChar
  let rest := chars.dropWhile isNameChar
  let ends :=
    match rest with
    | [] => true
    | c :: _ => isBlank c || "?:,]\x7d%@\x60".toList.contains c
  if name.isEmpty || !ends then .error .anchorName else .ok (.ofList name, rest)

/-! ## The text of tags -/

/-- The characters that may stand in a tag.  The separators of flow collections
are allowed only in verbatim tags and in directives. -/
def isTagChar (verbatim : Bool) (c : Char) : Bool :=
  isNameChar c || ";/?:@&=+$.!~*\x27()".toList.contains c ||
    (verbatim && (c == ',' || c == '[' || c == ']'))

/-- The byte that an escape stands for, and what follows the escape. -/
def escapedByte? : List Char → Option (Nat × List Char)
  | '%' :: high :: low :: rest =>
    (Decimal.natural? 16 [high, low]).map fun byte => (byte, rest)
  | _ => none

/-- The number of bytes of the character that starts with the given byte. -/
def sequenceLength? (byte : Nat) : Option Nat :=
  if byte < 0x80 then some 1
  else if byte < 0xc0 then none
  else if byte < 0xe0 then some 2
  else if byte < 0xf0 then some 3
  else if byte < 0xf8 then some 4
  else none

/-- Read the escapes of further bytes of one character. -/
def followingBytes : Nat → List Char → Option (List UInt8 × List Char)
  | 0, chars => some ([], chars)
  | n + 1, chars =>
    match escapedByte? chars with
    | none => none
    | some (byte, rest) =>
      if 0x80 ≤ byte ∧ byte < 0xc0 then
        (followingBytes n rest).map fun (bytes, rest) => (byte.toUInt8 :: bytes, rest)
      else
        none

/-- Read the escapes of one character. -/
def escapedBytes? (chars : List Char) : Option (List UInt8 × List Char) := do
  let (byte, rest) ← escapedByte? chars
  let length ← sequenceLength? byte
  let (bytes, rest) ← followingBytes (length - 1) rest
  return (byte.toUInt8 :: bytes, rest)

/-- Read the text of a tag as far as it goes.  Each round takes at least one
character, so as many rounds as there are characters are enough. -/
def tagBytes (verbatim : Bool) : Nat → List Char → Except SyntaxFault (List UInt8 × List Char)
  | 0, chars => .ok ([], chars)
  | rounds + 1, chars =>
    match chars with
    | [] => .ok ([], [])
    | '%' :: _ =>
      match escapedBytes? chars with
      | none => .error .tag
      | some (bytes, rest) => do
        let (more, rest) ← tagBytes verbatim rounds rest
        return (bytes ++ more, rest)
    | c :: rest =>
      if isTagChar verbatim c then do
        let (more, rest) ← tagBytes verbatim rounds rest
        return (c.toNat.toUInt8 :: more, rest)
      else
        .ok ([], chars)

/-- Read the text of a tag that must not be empty. -/
def nonemptyTagBytes (verbatim : Bool) (chars : List Char) :
    Except SyntaxFault (List UInt8 × List Char) := do
  let (bytes, rest) ← tagBytes verbatim chars.length chars
  if bytes.isEmpty then throw .tag else return (bytes, rest)

/-- The bytes of ASCII characters. -/
def asciiBytes (chars : List Char) : List UInt8 :=
  chars.map fun c => c.toNat.toUInt8

/-- Read a tag, from behind its exclamation mark. -/
def tagToken (inFlow : Bool) (chars : List Char) : Except SyntaxFault (Token × List Char) := do
  let (token, rest) ←
    match chars with
    | '<' :: rest => do
      let (bytes, rest) ← nonemptyTagBytes true rest
      match rest with
      | '>' :: rest => pure (Token.tag "" bytes, rest)
      | _ => throw .tag
    | _ =>
      let name := chars.takeWhile isNameChar
      match chars.dropWhile isNameChar with
      | '!' :: rest => do
        let (bytes, rest) ← nonemptyTagBytes false rest
        pure (Token.tag (.ofList ('!' :: (name ++ ['!']))) bytes, rest)
      | rest => do
        let (more, rest) ← tagBytes false rest.length rest
        let bytes := asciiBytes name ++ more
        pure (if bytes.isEmpty then .tag "" (asciiBytes ['!']) else .tag "!" bytes, rest)
  let ends := endsWord rest || (inFlow && rest.head? == some ',')
  if ends then return (token, rest) else throw .tag

/-! ## Directives -/

/-- A number of at most nine digits. -/
def versionNumber (chars : List Char) : Except SyntaxFault (Nat × List Char) :=
  let digits := chars.takeWhile Char.isDigit
  if digits.length ≤ 9 then
    match Decimal.natural? 10 digits with
    | some n => .ok (n, chars.dropWhile Char.isDigit)
    | none => .error .directive
  else
    .error .directive

/-- The version and what follows it. -/
def versionDirective (chars : List Char) : Except SyntaxFault (Token × List Char) := do
  let (major, rest) ← versionNumber (chars.dropWhile isBlank)
  match rest with
  | '.' :: rest =>
    let (minor, rest) ← versionNumber rest
    return (.version major minor, rest)
  | _ => throw .directive

/-- The declaration of a tag handle and what follows it. -/
def handleDirective (chars : List Char) : Except SyntaxFault (Token × List Char) := do
  match chars.dropWhile isBlank with
  | '!' :: rest =>
    let name := rest.takeWhile isNameChar
    let (handle, rest) ←
      match name, rest.dropWhile isNameChar with
      | _, '!' :: rest => pure ('!' :: (name ++ ['!']), rest)
      | [], rest => pure (['!'], rest)
      | _, _ => throw SyntaxFault.directive
    match rest with
    | [] => throw .directive
    | c :: _ =>
      unless isBlank c do
        throw .directive
      let (expansion, rest) ← nonemptyTagBytes true (rest.dropWhile isBlank)
      unless endsWord rest do
        throw .directive
      return (.handle (.ofList handle) expansion, rest)
  | _ => throw .directive

/-- Read a directive, from behind its percent sign. -/
def directive (chars : List Char) : Except SyntaxFault (Token × List Char) := do
  let name := chars.takeWhile isNameChar
  let rest := chars.dropWhile isNameChar
  unless endsWord rest do
    throw .directive
  let (token, rest) ←
    match String.ofList name with
    | "YAML" => versionDirective rest
    | "TAG" => handleDirective rest
    | _ => throw .directive
  match rest.dropWhile isBlank with
  | [] => return (token, [])
  | '#' :: _ => return (token, [])
  | _ => throw .directive

end Routebook.Yaml
