import Routebook.Number.Decimal
import Routebook.Yaml.Fault
import Routebook.Yaml.Value

/-!
# The meaning of plain scalars

A plain scalar is null, a boolean, an integer, a floating point number or, when
it is none of these, a string.

Integers may have a sign and may be written in base 16, 8 or 2.  A zero in front
of further decimal digits makes a string.  The range of integers is that of 64
bits with or without a sign; up to 128 bits an integer outside that range is a
fault, and beyond them the text is read as a floating point number.
-/

namespace Routebook.Yaml

/-- Whether the text is one of the spellings of null. -/
def isNullText (text : String) : Bool :=
  text == "~" || text == "null" || text == "Null" || text == "NULL"

/-- The boolean that the text spells. -/
def boolean? (text : String) : Option Bool :=
  if text == "true" || text == "True" || text == "TRUE" then some true
  else if text == "false" || text == "False" || text == "FALSE" then some false
  else none

/-- Whether the text is a run of digits, after an optional sign, that starts with
a superfluous zero. -/
def isZeroPadded (chars : List Char) : Bool :=
  match (Decimal.sign chars).2 with
  | '0' :: c :: rest => (c :: rest).all Char.isDigit
  | _ => false

/-- The digits of an integer with the mark of its base in front. -/
def based? : List Char → Option Nat
  | '0' :: 'x' :: digits => Decimal.natural? 16 digits
  | '0' :: 'o' :: digits => Decimal.natural? 8 digits
  | '0' :: 'b' :: digits => Decimal.natural? 2 digits
  | _ => none

/-- The integer that the text spells, of any size. -/
def integer? (chars : List Char) : Option Int :=
  let (negative, digits) := Decimal.sign chars
  let magnitude :=
    match based? digits with
    | some n => some n
    | none => if isZeroPadded chars then none else Decimal.natural? 10 digits
  magnitude.map fun n => if negative then -(n : Int) else n

/-- The ranges an integer may lie in. -/
inductive IntegerRange
  | within
  | outside
  | beyond

/-- The range of an integer: within 64 bits, within 128 bits, or beyond. -/
def rangeOf (value : Int) : IntegerRange :=
  if -Int.pow 2 63 ≤ value ∧ value < Int.pow 2 64 then .within
  else if -Int.pow 2 127 ≤ value ∧ value < Int.pow 2 128 then .outside
  else .beyond

/-- The integer that the text spells, if it is within 64 bits.  A fault is an
integer within 128 bits only. -/
def integerValue? (text : String) : Except SyntaxFault (Option Value) :=
  match integer? text.toList with
  | none => .ok none
  | some value =>
    match rangeOf value with
    | .within => .ok (some (.number (.int value)))
    | .outside => .error .scalar
    | .beyond => .ok none

/-- The floating point number that the text spells.  Infinity has its own
spelling only, and a decimal that rounds to infinity is not a number. -/
def float? (text : String) : Option Binary64 :=
  match text with
  | ".inf" | ".Inf" | ".INF" | "+.inf" | "+.Inf" | "+.INF" => some (.infinite false)
  | "-.inf" | "-.Inf" | "-.INF" => some (.infinite true)
  | ".nan" | ".NaN" | ".NAN" => some .nan
  | _ => (Decimal.toBinary64? text.toList).filter Binary64.isFinite

/-- The meaning of a plain scalar. -/
def plainValue (text : String) : Except SyntaxFault Value := do
  if text.isEmpty || isNullText text then
    return .null
  if let some b := boolean? text then
    return .bool b
  if let some value ← integerValue? text then
    return value
  if isZeroPadded text.toList then
    return .string text
  match float? text with
  | some x => return .number (.float x)
  | none => return .string text

/-! ## Tags that demand a type -/

/-- The types that a tag of the common vocabulary can demand of a scalar. -/
inductive ScalarType
  | boolean
  | integer
  | float
  | null

/-- The type that a tag demands. -/
def ScalarType.ofTag? (tag : List UInt8) : Option ScalarType :=
  if tag == "tag:yaml.org,2002:bool".toUTF8.toList then some .boolean
  else if tag == "tag:yaml.org,2002:int".toUTF8.toList then some .integer
  else if tag == "tag:yaml.org,2002:float".toUTF8.toList then some .float
  else if tag == "tag:yaml.org,2002:null".toUTF8.toList then some .null
  else none

/-- The value of the demanded type that the text spells. -/
def typedValue (type : ScalarType) (text : String) : Except SyntaxFault Value := do
  let value ←
    match type with
    | .boolean => pure ((boolean? text).map Value.bool)
    | .integer => integerValue? text
    | .float => pure ((float? text).map fun x => .number (.float x))
    | .null => pure (if isNullText text then some .null else none)
  match value with
  | some value => return value
  | none => throw .scalar

end Routebook.Yaml
