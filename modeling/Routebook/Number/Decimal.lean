import Routebook.Number.Binary64

/-!
# Reading decimal text

A decimal text has an optional sign, digits with an optional point among or
around them, and an optional power of ten.  At least one digit stands before
or after the point, and at least one in the power.
-/

namespace Routebook.Decimal

/-- The value of a run of digits in the given base, read on from `start`. -/
def valueOf (base : Nat) (digitOf : Char → Option Nat) (start : Nat) :
    List Char → Option Nat
  | [] => some start
  | c :: rest =>
    match digitOf c with
    | some d => valueOf base digitOf (start * base + d) rest
    | none => none

/-- The value of an ASCII letter or digit as a digit of `base`. -/
def digit (base : Nat) (c : Char) : Option Nat :=
  let value :=
    if c.isDigit then some (c.toNat - '0'.toNat)
    else if 'a' ≤ c ∧ c ≤ 'z' then some (c.toNat - 'a'.toNat + 10)
    else if 'A' ≤ c ∧ c ≤ 'Z' then some (c.toNat - 'A'.toNat + 10)
    else none
  value.filter (· < base)

/-- A non-empty run of digits of `base`. -/
def natural? (base : Nat) : List Char → Option Nat
  | [] => none
  | chars => valueOf base (digit base) 0 chars

/-- A sign in front, if there is one: whether it is a minus, and what follows. -/
def sign : List Char → Bool × List Char
  | '-' :: rest => (true, rest)
  | '+' :: rest => (false, rest)
  | chars => (false, chars)

/-- The power of ten at the end of a decimal text; no text is the power zero. -/
def power? : List Char → Option Int
  | [] => some 0
  | c :: rest =>
    if c = 'e' ∨ c = 'E' then
      let (negative, digits) := sign rest
      (natural? 10 digits).map fun n => if negative then -(n : Int) else n
    else
      none

/-- Read a decimal text as the nearest binary number. -/
def toBinary64? (chars : List Char) : Option Binary64 := do
  let (negative, chars) := sign chars
  let whole := chars.takeWhile Char.isDigit
  let rest := chars.dropWhile Char.isDigit
  let (fraction, rest) :=
    match rest with
    | '.' :: rest => (rest.takeWhile Char.isDigit, rest.dropWhile Char.isDigit)
    | rest => ([], rest)
  let digits ← natural? 10 (whole ++ fraction)
  let power ← power? rest
  return .ofDecimal negative digits (power - fraction.length)

end Routebook.Decimal
