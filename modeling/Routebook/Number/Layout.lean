import Routebook.Number.Shortest

/-!
# How numbers are written

The digits of a floating point number are the shortest that read back.  A
layout says where they are put: within a range of magnitudes the decimal point
stands among the digits, outside it one digit stands before the point and a
power of ten follows.
-/

namespace Routebook

/-- The decisions of a format on how to write a floating point number. -/
structure FloatLayout where
  /-- The point is written positionally when its place is above this bound … -/
  positionalAbove : Int
  /-- … and at most this one. -/
  positionalUpTo : Int
  /-- Whether a positive power of ten has a sign. -/
  signedPower : Bool

namespace FloatLayout

/-- The digits with the point written among or around them.  There is a digit on
either side of the point. -/
def positional (d : DecimalDigits) : List Char :=
  match d.point with
  | .ofNat k =>
    if k = 0 then
      '0' :: '.' :: d.digits
    else if k < d.digits.length then
      d.digits.take k ++ '.' :: d.digits.drop k
    else
      d.digits ++ List.replicate (k - d.digits.length) '0' ++ ['.', '0']
  | .negSucc k => '0' :: '.' :: (List.replicate (k + 1) '0' ++ d.digits)

/-- One digit before the point, the others behind it, and a power of ten. -/
def scientific (signedPower : Bool) (d : DecimalDigits) : List Char :=
  let mantissa :=
    match d.digits with
    | first :: second :: rest => first :: '.' :: second :: rest
    | digits => digits
  let power := d.point - 1
  let sign := if signedPower ∧ 0 < power then ['+'] else []
  mantissa ++ 'e' :: (sign ++ (toString power).toList)

/-- The text of a positive number. -/
def magnitude (layout : FloatLayout) (d : DecimalDigits) : List Char :=
  if layout.positionalAbove < d.point ∧ d.point ≤ layout.positionalUpTo then
    positional d
  else
    scientific layout.signedPower d

/-- The text of a floating point number. -/
def text (layout : FloatLayout) : Binary64 → String
  | .nan => ".nan"
  | .infinite negative => if negative then "-.inf" else ".inf"
  | .finite negative significand exponent =>
    let magnitude :=
      if significand = 0 then ['0', '.', '0']
      else layout.magnitude (Binary64.shortest significand exponent)
    .ofList (if negative then '-' :: magnitude else magnitude)

end FloatLayout

end Routebook
