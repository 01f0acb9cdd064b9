import Routebook.Number.Binary64

/-!
# The shortest decimal that reads back

The reals that round to a given finite number form an interval around it, whose
ends belong to it exactly when the significand is even.  For one digit, two
digits and so on, the two neighbours of the number among the decimals of that
many digits are tried; the first count with a neighbour inside the interval
gives the answer, the nearer of the two if both are inside.  Seventeen digits
are always enough.
-/

namespace Routebook

/-- The decimal `0.d₁d₂… * 10 ^ point`, where `d₁d₂…` are the digits. -/
structure DecimalDigits where
  digits : List Char
  point : Int
deriving Repr, DecidableEq

namespace Binary64

/-- Numerator and denominator of `base ^ exponent`. -/
def powerRatio (base : Nat) : Int → Nat × Nat
  | .ofNat k => (Nat.pow base k, 1)
  | .negSucc k => (1, Nat.pow base (k + 1))

/-- Compare `a * 10 ^ p` with `b * 2 ^ q`. -/
def compareScaled (a : Nat) (p : Int) (b : Nat) (q : Int) : Ordering :=
  let (tens, tenths) := powerRatio 10 p
  let (twos, halves) := powerRatio 2 q
  compare (a * tens * halves) (b * twos * tenths)

/-- Whether `digits * 10 ^ power` rounds to `significand * 2 ^ exponent`.  The
ends of the interval are counted in quarters of the last binary place; the lower
one is nearer when the number below has a smaller exponent. -/
def roundsTo (significand : Nat) (exponent : Int) (digits : Nat) (power : Int) : Bool :=
  let below := if significand = Nat.pow 2 52 ∧ minExponent < exponent then 1 else 2
  let low := compareScaled digits power (4 * significand - below) (exponent - 2)
  let high := compareScaled digits power (4 * significand + 2) (exponent - 2)
  if significand % 2 = 0 then
    low != .lt && high != .gt
  else
    low == .gt && high == .lt

/-- The place of the decimal point: the `k` with `10 ^ (k - 1) ≤ x < 10 ^ k` for
the positive number `x = significand * 2 ^ exponent`. -/
def decimalPoint (significand : Nat) (exponent : Int) : Int :=
  let (twos, halves) := powerRatio 2 exponent
  (digitCount (significand * twos * Nat.pow 10 400 / halves) : Int) - 400

/-- The decimal of `count` digits that rounds to the number, if there is one,
as a natural number and a power of ten. -/
def decimalOfLength (significand : Nat) (exponent : Int) (count : Nat) :
    Option (Nat × Int) :=
  let power := decimalPoint significand exponent - count
  let (tens, tenths) := powerRatio 10 power
  let (twos, halves) := powerRatio 2 exponent
  let num := significand * twos * tenths
  let den := halves * tens
  let below := num / den
  match roundsTo significand exponent below power,
      roundsTo significand exponent (below + 1) power with
  | true, true => some (roundHalfEven num den, power)
  | true, false => some (below, power)
  | false, true => some (below + 1, power)
  | false, false => none

/-- The digits of `digits * 10 ^ power`, without zeros at the end. -/
def trimmed (digits : Nat) (power : Int) : DecimalDigits :=
  let written := Nat.toDigits 10 digits
  { digits := (written.reverse.dropWhile (· = '0')).reverse
    point := written.length + power }

/-- The shortest decimal that reads back as the positive number
`significand * 2 ^ exponent`. -/
def shortest (significand : Nat) (exponent : Int) : DecimalDigits :=
  let found := (List.range 17).findSome? fun i => decimalOfLength significand exponent (i + 1)
  let decimal := found.getD (0, 0)
  trimmed decimal.1 decimal.2

end Binary64

end Routebook
