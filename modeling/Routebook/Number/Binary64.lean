/-!
# Binary floating point numbers, exactly

A finite number of the 64-bit binary format is a sign, a significand below
`2 ^ 53` and an exponent, and stands for `± significand * 2 ^ exponent`.  The
exponent is at least `-1074`; above that bound the significand has all its 53
bits, so equal non-zero numbers are written alike.

Reading a quotient rounds it to the nearest number, a tie going to the even
significand.  All comparisons are made on natural numbers, without rounding.
-/

namespace Routebook

/-- A number of the 64-bit binary floating point format. -/
inductive Binary64
  | finite (negative : Bool) (significand : Nat) (exponent : Int)
  | infinite (negative : Bool)
  | nan
deriving DecidableEq, Repr, Inhabited

namespace Binary64

/-- The exponent of the smallest positive number. -/
def minExponent : Int := -1074

/-- The exponent of the largest finite numbers. -/
def maxExponent : Int := 971

/-- Equality of numbers: the two zeros are equal, and so are two values that
are not numbers. -/
def same : Binary64 → Binary64 → Bool
  | .finite s m e, .finite t n f => (m == 0 && n == 0) || (s == t && m == n && e == f)
  | .infinite s, .infinite t => s == t
  | .nan, .nan => true
  | _, _ => false

theorem same_refl (x : Binary64) : x.same x := by
  cases x <;> simp [same]

/-! ## Rounding a quotient -/

/-- The natural number nearest to `num / den`, a tie going to the even
neighbour. -/
def roundHalfEven (num den : Nat) : Nat :=
  let quotient := num / den
  match compare (2 * (num % den)) den with
  | .lt => quotient
  | .gt => quotient + 1
  | .eq => quotient + quotient % 2

/-- The fraction `num / den` counted in units of `2 ^ exponent`. -/
def inUnits (num den : Nat) : Int → Nat × Nat
  | .ofNat k => (num, den * Nat.pow 2 k)
  | .negSucc k => (num * Nat.pow 2 (k + 1), den)

/-- The exponent of the largest power of two that is at most `num / den`, for a
positive fraction. -/
def floorLog2 (num den : Nat) : Int :=
  let guess : Int := num.log2 - den.log2
  let (n, d) := inUnits num den guess
  if d ≤ n then guess else guess - 1

/-- The number nearest to `num / den`. -/
def ofRatio (negative : Bool) (num den : Nat) : Binary64 :=
  if num = 0 then
    .finite negative 0 minExponent
  else
    let exponent := max (floorLog2 num den - 52) minExponent
    let (n, d) := inUnits num den exponent
    let rounded := roundHalfEven n d
    let (significand, exponent) :=
      if rounded = Nat.pow 2 53 then (Nat.pow 2 52, exponent + 1) else (rounded, exponent)
    if exponent ≤ maxExponent then
      .finite negative significand exponent
    else
      .infinite negative

/-- The number of decimal digits of a natural number, one for zero. -/
def digitCount (n : Nat) : Nat :=
  (Nat.toDigits 10 n).length

/-- The number nearest to `digits * 10 ^ exponent`.  Magnitudes far outside the
format are decided by their number of digits alone, so that no large power is
computed for them. -/
def ofDecimal (negative : Bool) (digits : Nat) (exponent : Int) : Binary64 :=
  let magnitude : Int := digitCount digits + exponent
  if digits = 0 ∨ magnitude < -400 then
    .finite negative 0 minExponent
  else if 400 < magnitude then
    .infinite negative
  else
    match exponent with
    | .ofNat k => ofRatio negative (digits * Nat.pow 10 k) 1
    | .negSucc k => ofRatio negative digits (Nat.pow 10 (k + 1))

/-- Whether the number is neither infinite nor undefined. -/
def isFinite : Binary64 → Bool
  | .finite .. => true
  | _ => false

end Binary64

end Routebook
