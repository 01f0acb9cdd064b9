import Routebook.Number.Layout

/-!
# Numbers of a document

A document's number is an integer or a floating point number; the two are
never equal, whatever their values.
-/

namespace Routebook

/-- A number of a document. -/
inductive Number
  | int (value : Int)
  | float (value : Binary64)
deriving DecidableEq, Repr, Inhabited

namespace Number

/-- Floating point numbers are written positionally from `0.00001` up to
`1000000000000000.0`, and powers of ten have no plus sign. -/
def layout : FloatLayout where
  positionalAbove := -5
  positionalUpTo := 16
  signedPower := false

/-- The text of a number. -/
def text : Number → String
  | .int value => toString value
  | .float value => layout.text value

/-- Equality of numbers. -/
def same : Number → Number → Bool
  | .int a, .int b => a == b
  | .float a, .float b => a.same b
  | _, _ => false

theorem same_refl (n : Number) : n.same n := by
  cases n with
  | int value => simp [same]
  | float value => exact value.same_refl

/-- The value of an integer that is not negative. -/
def unsigned? : Number → Option Nat
  | .int (.ofNat n) => some n
  | _ => none

end Number

end Routebook
