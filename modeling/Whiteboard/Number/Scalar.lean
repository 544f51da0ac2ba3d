/-!
# Whiteboard — scalars

Coordinates, sizes, angles and font sizes are *scalars*. The whole library is
written over the class `Scalar`, which has two instances:

* `Float` — binary floating point, what programs store and exchange;
* `Rat` — exact arithmetic, in which the geometry of a diagram can be stated
  without rounding.

Maximum, minimum and absolute value are defined once for both, in terms of the
order: a value that is not comparable with itself (a NaN) never wins.
-/

namespace Whiteboard

/-- Numbers that can serve as coordinates. -/
class Scalar (S : Type) extends Add S, Sub S, Mul S, Div S, Neg S, LT S, LE S,
    OfScientific S where
  /-- The scalar nearest to an integer. -/
  ofInt : Int → S
  /-- Neither infinite nor NaN. -/
  isFinite : S → Bool
  /-- The point halfway between two scalars, without overflow on the way. -/
  midpoint : S → S → S
  decidableLT : DecidableLT S
  decidableLE : DecidableLE S

namespace Scalar

variable {S : Type} [Scalar S]

instance : DecidableLT S := Scalar.decidableLT

instance : DecidableLE S := Scalar.decidableLE

/-- The scalar nearest to a natural number. -/
def ofNat (n : Nat) : S := ofInt (n : Int)

/-- Distance from zero, for comparisons. -/
def abs (a : S) : S := if a < 0.0 then -a else a

/-- The larger of two scalars; a NaN loses, and the first wins a tie. -/
def max (a b : S) : S := if b ≤ a ∨ ¬ b ≤ b then a else b

/-- The smaller of two scalars; a NaN loses, and the first wins a tie. -/
def min (a b : S) : S := if a ≤ b ∨ ¬ b ≤ b then a else b

/-- A full turn in radians. -/
def turn : S := 6.28318530717958647692528676655900577

end Scalar

/-! ## Floating point -/

/-- Half of the largest finite float: two numbers up to it have a finite sum. -/
def halfLargest : Float := Float.ofBits 0x7FDFFFFFFFFFFFFF

/-- Twice the smallest normal float: a number below it loses digits when halved. -/
def twiceSmallest : Float := Float.ofBits 0x0020000000000000

/-- Halves the sum where that cannot overflow, and otherwise adds halves, except
that a tiny operand is not halved. -/
def floatMidpoint (a b : Float) : Float :=
  if a.abs ≤ halfLargest ∧ b.abs ≤ halfLargest then (a + b) / 2.0
  else if a.abs < twiceSmallest then a + b / 2.0
  else if b.abs < twiceSmallest then a / 2.0 + b
  else a / 2.0 + b / 2.0

instance : Scalar Float where
  ofInt := Float.ofInt
  isFinite := Float.isFinite
  midpoint := floatMidpoint
  decidableLT := inferInstance
  decidableLE := inferInstance

/-! ## Exact arithmetic -/

instance : Scalar Rat where
  ofInt := fun n => (n : Rat)
  isFinite := fun _ => true
  midpoint := fun a b => (a + b) / 2
  decidableLT := inferInstance
  decidableLE := inferInstance

end Whiteboard
