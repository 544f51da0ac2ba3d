/-!
# Whiteboard — decimal numerals

A `Decimal` is a numeral as it is written: a sign, an unbounded significand and
a power of ten. `Decimal.toFloat?` is the float nearest to it. A reader of documents
rounds twice instead, once for the significand and once for the power of ten, and so
may end next to that float: `Decimal.read?` is what it makes of a decimal.
-/

namespace Whiteboard

/-- The number `± significand · 10 ^ exponent`. -/
structure Decimal where
  negative : Bool
  significand : Nat
  exponent : Int
  deriving DecidableEq, Repr

namespace Decimal

/-- The decimal digits of a natural number, most significant first. -/
def digits (n : Nat) : List Char := Nat.toDigits 10 n

/-- The exponent of the leading digit: the number lies below ten to one more. -/
def leading (d : Decimal) : Int := d.exponent + (digits d.significand).length - 1

/-- The nearest float to the magnitude, or `none` beyond the largest one. Numbers
whose leading digit stands far outside the range of floats are settled without
raising ten to their exponent. -/
def magnitude? (d : Decimal) : Option Float :=
  if d.significand = 0 then some 0.0
  else if 400 < d.leading then none
  else if d.leading < -400 then some 0.0
  else
    let x := Float.ofScientific d.significand (decide (d.exponent < 0)) d.exponent.natAbs
    if x.isFinite then some x else none

/-- A magnitude with the sign of the decimal. -/
def signed (d : Decimal) (x : Float) : Float := if d.negative then -x else x

/-- The nearest float, or `none` where that would be infinite. -/
def toFloat? (d : Decimal) : Option Float := d.magnitude?.map d.signed

/-! ## Reading in two steps -/

/-- How many digits at the end of a number do not go into a word of 64 bits. Nineteen
always do, and a twentieth may. -/
def surplus (n : Nat) : Nat :=
  let beyondTwenty := (digits n).length - 20
  if n / Nat.pow 10 beyondTwenty < UInt64.size then beyondTwenty else beyondTwenty + 1

/-- The largest power of ten that is a float. -/
def largestPower : Nat := 308

/-- A power of ten up to the largest. -/
def powerOfTen (n : Nat) : Float := Float.ofScientific 1 false n

/-- A float times a power of ten, or `none` where that would be infinite. -/
def timesPower? (x : Float) (n : Nat) : Option Float :=
  if largestPower < n then none
  else
    let y := x * powerOfTen n
    if y.isFinite then some y else none

/-- A float that comes from a word, divided by a power of ten. Beyond the largest power
it takes two divisions, and beyond twice as much nothing is left. -/
def overPower (x : Float) (n : Nat) : Float :=
  if n ≤ largestPower then x / powerOfTen n
  else if n ≤ 2 * largestPower then
    x / powerOfTen largestPower / powerOfTen (n - largestPower)
  else 0.0

/-- The float that a reader makes of a decimal, or `none` where that would be infinite:
what a word holds of the significand, times or divided by a power of ten. -/
def read? (d : Decimal) : Option Float :=
  if d.significand = 0 then some (d.signed 0.0)
  else
    let left := surplus d.significand
    let x := Float.ofNat (d.significand / Nat.pow 10 left)
    let e := d.exponent + left
    (if 0 ≤ e then timesPower? x e.natAbs else some (overPower x e.natAbs)).map d.signed

end Decimal

end Whiteboard
