import Whiteboard.Number.Decimal

/-!
# Whiteboard — shortest digits

The shortest decimal that reads back as a given float, and of the shortest ones
the nearest. A float is `m · 2 ^ q` exactly, so its two neighbours on each
decimal grid are found in whole numbers. The grids are tried from the coarsest
on, and a neighbour is taken only after reading it back: what the search returns
denotes the float by construction.
-/

namespace Whiteboard

/-- Which neighbour wins when both are equally near. -/
inductive Tie where
  | toEven
  | upward
  deriving DecidableEq, Repr

namespace Shortest

/-- A positive fraction. -/
structure Fraction where
  num : Nat
  den : Nat

/-- The magnitude of a finite float as a fraction. -/
def magnitude (x : Float) : Fraction :=
  let bits := x.toBits.toNat
  let mantissa : Nat := bits % 0x10000000000000
  let exponent : Nat := bits / 0x10000000000000 % 0x800
  -- a subnormal float has no hidden bit
  let m := if exponent = 0 then mantissa else mantissa + 0x10000000000000
  let q : Int := if exponent = 0 then -1074 else (exponent : Int) - 1075
  if q < 0 then ⟨m, Nat.pow 2 q.natAbs⟩ else ⟨m * Nat.pow 2 q.natAbs, 1⟩

/-- `10 ^ above` is larger than the fraction. -/
def above (v : Fraction) : Int :=
  if v.den ≤ v.num then ((Decimal.digits (v.num / v.den)).length : Int)
  else 1 - ((Decimal.digits (v.den / v.num)).length : Int)

/-- The fraction in units of `10 ^ k`. -/
def scaled (v : Fraction) (k : Int) : Fraction :=
  if k < 0 then ⟨v.num * Nat.pow 10 k.natAbs, v.den⟩ else ⟨v.num, v.den * Nat.pow 10 k.natAbs⟩

/-- Whether a point of a grid reads back as the float. -/
def hits (x : Float) (d : Decimal) : Bool :=
  match d.toFloat? with
  | some y => y.toBits == x.toBits
  | none => false

/-- The neighbour of the float on the grid `10 ^ k` that reads back, the nearer
one if both do. -/
def onGrid? (tie : Tie) (x : Float) (negative : Bool) (v : Fraction) (k : Int) : Option Decimal :=
  let w := scaled v k
  let below := w.num / w.den
  let rest := w.num % w.den
  let lower : Decimal := ⟨negative, below, k⟩
  let upper : Decimal := ⟨negative, below + 1, k⟩
  match hits x lower, hits x upper with
  | true, true =>
    if 2 * rest < w.den then some lower
    else if w.den < 2 * rest then some upper
    -- halfway between two grid points, the style decides
    else match tie with
      | .toEven => some (if below % 2 = 0 then lower else upper)
      | .upward => some upper
  | true, false => some lower
  | false, true => some upper
  | false, false => none

/-- The first hit on the grids `10 ^ k`, `10 ^ (k - 1)`, …. -/
def search (tie : Tie) (x : Float) (negative : Bool) (v : Fraction) : Nat → Int → Option Decimal
  | 0, _ => none
  | n + 1, k => (onGrid? tie x negative v k).orElse fun _ => search tie x negative v n (k - 1)

end Shortest

/-- The shortest decimal denoting a finite float; seventeen digits always suffice,
and two further grids allow for the estimate of the first. -/
def shortest? (tie : Tie) (x : Float) : Option Decimal :=
  let negative := x.toBits.toNat / 0x8000000000000000 = 1
  if !x.isFinite then none
  else
    let v := Shortest.magnitude x
    if v.num = 0 then some ⟨negative, 0, 0⟩
    else Shortest.search tie x negative v 20 (Shortest.above v)

end Whiteboard
