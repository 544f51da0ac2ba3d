import Mathlib.Algebra.Order.Field.Basic
import Mathlib.Algebra.Order.Ring.Rat
import Mathlib.Tactic.NormNum
import Mathlib.Tactic.Ring
import Whiteboard.Geometry.Box

/-!
# Whiteboard — points and boxes in exact arithmetic

What is computed with scalars is computed with rational numbers as one expects: any two numbers
are comparable, so maximum, minimum and absolute value are those of the order, and a center lies
halfway between two sides. Points and boxes can be moved, and centers move along.
-/

namespace Whiteboard

/-! ## Numbers -/

/-- The decimal with which signs are compared. -/
theorem Scalar.zero_rat : (Scalar.toOfScientific.ofScientific 0 true 1 : Rat) = 0 := by
  show (0.0 : Rat) = 0
  norm_num

theorem Scalar.abs_rat (a : Rat) : Scalar.abs a = |a| := by
  rw [Scalar.abs]
  by_cases h : a < 0
  · rw [if_pos (Scalar.zero_rat ▸ h), abs_of_neg h]
  · rw [if_neg (Scalar.zero_rat ▸ h), abs_of_nonneg (not_lt.mp h)]

theorem max_rat (a b : Rat) : Scalar.max a b = max a b := by
  -- every number is comparable with itself
  have hself : ¬ ¬ b ≤ b := not_not_intro le_rfl
  by_cases h : b ≤ a
  · rw [Scalar.max, if_pos (Or.inl h), max_eq_left h]
  · rw [Scalar.max, if_neg (not_or.mpr ⟨h, hself⟩), max_eq_right (not_le.mp h).le]

theorem min_rat (a b : Rat) : Scalar.min a b = min a b := by
  have hself : ¬ ¬ b ≤ b := not_not_intro le_rfl
  by_cases h : a ≤ b
  · rw [Scalar.min, if_pos (Or.inl h), min_eq_left h]
  · rw [Scalar.min, if_neg (not_or.mpr ⟨h, hself⟩), min_eq_right (not_le.mp h).le]

/-! ## Points -/

/-- The point at a part of the way from the one point to the other. -/
def Point.toward (p q : Point Rat) (part : Rat) : Point Rat :=
  ⟨p.x + part * (q.x - p.x), p.y + part * (q.y - p.y)⟩

/-- The way from the one end is the way from the other, looked at backwards. -/
theorem Point.toward_comm (p q : Point Rat) (part : Rat) :
    p.toward q part = q.toward p (1 - part) := by
  rw [Point.toward, Point.toward, Point.mk.injEq]
  constructor <;> ring

def Point.moved (p v : Point Rat) : Point Rat := ⟨p.x + v.x, p.y + v.y⟩

/-! ## Boxes -/

theorem Box.center_rat (b : Box Rat) : b.center = ⟨b.x + b.width / 2, b.y + b.height / 2⟩ := by
  have htwo : (Scalar.toOfScientific.ofScientific 20 true 1 : Rat) = 2 := by
    show (2.0 : Rat) = 2
    norm_num
  rw [Box.center, htwo]

/-- The sizes of the box are not negative. -/
structure Box.Proper (b : Box Rat) : Prop where
  width : 0 ≤ b.width
  height : 0 ≤ b.height

def Box.moved (b : Box Rat) (v : Point Rat) : Box Rat := { b with x := b.x + v.x, y := b.y + v.y }

theorem Box.center_moved (b : Box Rat) (v : Point Rat) : (b.moved v).center = b.center.moved v := by
  rw [Box.center_rat, Box.center_rat]
  show Point.mk (b.x + v.x + b.width / 2) (b.y + v.y + b.height / 2) =
    ⟨b.x + b.width / 2 + v.x, b.y + b.height / 2 + v.y⟩
  congr 1 <;> ring

end Whiteboard
