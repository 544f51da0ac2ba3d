import Mathlib.Algebra.Order.Field.Basic
import Mathlib.Algebra.Order.Ring.Rat
import Mathlib.Tactic.Linarith
import Mathlib.Tactic.NormNum
import Mathlib.Tactic.Ring
import Whiteboard.Drawing.Connector
import Whiteboard.Proofs.Geometry.Exact

/-!
# Whiteboard — the laws of routes

A route is found in four cases: along one of two axes, forwards or backwards. In exact
arithmetic they are two. The axis is the one on which the centers are farther apart, and along
it the route leads from the middle of the edge that faces the other element to the middle of
the edge that faces back, forwards if the second center comes later and else backwards.

Seen from the other end a route is the same, but for one thing: elements with one center face
each other in no direction, so that the routes there and back both start at a top and end at a
bottom, and meet only if the elements have no height.

Main results:

* `anchors_eq` — where a route starts and ends, and along which axis.
* `mirrors_of_center_ne`, `mirrors_iff_of_center_eq` — a route seen from the other end.
* `bridges_of_before`, `bridges_of_after` — a route runs in the gap between boxes.
* `plan_moved` — a route moves with its elements.
* `plan_laws` — all together.
-/

namespace Whiteboard.Drawing

/-! ## Edges -/

namespace Axis

/-- Where a point lies along an axis. -/
def along {S : Type} (axis : Axis) (p : Point S) : S :=
  match axis with
  | .horizontal => p.x
  | .vertical => p.y

/-- How far a box reaches along an axis. -/
def extent {S : Type} (axis : Axis) (b : Box S) : S :=
  match axis with
  | .horizontal => b.width
  | .vertical => b.height

variable {S : Type} [Scalar S]

/-- The middle of the edge with which a box starts along an axis, the left or the top one. -/
def leading (axis : Axis) (b : Box S) : Point S :=
  match axis with
  | .horizontal => Point.midpoint ⟨b.left, b.top⟩ ⟨b.left, b.bottom⟩
  | .vertical => Point.midpoint ⟨b.left, b.top⟩ ⟨b.right, b.top⟩

/-- The middle of the edge with which a box ends along an axis, the right or the bottom one. -/
def trailing (axis : Axis) (b : Box S) : Point S :=
  match axis with
  | .horizontal => Point.midpoint ⟨b.right, b.top⟩ ⟨b.right, b.bottom⟩
  | .vertical => Point.midpoint ⟨b.left, b.bottom⟩ ⟨b.right, b.bottom⟩

/-- Along the axis the one box ends before the other starts. -/
def Before (axis : Axis) (a b : Box Rat) : Prop :=
  axis.along (axis.trailing a) ≤ axis.along (axis.leading b)

/-- Along the axis the point lies between the end of the one box and the start of the other. -/
structure Gap (axis : Axis) (a b : Box Rat) (p : Point Rat) : Prop where
  low : axis.along (axis.trailing a) ≤ axis.along p
  high : axis.along p ≤ axis.along (axis.leading b)

/-! The middle of an edge is level with the center. -/

theorem leading_rat (axis : Axis) (b : Box Rat) : axis.leading b =
    match axis with
    | .horizontal => ⟨b.left, b.center.y⟩
    | .vertical => ⟨b.center.x, b.top⟩ := by
  rw [Box.center_rat]
  cases axis
  · show Point.mk ((b.x + b.x) / 2) ((b.y + (b.y + b.height)) / 2) = ⟨b.x, b.y + b.height / 2⟩
    congr 1 <;> ring
  · show Point.mk ((b.x + (b.x + b.width)) / 2) ((b.y + b.y) / 2) = ⟨b.x + b.width / 2, b.y⟩
    congr 1 <;> ring

theorem trailing_rat (axis : Axis) (b : Box Rat) : axis.trailing b =
    match axis with
    | .horizontal => ⟨b.right, b.center.y⟩
    | .vertical => ⟨b.center.x, b.bottom⟩ := by
  rw [Box.center_rat]
  cases axis
  · show Point.mk ((b.x + b.width + (b.x + b.width)) / 2) ((b.y + (b.y + b.height)) / 2) =
      ⟨b.x + b.width, b.y + b.height / 2⟩
    congr 1 <;> ring
  · show Point.mk ((b.x + (b.x + b.width)) / 2) ((b.y + b.height + (b.y + b.height)) / 2) =
      ⟨b.x + b.width / 2, b.y + b.height⟩
    congr 1 <;> ring

/-- The center lies halfway between the edges. -/
theorem along_center (axis : Axis) (b : Box Rat) :
    axis.along b.center = axis.along (axis.leading b) + axis.extent b / 2 ∧
      axis.along b.center = axis.along (axis.trailing b) - axis.extent b / 2 := by
  rw [leading_rat, trailing_rat, Box.center_rat]
  cases axis
  · exact ⟨rfl, show b.x + b.width / 2 = b.x + b.width - b.width / 2 by ring⟩
  · exact ⟨rfl, show b.y + b.height / 2 = b.y + b.height - b.height / 2 by ring⟩

/-- The two edges of a box are one where it has no extent. -/
theorem leading_eq_trailing_iff (axis : Axis) (b : Box Rat) :
    axis.leading b = axis.trailing b ↔ axis.extent b = 0 := by
  rw [leading_rat, trailing_rat]
  cases axis
  · show Point.mk b.x _ = ⟨b.x + b.width, _⟩ ↔ b.width = 0
    rw [Point.mk.injEq, left_eq_add]
    exact and_iff_left rfl
  · show Point.mk _ b.y = ⟨_, b.y + b.height⟩ ↔ b.height = 0
    rw [Point.mk.injEq, left_eq_add]
    exact and_iff_right rfl

theorem extent_nonneg {b : Box Rat} (h : b.Proper) (axis : Axis) : 0 ≤ axis.extent b := by
  cases axis
  · exact h.width
  · exact h.height

/-- A point on the way from one place to a later one lies between the two. -/
theorem between_of_toward {axis : Axis} {p q : Point Rat} {part : Rat} (hlow : 0 ≤ part)
    (hhigh : part ≤ 1) (h : axis.along p ≤ axis.along q) :
    axis.along p ≤ axis.along (p.toward q part) ∧ axis.along (p.toward q part) ≤ axis.along q := by
  have halong : axis.along (p.toward q part) =
      axis.along p + part * (axis.along q - axis.along p) := by
    cases axis <;> rfl
  have hway : 0 ≤ axis.along q - axis.along p := sub_nonneg.mpr h
  have hpart : 0 ≤ part * (axis.along q - axis.along p) := mul_nonneg hlow hway
  have hpart' : part * (axis.along q - axis.along p) ≤ 1 * (axis.along q - axis.along p) :=
    mul_le_mul_of_nonneg_right hhigh hway
  rw [halong]
  constructor <;> linarith

theorem along_moved_lt_iff (axis : Axis) (p q v : Point Rat) :
    axis.along (p.moved v) < axis.along (q.moved v) ↔ axis.along p < axis.along q := by
  cases axis
  · exact add_lt_add_iff_right v.x
  · exact add_lt_add_iff_right v.y

theorem leading_moved (axis : Axis) (b : Box Rat) (v : Point Rat) :
    axis.leading (b.moved v) = (axis.leading b).moved v := by
  rw [leading_rat, leading_rat, Box.center_moved]
  cases axis <;> rfl

theorem trailing_moved (axis : Axis) (b : Box Rat) (v : Point Rat) :
    axis.trailing (b.moved v) = (axis.trailing b).moved v := by
  rw [trailing_rat, trailing_rat, Box.center_moved]
  cases axis
  · show Point.mk (b.x + v.x + b.width) _ = ⟨b.x + b.width + v.x, _⟩
    congr 1
    ring
  · show Point.mk _ (b.y + v.y + b.height) = ⟨_, b.y + b.height + v.y⟩
    congr 1
    ring

end Axis

/-! ## The axis between two boxes -/

/-- The axis on which the centers are farther apart, the vertical one if on neither. -/
def axisBetween (a b : Box Rat) : Axis :=
  if |b.center.y - a.center.y| < |b.center.x - a.center.x| then .horizontal else .vertical

theorem axisBetween_comm (a b : Box Rat) : axisBetween b a = axisBetween a b := by
  rw [axisBetween, axisBetween, abs_sub_comm a.center.y, abs_sub_comm a.center.x]

theorem axisBetween_moved (a b : Box Rat) (v : Point Rat) :
    axisBetween (a.moved v) (b.moved v) = axisBetween a b := by
  have hmoved : ∀ p q r : Rat, p + r - (q + r) = p - q := fun p q r => by ring
  rw [axisBetween, axisBetween, Box.center_moved, Box.center_moved]
  simp only [Point.moved, hmoved]

/-- Centers that differ are told apart by this axis. -/
theorem center_eq_of_along_eq {a b : Box Rat}
    (h : (axisBetween a b).along a.center = (axisBetween a b).along b.center) :
    a.center = b.center := by
  by_cases haxis : |b.center.y - a.center.y| < |b.center.x - a.center.x|
  · -- no distance is less than none
    rw [axisBetween, if_pos haxis] at h
    have hx : a.center.x = b.center.x := h
    rw [hx, sub_self, abs_zero] at haxis
    exact absurd haxis (not_lt.mpr (abs_nonneg _))
  · rw [axisBetween, if_neg haxis] at h
    have hy : a.center.y = b.center.y := h
    rw [hy, sub_self, abs_zero, not_lt, abs_nonpos_iff, sub_eq_zero] at haxis
    rw [show a.center = ⟨a.center.x, a.center.y⟩ from rfl, hy, ← haxis]

/-! ## The ends of a route -/

/-- **The ends of a route.** Along the axis on which the centers are farther apart, the route
leads forwards if the second center comes later, and otherwise backwards. -/
theorem anchors_eq (a b : Box Rat) :
    anchors a b =
      let axis := axisBetween a b
      if axis.along a.center < axis.along b.center then (axis.trailing a, axis.leading b, axis)
      else (axis.leading a, axis.trailing b, axis) := by
  have habs : ∀ p q : Rat, Scalar.abs (p - q) = |p - q| := fun p q => Scalar.abs_rat (p - q)
  simp only [Axis.leading_rat, Axis.trailing_rat]
  rw [anchors, axisBetween]
  simp only [Scalar.zero_rat, habs]
  by_cases haxis : |b.center.y - a.center.y| < |b.center.x - a.center.x|
  · rw [if_pos haxis, if_pos haxis]
    -- from side to side
    by_cases hahead : a.center.x < b.center.x
    · rw [if_pos (sub_pos.mpr hahead)]
      exact (if_pos hahead).symm
    · rw [if_neg (fun h => hahead (sub_pos.mp h))]
      exact (if_neg hahead).symm
  · rw [if_neg haxis, if_neg haxis]
    -- from bottom to top or from top to bottom
    by_cases hahead : a.center.y < b.center.y
    · rw [if_pos (sub_pos.mpr hahead)]
      exact (if_pos hahead).symm
    · rw [if_neg (fun h => hahead (sub_pos.mp h))]
      exact (if_neg hahead).symm

section

variable {a b : Element Rat} {axis : Axis} (haxis : axisBetween a.box b.box = axis)

include haxis

theorem plan_of_ahead (h : axis.along a.center < axis.along b.center) :
    Route.plan a b =
      ⟨axis.trailing a.box, axis.leading b.box, axis, bindingTo a.id, bindingTo b.id⟩ := by
  subst haxis
  have hends := (anchors_eq a.box b.box).trans (if_pos h)
  rw [Route.plan, hends]

theorem plan_of_not_ahead (h : ¬ axis.along a.center < axis.along b.center) :
    Route.plan a b =
      ⟨axis.leading a.box, axis.trailing b.box, axis, bindingTo a.id, bindingTo b.id⟩ := by
  subst haxis
  have hends := (anchors_eq a.box b.box).trans (if_neg h)
  rw [Route.plan, hends]

end

theorem axis_plan (a b : Element Rat) : (Route.plan a b).axis = axisBetween a.box b.box := by
  by_cases h : (axisBetween a.box b.box).along a.center < (axisBetween a.box b.box).along b.center
  · rw [plan_of_ahead rfl h]
  · rw [plan_of_not_ahead rfl h]

/-- Each end is the middle of an edge of its own element, on the axis of the route. -/
theorem ends_mem (a b : Element Rat) :
    (Route.plan a b).start ∈
        [(Route.plan a b).axis.leading a.box, (Route.plan a b).axis.trailing a.box] ∧
      (Route.plan a b).finish ∈
        [(Route.plan a b).axis.leading b.box, (Route.plan a b).axis.trailing b.box] := by
  obtain ⟨axis, haxis⟩ : ∃ axis, axisBetween a.box b.box = axis := ⟨_, rfl⟩
  by_cases h : axis.along a.center < axis.along b.center
  · simp [plan_of_ahead haxis h]
  · simp [plan_of_not_ahead haxis h]

/-! ## Seen from the other end -/

/-- The ends of the one route are those of the other, the other way round. -/
structure Route.Mirrors (route back : Route Rat) : Prop where
  start : back.start = route.finish
  finish : back.finish = route.start

/-- Between different centers the way back is the way there. -/
theorem mirrors_of_center_ne {a b : Element Rat} (h : a.center ≠ b.center) :
    (Route.plan a b).Mirrors (Route.plan b a) := by
  obtain ⟨axis, haxis⟩ : ∃ axis, axisBetween a.box b.box = axis := ⟨_, rfl⟩
  have hback : axisBetween b.box a.box = axis := (axisBetween_comm a.box b.box).trans haxis
  have hne : axis.along a.center ≠ axis.along b.center := by
    intro heq
    rw [← haxis] at heq
    exact h (center_eq_of_along_eq heq)
  -- one of the two routes leads forwards, and the other one backwards
  by_cases hahead : axis.along a.center < axis.along b.center
  · rw [plan_of_ahead haxis hahead, plan_of_not_ahead hback (not_lt.mpr hahead.le)]
    exact ⟨rfl, rfl⟩
  · have hbehind : axis.along b.center < axis.along a.center :=
      lt_of_le_of_ne (not_lt.mp hahead) hne.symm
    rw [plan_of_not_ahead haxis hahead, plan_of_ahead hback hbehind]
    exact ⟨rfl, rfl⟩

/-- From a common center both routes start at the top of the one element and end at the bottom
of the other. -/
theorem mirrors_iff_of_center_eq {a b : Element Rat} (h : a.center = b.center) :
    (Route.plan a b).Mirrors (Route.plan b a) ↔ a.height = 0 ∧ b.height = 0 := by
  have haxis : axisBetween a.box b.box = .vertical := by
    refine if_neg ?_
    show ¬ |b.center.y - a.center.y| < |b.center.x - a.center.x|
    rw [h, sub_self, sub_self]
    exact lt_irrefl _
  have hback : axisBetween b.box a.box = .vertical := (axisBetween_comm a.box b.box).trans haxis
  rw [plan_of_not_ahead haxis (by rw [h]; exact lt_irrefl _),
    plan_of_not_ahead hback (by rw [h]; exact lt_irrefl _)]
  have ha := Axis.leading_eq_trailing_iff .vertical a.box
  have hb := Axis.leading_eq_trailing_iff .vertical b.box
  constructor
  · rintro ⟨hstart, hfinish⟩
    exact ⟨ha.mp hfinish.symm, hb.mp hstart⟩
  · rintro ⟨hheight, hheight'⟩
    exact ⟨hb.mpr hheight', (ha.mpr hheight).symm⟩

/-! ## The gap -/

/-- The route runs from the one point to the other and nowhere leaves the gap. -/
structure Route.Bridges (route : Route Rat) (p q : Point Rat) (gap : Point Rat → Prop) : Prop where
  start : route.start = p
  finish : route.finish = q
  inside : ∀ part, 0 ≤ part → part ≤ 1 → gap (route.start.toward route.finish part)

section

variable {a b : Element Rat} (ha : a.box.Proper) (hb : b.box.Proper)

include ha hb

/-- **Forwards.** If the first box ends before the second one starts, the route leads from the
end of the one to the start of the other. -/
theorem bridges_of_before (h : (Route.plan a b).axis.Before a.box b.box) :
    (Route.plan a b).Bridges ((Route.plan a b).axis.trailing a.box)
      ((Route.plan a b).axis.leading b.box) ((Route.plan a b).axis.Gap a.box b.box) := by
  obtain ⟨axis, haxis⟩ : ∃ axis, (Route.plan a b).axis = axis := ⟨_, rfl⟩
  have hbetween : axisBetween a.box b.box = axis := (axis_plan a b).symm.trans haxis
  rw [haxis] at h ⊢
  have hends : (Route.plan a b).start = axis.trailing a.box ∧
      (Route.plan a b).finish = axis.leading b.box := by
    by_cases hahead : axis.along a.center < axis.along b.center
    · rw [plan_of_ahead hbetween hahead]
      exact ⟨rfl, rfl⟩
    · -- then nothing is left between the centers, and the four edges are one
      have hbefore : axis.along (axis.trailing a.box) ≤ axis.along (axis.leading b.box) := h
      have hcenter : axis.along a.center = _ := (axis.along_center a.box).2
      have hcenter' : axis.along b.center = _ := (axis.along_center b.box).1
      have hextent := axis.extent_nonneg ha
      have hextent' := axis.extent_nonneg hb
      have hflat : axis.extent a.box = 0 := by linarith
      have hflat' : axis.extent b.box = 0 := by linarith
      rw [plan_of_not_ahead hbetween hahead]
      exact ⟨(axis.leading_eq_trailing_iff a.box).mpr hflat,
        ((axis.leading_eq_trailing_iff b.box).mpr hflat').symm⟩
  refine ⟨hends.1, hends.2, fun part hlow hhigh => ?_⟩
  rw [hends.1, hends.2]
  obtain ⟨hge, hle⟩ := Axis.between_of_toward hlow hhigh h
  exact ⟨hge, hle⟩

/-- **Backwards.** -/
theorem bridges_of_after (h : (Route.plan a b).axis.Before b.box a.box) :
    (Route.plan a b).Bridges ((Route.plan a b).axis.leading a.box)
      ((Route.plan a b).axis.trailing b.box) ((Route.plan a b).axis.Gap b.box a.box) := by
  obtain ⟨axis, haxis⟩ : ∃ axis, (Route.plan a b).axis = axis := ⟨_, rfl⟩
  have hbetween : axisBetween a.box b.box = axis := (axis_plan a b).symm.trans haxis
  rw [haxis] at h ⊢
  have hbehind : ¬ axis.along a.center < axis.along b.center := by
    have hafter : axis.along (axis.trailing b.box) ≤ axis.along (axis.leading a.box) := h
    have hcenter : axis.along a.center = _ := (axis.along_center a.box).1
    have hcenter' : axis.along b.center = _ := (axis.along_center b.box).2
    have hextent := axis.extent_nonneg ha
    have hextent' := axis.extent_nonneg hb
    rw [not_lt]
    linarith
  rw [plan_of_not_ahead hbetween hbehind]
  refine ⟨rfl, rfl, fun part hlow hhigh => ?_⟩
  -- the gap is crossed from its end
  rw [Point.toward_comm]
  obtain ⟨hge, hle⟩ := Axis.between_of_toward (sub_nonneg.mpr hhigh) (sub_le_self 1 hlow) h
  exact ⟨hge, hle⟩

end

/-! ## Moving both elements -/

def Element.moved (e : Element Rat) (v : Point Rat) : Element Rat :=
  { e with x := e.x + v.x, y := e.y + v.y }

def Route.moved (route : Route Rat) (v : Point Rat) : Route Rat :=
  { route with start := route.start.moved v, finish := route.finish.moved v }

theorem plan_moved (a b : Element Rat) (v : Point Rat) :
    Route.plan (a.moved v) (b.moved v) = (Route.plan a b).moved v := by
  obtain ⟨axis, haxis⟩ : ∃ axis, axisBetween a.box b.box = axis := ⟨_, rfl⟩
  have hmoved : axisBetween (a.moved v).box (b.moved v).box = axis :=
    (axisBetween_moved a.box b.box v).trans haxis
  have hiff : axis.along (a.moved v).center < axis.along (b.moved v).center ↔
      axis.along a.center < axis.along b.center := by
    have hcenter : ∀ e : Element Rat, (e.moved v).center = e.center.moved v :=
      fun e => e.box.center_moved v
    rw [hcenter, hcenter]
    exact axis.along_moved_lt_iff _ _ v
  by_cases h : axis.along a.center < axis.along b.center
  · rw [plan_of_ahead haxis h, plan_of_ahead hmoved (hiff.mpr h)]
    exact congrArg₂ (Route.mk · · axis _ _) (axis.trailing_moved a.box v)
      (axis.leading_moved b.box v)
  · rw [plan_of_not_ahead haxis h, plan_of_not_ahead hmoved (fun h' => h (hiff.mp h'))]
    exact congrArg₂ (Route.mk · · axis _ _) (axis.leading_moved a.box v)
      (axis.trailing_moved b.box v)

/-! ## The laws -/

/-- **The laws of routes.** For any two elements: the way back follows the same axis, and its
bindings are exchanged. Its ends are exchanged as well if the centers differ; if they do not,
only between elements without height. Each end is the middle of an edge of its own element on
the axis. Where proper boxes are apart along the axis, the route runs in the gap between them,
from the one facing edge to the other. And where both elements move together, so does the
route, and nothing else about it changes. -/
theorem plan_laws (a b : Element Rat) :
    let route := Route.plan a b
    let back := Route.plan b a
    let axis := route.axis
    back.axis = axis ∧
    (back.startBinding = route.endBinding ∧ back.endBinding = route.startBinding) ∧
    (a.center ≠ b.center → route.Mirrors back) ∧
    (a.center = b.center → (route.Mirrors back ↔ a.height = 0 ∧ b.height = 0)) ∧
    (route.start ∈ [axis.leading a.box, axis.trailing a.box] ∧
      route.finish ∈ [axis.leading b.box, axis.trailing b.box]) ∧
    (a.box.Proper → b.box.Proper →
      (axis.Before a.box b.box → route.Bridges (axis.trailing a.box) (axis.leading b.box)
        (axis.Gap a.box b.box)) ∧
      (axis.Before b.box a.box → route.Bridges (axis.leading a.box) (axis.trailing b.box)
        (axis.Gap b.box a.box))) ∧
    ∀ v, Route.plan (a.moved v) (b.moved v) = route.moved v := by
  intro route back axis
  have haxis : back.axis = axis := by
    show (Route.plan b a).axis = (Route.plan a b).axis
    rw [axis_plan, axis_plan, axisBetween_comm]
  exact ⟨haxis, ⟨rfl, rfl⟩, mirrors_of_center_ne, mirrors_iff_of_center_eq, ends_mem a b,
    fun ha hb => ⟨bridges_of_before ha hb, bridges_of_after ha hb⟩, plan_moved a b⟩

/-- A rectangle that takes up a box. -/
def tile (id : String) (box : Box Rat) : Element Rat :=
  let draft : Draft Rat := {
    kind := "rectangle", x := box.x, y := box.y
    width := some box.width, height := some box.height }
  draft.element .rectangle id 1 1 0

/-- Two rectangles side by side, the first one higher up and to the right: the route starts at
its left side and ends at the right side of the second. -/
theorem plan_laws_of_tiles :
    let a := tile "a" ⟨300, -20, 50, 30⟩
    let b := tile "b" ⟨0, 10, 100, 60⟩
    let route := Route.plan a b
    a.box.Proper ∧ b.box.Proper ∧ a.center ≠ b.center ∧ route.axis = .horizontal ∧
      route.axis.Before b.box a.box ∧
      route.Mirrors (Route.plan b a) ∧
      route.Bridges ⟨300, -5⟩ ⟨100, 40⟩ (route.axis.Gap b.box a.box) ∧
      Route.plan (a.moved ⟨7, -7⟩) (b.moved ⟨7, -7⟩) = route.moved ⟨7, -7⟩ := by
  intro a b route
  have ha : a.box.Proper := ⟨by decide +kernel, by decide +kernel⟩
  have hb : b.box.Proper := ⟨by decide +kernel, by decide +kernel⟩
  have hne : a.center ≠ b.center := by decide +kernel
  have haxis : route.axis = .horizontal := by decide +kernel
  have hbefore : route.axis.Before b.box a.box := by
    show route.axis.along (route.axis.trailing b.box) ≤ route.axis.along (route.axis.leading a.box)
    decide +kernel
  have hstart : route.axis.leading a.box = ⟨300, -5⟩ := by decide +kernel
  have hfinish : route.axis.trailing b.box = ⟨100, 40⟩ := by decide +kernel
  obtain ⟨-, -, hmirrors, -, -, hgap, hmoved⟩ := plan_laws a b
  have hbridges := (hgap ha hb).2 hbefore
  rw [hstart, hfinish] at hbridges
  exact ⟨ha, hb, hne, haxis, hbefore, hmirrors hne, hbridges, hmoved ⟨7, -7⟩⟩

end Whiteboard.Drawing
