import Whiteboard.Proofs.Drawing.Connected
import Whiteboard.Proofs.Drawing.Routes
import Whiteboard.Proofs.Geometry.Enclosing

/-!
# Whiteboard — where connectors run

A line or an arrow holds its points relative to its place, and its size is that of the smallest
box around them, but never less than one. In exact arithmetic nothing of this is lost: a
connector that was placed at the start of a route and given the difference to its end as its
last point ends where the route ends.

Main results:

* `Element.Connects.track` — a connector runs from the start of its route to the end.
* `Element.Connects.size` — and is as wide and as high as its ends are apart, or one.
-/

namespace Whiteboard.Drawing

/-- The size of two points with what is added so that it does not collapse. -/
theorem Draft.extent_pair (p q : Point Rat) :
    Draft.extent [p, q] = (max |q.x - p.x| 1, max |q.y - p.y| 1) := by
  have hone : (minExtent : Rat) = 1 := by
    show (1.0 : Rat) = 1
    norm_num
  obtain ⟨hwidth, hheight⟩ := Box.around_pair p q
  rw [Draft.extent, hone, hwidth, hheight, max_rat, max_rat]

/-! ## Tracks -/

/-- The points of a line or an arrow, as they lie in the plane. -/
def Element.track {S : Type} [Scalar S] (e : Element S) : Option (List (Point S)) :=
  e.shape.polyline?.map fun path => path.points.map fun p => ⟨e.x + p.x, e.y + p.y⟩

namespace Element.Connects

variable {c : Element Rat} {source target : Element Rat} {look : ConnectorLook}

/-- **The track of a connector.** It has two points, the ends of the route. -/
theorem track (h : c.Connects (.plan source target) look) :
    c.track = some [(Route.plan source target).start, (Route.plan source target).finish] := by
  have hspans := h.spans
  obtain ⟨path, hpath, hpoints⟩ := Option.map_eq_some_iff.mp hspans.points
  have hstart : ∀ a : Rat, a + 0.0 = a := by
    intro a
    norm_num
  have hfinish : ∀ a b : Rat, a + (b - a) = b := by
    intro a b
    ring
  rw [Element.track, hpath, Option.map_some, hpoints, hspans.x, hspans.y]
  simp only [List.map_cons, List.map_nil, hstart, hfinish]

/-- **The size of a connector.** It is as wide and as high as the ends of the route are apart,
but at least one. -/
theorem size (h : c.Connects (.plan source target) look) :
    c.width = max |(Route.plan source target).finish.x - (Route.plan source target).start.x| 1 ∧
      c.height =
        max |(Route.plan source target).finish.y - (Route.plan source target).start.y| 1 := by
  obtain ⟨shape, hshape, heq⟩ := h.shows
  generalize Route.plan source target = route at hshape heq ⊢
  -- of a line and of an arrow alike the size is that of the points
  have hsize : (route.draft look).size shape =
      Draft.extent [⟨0.0, 0.0⟩, ⟨route.finish.x - route.start.x,
        route.finish.y - route.start.y⟩] := by
    obtain ⟨plain, dashed, stroke⟩ := look
    cases plain
    · cases hshape
      rfl
    · cases hshape
      rfl
  have hwidth : c.width = ((route.draft look).size shape).1 := congrArg Element.width heq
  have hheight : c.height = ((route.draft look).size shape).2 := congrArg Element.height heq
  have hzero : ∀ a : Rat, a - 0.0 = a := by
    intro a
    norm_num
  rw [hsize, Draft.extent_pair] at hwidth hheight
  simp only [hzero] at hwidth hheight
  exact ⟨hwidth, hheight⟩

end Element.Connects

end Whiteboard.Drawing
