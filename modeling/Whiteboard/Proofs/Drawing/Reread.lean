import Whiteboard.Proofs.Drawing.Encoded

/-!
# Whiteboard — documents whose numbers are read again

What comes back from the text of a document is the document with every number as the reader
makes it of its digits; all else is as it was. The roundings of a reader are the only thing that
stands between a document and what is read back of it, and where the reader is exact, nothing
does.

Main results:

* `Element.reread_eq`, `Document.reread_eq` — where reading is exact, finite numbers are read as
  they are.
-/

namespace Whiteboard

variable {S : Type} [Numeral S]

/-! ## Parts -/

def Point.reread (p : Point S) : Point S := ⟨Numeral.reread p.x, Numeral.reread p.y⟩

namespace Drawing

def Roundness.reread (r : Roundness S) : Roundness S :=
  { r with value := r.value.map Numeral.reread }

def Binding.reread (b : Binding S) : Binding S :=
  { b with focus := Numeral.reread b.focus, gap := Numeral.reread b.gap }

def TextBody.reread (body : TextBody S) : TextBody S :=
  { body with
    fontSize := Numeral.reread body.fontSize
    lineHeight := Numeral.reread body.lineHeight }

def Polyline.reread (path : Polyline S) : Polyline S :=
  { path with
    points := path.points.map Point.reread
    lastCommittedPoint := path.lastCommittedPoint.map Point.reread
    startBinding := path.startBinding.map Binding.reread
    endBinding := path.endBinding.map Binding.reread }

def Freehand.reread (stroke : Freehand S) : Freehand S :=
  { stroke with
    points := stroke.points.map Point.reread
    pressures := stroke.pressures.map Numeral.reread
    lastCommittedPoint := stroke.lastCommittedPoint.map Point.reread }

def Shape.reread : Shape S → Shape S
  | .text body => .text body.reread
  | .line path => .line path.reread
  | .arrow path => .arrow path.reread
  | .freedraw stroke => .freedraw stroke.reread
  | outline => outline

/-! ## Elements and documents -/

/-- An element with its numbers read again. -/
def Element.reread (e : Element S) : Element S :=
  { e with
    shape := e.shape.reread
    x := Numeral.reread e.x
    y := Numeral.reread e.y
    width := Numeral.reread e.width
    height := Numeral.reread e.height
    angle := Numeral.reread e.angle
    strokeWidth := Numeral.reread e.strokeWidth
    roundness := e.roundness.map Roundness.reread }

def Canvas.reread (c : Canvas S) : Canvas S := { c with gridSize := c.gridSize.map Numeral.reread }

/-- A document with its numbers read again, those of its files included. -/
def Document.reread (d : Document S) : Document S :=
  { d with
    elements := d.elements.map Element.reread
    canvas := d.canvas.reread
    files := Json.rereadFields d.files }

end Drawing

/-! ## Exact readers -/

variable [Scalar S] [ExactNumeral S]

theorem option_map_eq_self {α : Type} {f : α → α} {a? : Option α} (h : ∀ a ∈ a?, f a = a) :
    a?.map f = a? :=
  (Option.map_congr h).trans (congrFun Option.map_id a?)

theorem Point.reread_eq {p : Point S} (h : p.IsFinite) : p.reread = p := by
  rw [Point.reread, ExactNumeral.reread_eq h.1, ExactNumeral.reread_eq h.2]

theorem map_reread_points {ps : List (Point S)} (h : ∀ p ∈ ps, p.IsFinite) :
    ps.map Point.reread = ps :=
  map_eq_self fun p hp => Point.reread_eq (h p hp)

namespace Drawing

theorem Roundness.reread_eq {r : Roundness S} (h : ∀ x ∈ r.value, Scalar.isFinite x = true) :
    r.reread = r := by
  rw [Roundness.reread, option_map_eq_self fun x hx => ExactNumeral.reread_eq (h x hx)]

theorem Binding.reread_eq {b : Binding S} (h : b.IsFinite) : b.reread = b := by
  rw [Binding.reread, ExactNumeral.reread_eq h.1, ExactNumeral.reread_eq h.2]

theorem Polyline.reread_eq {path : Polyline S} (h : path.IsFinite) : path.reread = path := by
  rw [Polyline.reread, map_reread_points h.points,
    option_map_eq_self fun p hp => Point.reread_eq (h.lastCommittedPoint p hp),
    option_map_eq_self fun b hb => Binding.reread_eq (h.startBinding b hb),
    option_map_eq_self fun b hb => Binding.reread_eq (h.endBinding b hb)]

theorem Freehand.reread_eq {stroke : Freehand S} (h : stroke.IsFinite) :
    stroke.reread = stroke := by
  have hpressures : stroke.pressures.map Numeral.reread = stroke.pressures :=
    map_eq_self fun x hx => ExactNumeral.reread_eq (h.pressures x hx)
  rw [Freehand.reread, map_reread_points h.points, hpressures,
    option_map_eq_self fun p hp => Point.reread_eq (h.lastCommittedPoint p hp)]

theorem Shape.reread_eq {s : Shape S} (h : s.IsFinite) : s.reread = s := by
  cases s with
  | rectangle | ellipse | diamond => rfl
  | text body =>
    rw [Shape.reread, TextBody.reread, ExactNumeral.reread_eq h.1, ExactNumeral.reread_eq h.2]
  | line path | arrow path => rw [Shape.reread, Polyline.reread_eq h]
  | freedraw stroke => rw [Shape.reread, Freehand.reread_eq h]

/-- **A finite element is read as it is**, where reading is exact. -/
theorem Element.reread_eq {e : Element S} (h : e.IsFinite) : e.reread = e := by
  rw [Element.reread, Shape.reread_eq h.shape, ExactNumeral.reread_eq h.x,
    ExactNumeral.reread_eq h.y, ExactNumeral.reread_eq h.width, ExactNumeral.reread_eq h.height,
    ExactNumeral.reread_eq h.angle, ExactNumeral.reread_eq h.strokeWidth,
    option_map_eq_self fun r hr => Roundness.reread_eq (h.roundness r hr)]

/-- **So is a finite document.** -/
theorem Document.reread_eq {d : Document S} (h : d.IsFinite) : d.reread = d := by
  have helements : d.elements.map Element.reread = d.elements :=
    map_eq_self fun e he => Element.reread_eq (h.elements e he)
  have hfiles : Json.object (Json.rereadFields d.files) = Json.object d.files := by
    rw [← Json.reread, Json.reread_eq h.files]
  rw [Document.reread, helements, Canvas.reread,
    option_map_eq_self fun x hx => ExactNumeral.reread_eq (h.gridSize x hx), Json.object.inj hfiles]

end Drawing

end Whiteboard
