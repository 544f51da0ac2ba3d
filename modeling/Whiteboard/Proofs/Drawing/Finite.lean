import Whiteboard.Drawing.Wire

/-!
# Whiteboard — documents of finite numbers

A scalar that is not finite has no JSON form, so what is said about the wire form
of a document is said about one whose numbers are finite. In exact arithmetic every
number is.

Main results:

* `Element.isFinite_of_forall` — where every scalar is finite, so are the numbers of
  every element; `Element.isFinite_rat` is the case of exact arithmetic.
-/

namespace Whiteboard

variable {S : Type} [Scalar S]

/-- Both coordinates are finite. -/
def Point.IsFinite (p : Point S) : Prop :=
  Scalar.isFinite p.x = true ∧ Scalar.isFinite p.y = true

namespace Drawing

/-- Both numbers of a binding are finite. -/
def Binding.IsFinite (b : Binding S) : Prop :=
  Scalar.isFinite b.focus = true ∧ Scalar.isFinite b.gap = true

/-- All numbers of a polyline are finite. -/
structure Polyline.IsFinite (path : Polyline S) : Prop where
  points : ∀ p ∈ path.points, p.IsFinite
  lastCommittedPoint : ∀ p ∈ path.lastCommittedPoint, p.IsFinite
  startBinding : ∀ b ∈ path.startBinding, b.IsFinite
  endBinding : ∀ b ∈ path.endBinding, b.IsFinite

/-- All numbers of a freehand stroke are finite. -/
structure Freehand.IsFinite (stroke : Freehand S) : Prop where
  points : ∀ p ∈ stroke.points, p.IsFinite
  pressures : ∀ pressure ∈ stroke.pressures, Scalar.isFinite pressure = true
  lastCommittedPoint : ∀ p ∈ stroke.lastCommittedPoint, p.IsFinite

/-- All numbers that a shape carries are finite. -/
def Shape.IsFinite : Shape S → Prop
  | .rectangle | .ellipse | .diamond => True
  | .text body => Scalar.isFinite body.fontSize = true ∧ Scalar.isFinite body.lineHeight = true
  | .line path | .arrow path => path.IsFinite
  | .freedraw stroke => stroke.IsFinite

/-- All numbers of an element are finite. -/
structure Element.IsFinite (e : Element S) : Prop where
  shape : e.shape.IsFinite
  x : Scalar.isFinite e.x = true
  y : Scalar.isFinite e.y = true
  width : Scalar.isFinite e.width = true
  height : Scalar.isFinite e.height = true
  angle : Scalar.isFinite e.angle = true
  strokeWidth : Scalar.isFinite e.strokeWidth = true
  roundness : ∀ r ∈ e.roundness, ∀ value ∈ r.value, Scalar.isFinite value = true

/-! Whether the numbers are finite can be found out. -/

instance (p : Point S) : Decidable p.IsFinite := inferInstanceAs (Decidable (_ ∧ _))

instance (b : Binding S) : Decidable b.IsFinite := inferInstanceAs (Decidable (_ ∧ _))

instance (path : Polyline S) : Decidable path.IsFinite :=
  decidable_of_iff ((∀ p ∈ path.points, p.IsFinite) ∧ (∀ p ∈ path.lastCommittedPoint, p.IsFinite) ∧
      (∀ b ∈ path.startBinding, b.IsFinite) ∧ ∀ b ∈ path.endBinding, b.IsFinite)
    ⟨fun ⟨hpoints, hlast, hstart, hend⟩ => ⟨hpoints, hlast, hstart, hend⟩,
      fun h => ⟨h.points, h.lastCommittedPoint, h.startBinding, h.endBinding⟩⟩

instance (stroke : Freehand S) : Decidable stroke.IsFinite :=
  decidable_of_iff ((∀ p ∈ stroke.points, p.IsFinite) ∧
      (∀ x ∈ stroke.pressures, Scalar.isFinite x = true) ∧
      ∀ p ∈ stroke.lastCommittedPoint, p.IsFinite)
    ⟨fun ⟨hpoints, hpressures, hlast⟩ => ⟨hpoints, hpressures, hlast⟩,
      fun h => ⟨h.points, h.pressures, h.lastCommittedPoint⟩⟩

instance (s : Shape S) : Decidable s.IsFinite :=
  match s with
  | .rectangle | .ellipse | .diamond => .isTrue trivial
  | .text _ => inferInstanceAs (Decidable (_ ∧ _))
  | .line path | .arrow path => inferInstanceAs (Decidable path.IsFinite)
  | .freedraw stroke => inferInstanceAs (Decidable stroke.IsFinite)

instance (e : Element S) : Decidable e.IsFinite :=
  decidable_of_iff (e.shape.IsFinite ∧ Scalar.isFinite e.x = true ∧ Scalar.isFinite e.y = true ∧
      Scalar.isFinite e.width = true ∧ Scalar.isFinite e.height = true ∧
      Scalar.isFinite e.angle = true ∧ Scalar.isFinite e.strokeWidth = true ∧
      ∀ r ∈ e.roundness, ∀ value ∈ r.value, Scalar.isFinite value = true)
    ⟨fun ⟨hshape, hx, hy, hwidth, hheight, hangle, hstroke, hround⟩ =>
        ⟨hshape, hx, hy, hwidth, hheight, hangle, hstroke, hround⟩,
      fun h => ⟨h.shape, h.x, h.y, h.width, h.height, h.angle, h.strokeWidth, h.roundness⟩⟩

/-- Where every scalar is finite, every element has finite numbers only. -/
theorem Element.isFinite_of_forall (h : ∀ x : S, Scalar.isFinite x = true) (e : Element S) :
    e.IsFinite := by
  have hpoint : ∀ p : Point S, p.IsFinite := fun p => ⟨h p.x, h p.y⟩
  have hbinding : ∀ b : Binding S, b.IsFinite := fun b => ⟨h b.focus, h b.gap⟩
  have hshape : e.shape.IsFinite := by
    cases e.shape with
    | rectangle | ellipse | diamond => trivial
    | text body => exact ⟨h _, h _⟩
    | line path | arrow path =>
      exact ⟨fun p _ => hpoint p, fun p _ => hpoint p, fun b _ => hbinding b,
        fun b _ => hbinding b⟩
    | freedraw stroke => exact ⟨fun p _ => hpoint p, fun x _ => h x, fun p _ => hpoint p⟩
  exact ⟨hshape, h _, h _, h _, h _, h _, h _, fun _ _ _ _ => h _⟩

/-- In exact arithmetic every element has finite numbers only. -/
theorem Element.isFinite_rat (e : Element Rat) : e.IsFinite :=
  Element.isFinite_of_forall (fun _ => rfl) e

end Drawing

end Whiteboard
