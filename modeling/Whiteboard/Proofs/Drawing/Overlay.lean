import Whiteboard.Proofs.Drawing.Appearance
import Whiteboard.Proofs.Drawing.Aspects

/-!
# Whiteboard — revisions overlay elements

Revising an element lays the revision over it: what the revision says of an aspect that the
element has counts, and everything else shows through. So of two revisions in a row the later
one wins where both say something, and they can be put together to one. What is drawn for the
history of the element — a version, a nonce and the time — comes anew with every revision and
is left out of the comparison.

Main results:

* `Element.revise_followedBy` — two revisions in a row are one.
* `Element.revise_onlyFor` — what a revision says of other kinds has no effect.
* `update_overlays` — the laws of overlays, whatever is drawn on the way.
-/

namespace Whiteboard.Drawing

variable {S : Type}

/-! ## Revisions in a row -/

namespace Revision

/-- What the later revision says, and where it says nothing, what the earlier one does. -/
def followedBy (u v : Revision S) : Revision S := .of fun a => (v.get a).or (u.get a)

@[simp] theorem get_followedBy (u v : Revision S) (a : Aspect) :
    (u.followedBy v).get a = (v.get a).or (u.get a) :=
  get_of _ a

@[simp] theorem followedBy_self (u : Revision S) : u.followedBy u = u :=
  ext_get fun a => by rw [get_followedBy, Option.or_self]

/-- The two revisions have nothing to say of the same aspect. -/
def Disjoint (u v : Revision S) : Prop := ∀ a, u.get a = none ∨ v.get a = none

/-- The order of revisions that say nothing of the same aspect does not matter. -/
theorem Disjoint.followedBy_comm {u v : Revision S} (h : u.Disjoint v) :
    u.followedBy v = v.followedBy u := by
  refine ext_get fun a => ?_
  rw [get_followedBy, get_followedBy]
  rcases h a with hu | hv
  · rw [hu, Option.or_none, Option.none_or]
  · rw [hv, Option.or_none, Option.none_or]

/-- What a revision says of the elements of a kind. -/
def onlyFor (kind : Kind) (u : Revision S) : Revision S :=
  .of fun a => if kind.has a then u.get a else none

end Revision

namespace Element

/-- **Two revisions in a row are one.** -/
theorem revise_followedBy (e : Element S) (u v : Revision S) :
    (e.revise u).revise v = e.revise (u.followedBy v) := by
  have hshape : v.onShape (u.onShape e.shape) = (u.followedBy v).onShape e.shape := by
    cases e.shape with
    | rectangle | ellipse | diamond => rfl
    | text body =>
      simp only [Revision.onShape, Revision.onText, Revision.followedBy, Revision.of,
        Revision.get, Option.getD_or]
    | line path | arrow path =>
      simp only [Revision.onShape, Revision.onPolyline, Revision.followedBy, Revision.of,
        Revision.get, Option.getD_or]
    | freedraw stroke =>
      simp only [Revision.onShape, Revision.onFreehand, Revision.followedBy, Revision.of,
        Revision.get, Option.getD_or, Option.map_or]
  simp only [revise, hshape]
  simp only [Revision.followedBy, Revision.of, Revision.get, Option.getD_or]

/-- **Aspects of other kinds have no effect.** -/
theorem revise_onlyFor (e : Element S) (u : Revision S) :
    e.revise (u.onlyFor e.kind) = e.revise u := by
  have hshape : (u.onlyFor e.kind).onShape e.shape = u.onShape e.shape := by
    unfold kind
    cases e.shape <;> rfl
  unfold revise
  rw [hshape]
  rfl

end Element

/-! ## What stays -/

/-- The last point of lines, arrows and freehand strokes that was committed. -/
def Shape.lastCommittedPoint? : Shape S → Option (Option (Point S))
  | .line path | .arrow path => some path.lastCommittedPoint
  | .freedraw stroke => some stroke.lastCommittedPoint
  | _ => none

/-- The new element has all that no revision can name as the old one had it, its history
apart. -/
structure Element.Keeps (old new : Element S) : Prop where
  id : new.id = old.id
  kind : new.kind = old.kind
  seed : new.seed = old.seed
  boundElements : new.boundElements = old.boundElements
  containerId : new.shape.text?.map TextBody.containerId =
    old.shape.text?.map TextBody.containerId
  lineHeight : new.shape.text?.map TextBody.lineHeight = old.shape.text?.map TextBody.lineHeight
  autoResize : new.shape.text?.map TextBody.autoResize = old.shape.text?.map TextBody.autoResize
  lastCommittedPoint : new.shape.lastCommittedPoint? = old.shape.lastCommittedPoint?

namespace Element

/-! ## The history apart -/

/-- An element without what every change of it refreshes. -/
def undated (e : Element S) : Element S := { e with version := 0, versionNonce := 0, updated := 0 }

/-- The element that a revision leads to, with what was drawn from a source. -/
def revised {G : Type} [IdSource G] (e : Element S) (u : Revision S) (now : Int64) (g : G) :
    Element S :=
  ((e.update now u).run g).1

variable {G : Type} [IdSource G]

theorem keeps_revised (e : Element S) (u : Revision S) (now : Int64) (g : G) :
    e.Keeps (e.revised u now g) := by
  have hshape : (e.revised u now g).shape = u.onShape e.shape := rfl
  refine ⟨rfl, e.kind_revise u, rfl, rfl, ?_, ?_, ?_, ?_⟩
  all_goals
    rw [hshape]
    cases e.shape <;> rfl

/-- What is drawn, and when, shows in the history only. -/
theorem undated_revised (e : Element S) (u : Revision S) (now : Int64) (g : G) :
    (e.revised u now g).undated = e.undated.revise u :=
  rfl

theorem undated_revised_revised (e : Element S) (u v : Revision S) (now now' : Int64) (g g' : G) :
    ((e.revised u now g).revised v now' g').undated = e.undated.revise (u.followedBy v) := by
  rw [undated_revised, undated_revised, revise_followedBy]

end Element

/-- **Revisions are overlays.** Of every aspect that an element has, a revision that says
anything of it decides, and the element stays as it is in all others. The history of the
element apart, which every revision refreshes:

* two revisions in a row are one, in which the later wins where both say something;
* revising twice in the same way is revising once;
* revisions that say nothing of the same aspect may change places;
* a revision that says nothing changes nothing.

The id, the kind, the seed, the attached connectors and whatever else no revision can name
stay, and what a revision says of aspects that the kind does not have makes no difference at
all, not even to what is drawn. -/
theorem update_overlays {G : Type} [IdSource G] (e : Element S) (u v : Revision S)
    (now now' now'' : Int64) (g g' g'' : G) :
    (∀ a, (e.revised u now g).get? a = (e.get? a).map fun old => (u.get a).getD old) ∧
    ((e.revised u now g).revised v now' g').undated =
      (e.revised (u.followedBy v) now'' g'').undated ∧
    ((e.revised u now g).revised u now' g').undated = (e.revised u now'' g'').undated ∧
    (u.Disjoint v → ((e.revised u now g).revised v now' g').undated =
      ((e.revised v now' g').revised u now g).undated) ∧
    (e.revised {} now g).undated = e.undated ∧
    e.Keeps (e.revised u now g) ∧
    (e.update now (u.onlyFor e.kind) : StateM G (Element S)) = e.update now u := by
  refine ⟨fun a => ?_, ?_, ?_, fun hdisjoint => ?_, ?_, ?_, ?_⟩
  · -- the history is no aspect
    have haspect : (e.revised u now g).get? a = (e.revise u).get? a := by cases a <;> rfl
    rw [haspect, e.get?_revise]
  · rw [Element.undated_revised_revised, Element.undated_revised]
  · rw [Element.undated_revised_revised, Element.undated_revised, Revision.followedBy_self]
  · rw [Element.undated_revised_revised, Element.undated_revised_revised,
      hdisjoint.followedBy_comm]
  · rw [Element.undated_revised, Element.revise_empty]
  · exact e.keeps_revised u now g
  · rw [Element.update, Element.update, e.revise_onlyFor]

/-- An arrow without a bend. -/
def shortArrow : Element Rat :=
  ({ kind := "arrow", x := 0, y := 0 } : Draft Rat).element
    (.arrow (({ kind := "arrow", x := 0, y := 0 } : Draft Rat).polyline (some .arrow))) "a" 1 2 0

theorem update_overlays_of_shortArrow :
    let u : Revision Rat := { x := some 5, points := some [⟨0, 0⟩, ⟨3, 4⟩], text := some "a" }
    let v : Revision Rat := { endArrowhead := some none, frameId := some (some "f") }
    let g := SequentialIds.fresh "a"
    u.Disjoint v ∧
      ((shortArrow.revised u 1 g).revised v 2 g).undated =
        ((shortArrow.revised v 2 g).revised u 1 g).undated ∧
      ((shortArrow.revised u 1 g).revised v 2 g).get? .points = some [⟨0, 0⟩, ⟨3, 4⟩] ∧
      ((shortArrow.revised u 1 g).revised v 2 g).get? .endArrowhead = some none ∧
      ((shortArrow.revised u 1 g).revised v 2 g).get? .text = none ∧
      ((shortArrow.revised u 1 g).revised v 2 g).version = 3 := by
  intro u v g
  have hdisjoint : u.Disjoint v := fun a => by
    cases a <;> first | exact Or.inl rfl | exact Or.inr rfl
  exact ⟨hdisjoint, (update_overlays shortArrow u v 1 2 0 g g g).2.2.2.1 hdisjoint, rfl, rfl, rfl,
    rfl⟩

end Whiteboard.Drawing
