import Whiteboard.Proofs.Drawing.AspectForms
import Whiteboard.Proofs.Drawing.Kept
import Whiteboard.Proofs.Drawing.RoundTrip

/-!
# Whiteboard — new elements are made again from their forms

The form of an element has the keys of a draft, so that it can be read as one. A draft that
comes from the form of a new element leaves nothing open: where a default would step in, the
form says what the default has led to before. This could go wrong in three ways. `null` must ask
for no rounding and no arrowhead instead of the usual ones; what creation cuts down or measures
must be as it is already; and what the form does not tell of the draft, such as the text before
it was wrapped, must follow from what it tells.

Main results:

* `Element.decode?_draft` — the form of a finite element is read as a draft.
* `Draft.element_draft` — the draft that the form of a new element is read as describes the
  same element.
* `create_again` — both together, with what is drawn.
-/

namespace Whiteboard.Drawing

open Decode
open Audit (keys_nodup record)
open Json (fieldTrees)

variable {S : Type} [Scalar S]

/-! ## Forms as drafts -/

omit [Scalar S] in
/-- The draft that the form of an element is read as. -/
def Element.draft (e : Element S) : Draft S where
  kind := Named.name e.kind
  id := some e.id
  x := e.x
  y := e.y
  width := e.get? .width
  height := e.get? .height
  angle := e.get? .angle
  strokeColor := e.get? .strokeColor
  backgroundColor := e.get? .backgroundColor
  fillStyle := e.get? .fillStyle
  strokeWidth := e.get? .strokeWidth
  strokeStyle := e.get? .strokeStyle
  roughness := e.get? .roughness
  opacity := e.get? .opacity
  roundness := e.get? .roundness
  groupIds := e.get? .groupIds
  frameId := e.frameId
  link := e.link
  locked := e.get? .locked
  text := e.get? .text
  fontSize := e.get? .fontSize
  fontFamily := e.get? .fontFamily
  textAlign := e.get? .textAlign
  verticalAlign := e.get? .verticalAlign
  points := e.get? .points
  startArrowhead := e.get? .startArrowhead
  endArrowhead := e.get? .endArrowhead
  pressures := e.get? .pressures

section

variable [Numeral S] [ExactNumeral S]

/-- **The form of a finite element is read as a draft.** -/
theorem Element.decode?_draft {e : Element S} (h : e.IsFinite) :
    Draft.decode? e.toJson.tree = some e.draft := by
  have hown : [("type", Json.named e.kind), ("id", .string e.id), ("x", Json.scalar e.x),
      ("y", Json.scalar e.y)] ⊆ record e := by
    simp [record, commonFields]
  obtain ⟨fs, hknown, hfs⟩ := exists_known? Draft.fieldNames (keys_nodup e) hown
    (by simp [Draft.fieldNames])
  have hname : text? (Json.named e.kind : Json S).tree = some (Named.name e.kind) := rfl
  have hkind : fs.defaulted? "type" "" text? = some (Named.name e.kind) :=
    hfs.defaulted? (by simp) hname ""
  have hid : optionally text? none (fs.get? "id") = some (some e.id) := by
    rw [hfs ("id", .string e.id) (by simp)]
    rfl
  have hx : fs.defaulted? "x" 0.0 scalar? = some e.x :=
    hfs.defaulted? (by simp) (scalar?_tree_of_exact h.x) _
  have hy : fs.defaulted? "y" 0.0 scalar? = some e.y :=
    hfs.defaulted? (by simp) (scalar?_tree_of_exact h.y) _
  -- all other keys of a draft are names of aspects
  have hread : ∀ a : Aspect, Named.name a ∈ Draft.fieldNames →
      a.read? (fs.get? (Named.name a)) = some (e.get? a) := fun a ha => read?_record h hknown ha
  -- a draft does not tell `null` from a missing key here
  have hframe : optionally text? none (fs.get? "frameId") = some e.frameId :=
    optionally_join (hread .frameId (by decide))
  have hlink : optionally text? none (fs.get? "link") = some e.link :=
    optionally_join (hread .link (by decide))
  show Draft.decode? (.object (fieldTrees (record e))) = some e.draft
  rw [Draft.decode?]
  simp only [optional?_eq, nullable?_eq]
  exact bind_eq_some_of hknown <| bind_eq_some_of hkind <| bind_eq_some_of hid <|
    bind_eq_some_of hx <| bind_eq_some_of hy <|
    bind_eq_some_of (hread .width (by decide)) <| bind_eq_some_of (hread .height (by decide)) <|
    bind_eq_some_of (hread .angle (by decide)) <|
    bind_eq_some_of (hread .strokeColor (by decide)) <|
    bind_eq_some_of (hread .backgroundColor (by decide)) <|
    bind_eq_some_of (hread .fillStyle (by decide)) <|
    bind_eq_some_of (hread .strokeWidth (by decide)) <|
    bind_eq_some_of (hread .strokeStyle (by decide)) <|
    bind_eq_some_of (hread .roughness (by decide)) <|
    bind_eq_some_of (hread .opacity (by decide)) <|
    bind_eq_some_of (hread .roundness (by decide)) <|
    bind_eq_some_of (hread .groupIds (by decide)) <| bind_eq_some_of hframe <|
    bind_eq_some_of hlink <| bind_eq_some_of (hread .locked (by decide)) <|
    bind_eq_some_of (hread .text (by decide)) <| bind_eq_some_of (hread .fontSize (by decide)) <|
    bind_eq_some_of (hread .fontFamily (by decide)) <|
    bind_eq_some_of (hread .textAlign (by decide)) <|
    bind_eq_some_of (hread .verticalAlign (by decide)) <|
    bind_eq_some_of (hread .points (by decide)) <|
    bind_eq_some_of (hread .startArrowhead (by decide)) <|
    bind_eq_some_of (hread .endArrowhead (by decide)) <|
    bind_eq_some_of (hread .pressures (by decide)) rfl

end

/-! ## Made again -/

section

variable {d : Draft S} {shape : Shape S} (hshape : d.shape? = some shape) (id : String)
  (seed nonce : UInt32) (now : Int64)

include hshape

/-- What follows from the draft in a shape follows from the shape as well. -/
theorem Draft.shape?_draft : (d.element shape id seed nonce now).draft.shape? = some shape := by
  unfold Draft.shape? at hshape
  -- the seven kinds that can be drafted, and those that cannot
  split at hshape <;> cases hshape <;> rfl

/-- Outlines and texts are as large as the form says, all others as their points. -/
theorem Draft.size_draft :
    (d.element shape id seed nonce now).draft.size shape = d.size shape := by
  unfold Draft.shape? at hshape
  split at hshape <;> cases hshape <;> rfl

/-- **The draft that the form of a new element is read as describes the element**, but for
its identity and the time. -/
theorem Draft.element_draft (id' : String) (seed' nonce' : UInt32) (now' : Int64) :
    (d.element shape id seed nonce now).draft.element shape id' seed' nonce' now' =
      d.element shape id' seed' nonce' now' := by
  have hsize := Draft.size_draft hshape id seed nonce now
  -- an opacity that was cut down is not cut down any further
  have hopacity : min (min (d.opacity.getD maxOpacity) maxOpacity) maxOpacity =
      min (d.opacity.getD maxOpacity) maxOpacity := by grind
  unfold Draft.element at hsize ⊢
  -- the opacity is settled by the last fact, and all but the size by computation
  congr 1
  · exact congrArg Prod.fst hsize
  · exact congrArg Prod.snd hsize

end

/-- A draft that names an id draws a seed and a nonce and nothing else. -/
theorem create_yields_of_id {H : Type} [IdSource H] (now : Int64) {d : Draft S} {shape : Shape S}
    (hshape : d.shape? = some shape) {id : String} (hid : d.id = some id) {h h₁ h₂ : H}
    {seed nonce : UInt32} (hseed : IdSource.nextSeed.run h = (seed, h₁))
    (hnonce : IdSource.nextNonce.run h₁ = (nonce, h₂)) :
    Yields (d.create now) h [] (d.element shape id seed nonce now) h₂ := by
  have hdraw : Yields (draw d.drawId) h [] id h := by
    rw [Draft.drawId, hid]
    exact yields_draw rfl (.nothing h)
  have hissued : Issues h [] (IdSource.nextSeed.run h).2 := .seed (.nothing _)
  have hissued' : Issues h₁ [] (IdSource.nextNonce.run h₁).2 := .nonce (.nothing _)
  rw [hseed] at hissued
  rw [hnonce] at hissued'
  rw [Draft.create, hshape]
  exact hdraw.bind ((yields_draw hseed hissued).bind ((yields_draw hnonce hissued').bind
    (.pure _ _)))

/-- **New elements are made again from their forms.** Let any draft be made into an element of
finite numbers. The form of the element, as a tree and in both texts, is read as a draft, and
whenever this draft is made into an element, with whatever source: it is, it draws no id but a
seed and a nonce only, and the element is the same as before but for these two and the time. -/
theorem create_again {G H : Type} [IdSource G] [IdSource H] [Numeral S] [ExactNumeral S]
    {d : Draft S} {now : Int64} {e : Element S} {g g' : G}
    (hcreate : (d.create now).run.run g = (.ok e, g')) (he : e.IsFinite) :
    ∃ d' : Draft S, Draft.decode? e.toJson.tree = some d' ∧
      Draft.read? e.toJson.compact = some d' ∧ Draft.read? e.toJson.pretty = some d' ∧
      ∀ (now' : Int64) (h : H), ∃ seed nonce h₁ h₂,
        IdSource.nextSeed.run h = (seed, h₁) ∧ IdSource.nextNonce.run h₁ = (nonce, h₂) ∧
        Yields (d'.create now') h []
          { e with seed := seed, versionNonce := nonce, updated := now' } h₂ := by
  have hdecode := Element.decode?_draft he
  obtain ⟨hcompact, hpretty⟩ := e.read?_bind hdecode
  refine ⟨e.draft, hdecode, hcompact, hpretty, fun now' h => ?_⟩
  obtain ⟨seed, h₁, hseed⟩ : ∃ seed h₁, IdSource.nextSeed.run h = (seed, h₁) := ⟨_, _, rfl⟩
  obtain ⟨nonce, h₂, hnonce⟩ : ∃ nonce h₂, IdSource.nextNonce.run h₁ = (nonce, h₂) := ⟨_, _, rfl⟩
  refine ⟨seed, nonce, h₁, h₂, hseed, hnonce, ?_⟩
  obtain ⟨shape, id, seed₀, nonce₀, hshape, rfl⟩ := Draft.create_eq_ok hcreate
  have hagain := create_yields_of_id now' (Draft.shape?_draft hshape id seed₀ nonce₀ now) rfl
    hseed hnonce
  rw [Draft.element_draft hshape] at hagain
  exact hagain

/-- A draft of an arrow without heads, more than opaque and not rounded. -/
def plainArrow : Draft Tenths where
  kind := "arrow"
  x := ⟨-3⟩
  y := ⟨40⟩
  opacity := some 255
  roundness := some none
  points := some [⟨⟨0⟩, ⟨0⟩⟩, ⟨⟨-125⟩, ⟨4⟩⟩]
  endArrowhead := some none

theorem create_again_of_plainArrow :
    let g := SequentialIds.fresh "a"
    ∃ e g' d', (plainArrow.create 5).run.run g = (.ok e, g') ∧ e.IsFinite ∧
      Draft.read? e.toJson.compact = some d' ∧ e.id = SequentialIds.idAt "a" 1 ∧ e.opacity = 100 ∧
      e.height = ⟨10⟩ ∧
      Yields (d'.create 8) (SequentialIds.fresh "b") []
        { e with seed := 1, versionNonce := 2, updated := 8 } ⟨"b", 0, 2⟩ := by
  intro g
  obtain ⟨e, g', hrun, hid, hopacity, hheight⟩ : ∃ e g',
      (plainArrow.create 5).run.run g = (.ok e, g') ∧ e.id = SequentialIds.idAt "a" 1 ∧
        e.opacity = 100 ∧ e.height = ⟨10⟩ := ⟨_, _, rfl, rfl, rfl, rfl⟩
  have hfinite : e.IsFinite := Element.isFinite_of_forall (fun _ => rfl) e
  obtain ⟨d', -, hread, -, hagain⟩ := create_again (H := SequentialIds) hrun hfinite
  obtain ⟨seed, nonce, h₁, h₂, hseed, hnonce, hyields⟩ := hagain 8 (SequentialIds.fresh "b")
  cases hseed
  cases hnonce
  exact ⟨e, g', d', hrun, hfinite, hread, hid, hopacity, hheight, hyields⟩

end Whiteboard.Drawing
