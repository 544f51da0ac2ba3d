import Whiteboard.Proofs.Audit.WireDocument
import Whiteboard.Proofs.Drawing.Linked

/-!
# Whiteboard — editing a document

A document grows from an empty one by edits: elements are created and connected, revised
and marked as changed, in any order. An edit may fail — there is no element with an id, an
element is to be connected to itself, a draft names no kind — and then leaves the document
as it was. As long as the source of ids does not repeat itself, and ids and bindings are
left to the library, every document on the way is linked.

Main results:

* `Edit.outcome` — what one edit does to ids and links, whether it fails or not.
* `perform_sound` — one edit keeps a document sound.
* `edit_linked` — so do any number of edits, and the audit of what they lead to has no
  warning about ids or references.
-/

namespace Whiteboard.Drawing

variable {S : Type} [Scalar S] {G : Type} [IdSource G]

/-! ## Edits -/

/-- A change that a user makes to a document. -/
inductive Edit (S : Type) where
  /-- Puts the element that a draft describes on top. -/
  | create (draft : Draft S)
  /-- Connects the elements with two ids. -/
  | connect (source target : String) (look : ConnectorLook)
  /-- Revises the element with an id. -/
  | revise (id : String) (u : Revision S)
  /-- Marks the element with an id as changed. -/
  | bump (id : String)

namespace Edit

/-- The document after an edit, or the reason why there is none. -/
def apply (now : Int64) (d : Document S) : Edit S → Draws G (Document S)
  | .create draft => do return d.push (← draft.create now)
  | .connect source target look => do return (← d.connect now source target look).2
  | .revise id u => do return (← d.revise now id u).2
  | .bump id => do
    let old ← settle (d.get id)
    let next ← draw (old.bump now)
    return (← settle (d.replace next)).2

/-- The document after an edit; one that fails leaves it as it was. -/
def perform (now : Int64) (d : Document S) (edit : Edit S) : StateM G (Document S) := do
  match ← (edit.apply now d).run with
  | .ok edited => return edited
  | .error _ => return d

/-- An edit is made, or nothing happens to the document. -/
theorem run_perform (now : Int64) (d : Document S) (edit : Edit S) (g : G) :
    (edit.perform now d).run g = ((((edit.apply now d).run.run g).1.toOption.getD d),
      ((edit.apply now d).run.run g).2) := by
  unfold perform
  rw [StateT.run_bind]
  show StateT.run (match ((edit.apply now d).run.run g).1 with
    | .ok edited => pure edited
    | .error _ => pure d) _ = _
  cases ((edit.apply now d).run.run g).1 <;> rfl

/-- An edit that leaves ids and bindings to the library. -/
def IsPlain : Edit S → Prop
  | .create draft => draft.id = none
  | .revise _ u => u.startBinding = none ∧ u.endBinding = none
  | .connect .. | .bump _ => True

end Edit

/-- The document after edits, each at its time. -/
def Document.edit (d : Document S) (steps : List (Int64 × Edit S)) : StateM G (Document S) :=
  steps.foldlM (fun d step => step.2.perform step.1 d) d

theorem Document.run_edit_cons (d : Document S) (step : Int64 × Edit S)
    (steps : List (Int64 × Edit S)) (g : G) :
    (d.edit (step :: steps)).run g = (((step.2.perform step.1 d).run g).1.edit steps).run
      ((step.2.perform step.1 d).run g).2 := by
  unfold Document.edit
  rw [List.foldlM_cons, StateT.run_bind]
  rfl

/-! ## Links of new and changed elements -/

/-- A new element is bound to nothing. -/
theorem Element.IsNew.targets_eq_nil {e : Element S} {draft : Draft S} (h : e.IsNew draft) :
    e.targets = [] := by
  have hshape := h.shape
  unfold Draft.shape? at hshape
  unfold targets
  generalize e.shape = shape at hshape ⊢
  -- kind by kind, as the draft describes it
  split at hshape
  all_goals cases hshape
  all_goals rfl

omit [Scalar S] in
/-- A revision that leaves the bindings alone changes no link. -/
theorem Element.links_revise {u : Revision S} (hstart : u.startBinding = none)
    (hend : u.endBinding = none) (e : Element S) : (e.revise u).links = e.links := by
  have htargets : (e.revise u).targets = e.targets := by
    unfold targets revise
    cases e.shape with
    | line path | arrow path =>
      simp only [Revision.onShape, Shape.polyline?, Revision.onPolyline, hstart, hend,
        Option.getD_none]
    | rectangle | ellipse | diamond | text | freedraw => rfl
  rw [links, links, htargets]
  exact congrArg (Links.mk e.id · e.targets e.boundElements) (e.kind_revise u)

omit [Scalar S] in
/-- Marking an element as changed draws no id and changes no link. -/
theorem bump_yields (now : Int64) (e : Element S) (g : G) :
    ∃ next g', Yields (draw (e.bump now)) g [] next g' ∧ next.links = e.links :=
  ⟨_, _, yields_draw rfl (drawNonce_issues e.versionNonce g), rfl⟩

/-! ## What an edit does -/

/-- Work fails, and draws no id before it does. -/
def Fails {α : Type} (act : Draws G α) (g g' : G) : Prop :=
  (∃ e, act.run.run g = (.error e, g')) ∧ Issues g [] g'

theorem fails_throw {α : Type} (e : Error) (g : G) : Fails (throw e : Draws G α) g g :=
  ⟨⟨e, rfl⟩, .nothing g⟩

/-- Work fails where its first part does. -/
theorem Fails.bind {α β : Type} {act : Draws G α} {g g' : G} (h : Fails act g g')
    (next : α → Draws G β) : Fails (act >>= next) g g' := by
  obtain ⟨⟨e, hrun⟩, hissued⟩ := h
  exact ⟨⟨e, run_bind_of_error hrun next⟩, hissued⟩

/-- An edit fails and draws no id, or it succeeds: the ids that it draws are those of the
elements that it puts on top, and a linked document stays linked if they are new. -/
def Edit.Outcome (act : Draws G (Document S)) (d : Document S) (g : G) : Prop :=
  (∃ g', Fails act g g') ∨
  ∃ ids edited g', Yields act g ids edited g' ∧ edited.ids = d.ids ++ ids ∧
    (edited.ids.Nodup → Linked edited.elements)

theorem create_outcome (now : Int64) {d : Document S} (hlinked : Linked d.elements)
    {draft : Draft S} (hid : draft.id = none) (g : G) :
    Edit.Outcome ((Edit.create draft).apply now d) d g := by
  cases hshape : draft.shape? with
  | none =>
    have hthrow : draft.create (G := G) now = throw (.unknownKind draft.kind) := by
      rw [Draft.create, hshape]
    refine Or.inl ⟨g, ?_⟩
    rw [Edit.apply, hthrow]
    exact (fails_throw _ g).bind _
  | some shape =>
    obtain ⟨e, g', hcreate, hnew⟩ := create_yields now hshape hid g
    refine Or.inr ⟨[e.id], d.push e, g', hcreate.bind (.pure _ _), ?_, fun _ => ?_⟩
    · simp [Document.ids, Document.push]
    · exact hlinked.push hnew.targets_eq_nil hnew.unbound

theorem connect_outcome (now : Int64) {d : Document S} (hlinked : Linked d.elements)
    (hnodup : d.ids.Nodup) (source target : String) (look : ConnectorLook) (g : G) :
    Edit.Outcome ((Edit.connect source target look).apply now d) d g := by
  cases hpair : d.pair source target with
  | error e =>
    -- an id is missing, or both are one: nothing is drawn
    have hthrow : d.connect (G := G) now source target look = throw e := by
      rw [Document.connect, hpair]
    refine Or.inl ⟨g, ?_⟩
    rw [Edit.apply, hthrow]
    exact (fails_throw e g).bind _
  | ok p =>
    -- the two places differ, and so do the ids that stand there
    obtain ⟨hfirst, hsecond⟩ := Document.pair_eq_ok_iff.mp hpair
    have hsource : p.firstElement.id = source := Document.id_of_place? hfirst
    have htarget : p.secondElement.id = target := Document.id_of_place? hsecond
    have hne : p.firstElement.id ≠ p.secondElement.id := fun heq =>
      p.distinct (Document.eq_of_id_eq hnodup heq)
    have hsmem : p.firstElement ∈ d.elements := List.get_mem _ _
    have htmem : p.secondElement ∈ d.elements := List.get_mem _ _
    obtain ⟨c, source', target', g', hyields, hconnects, hsourceNoted, htargetNoted⟩ :=
      connect_yields now hnodup hsmem htmem hne look g
    rw [hsource, htarget] at hyields
    refine Or.inr ⟨[c.id], _, g', hyields.bind (.pure _ _), ?_, fun hnodup' => ?_⟩
    · simp only [Document.ids, List.map_append, Document.ids_replacing, List.map_cons,
        List.map_nil]
    · -- the id of the connector is none of the ids that were there
      have hfresh : c.id ∉ d.elements.map Element.id := by
        rw [Document.ids, List.map_append, Document.ids_replacing] at hnodup'
        intro hmem
        exact (List.nodup_append.mp hnodup').2.2 _ hmem _ (by simp) rfl
      exact hlinked.connect hnodup hsmem htmem hne hconnects hfresh hsourceNoted htargetNoted

omit [Scalar S] in
/-- An element that takes the place of one with the same links leaves a document linked. -/
theorem replace_outcome {d : Document S} (hlinked : Linked d.elements) {id : String}
    {old next : Element S} (hold : d.get? id = some old) (hlinks : next.links = old.links)
    (g : G) :
    ∃ edited, Yields (settle (d.replace next)) g [] (old, edited) g ∧ edited.ids = d.ids ∧
      Linked edited.elements := by
  obtain ⟨i, hget, hreplace⟩ := Document.exists_replace hold (congrArg Links.id hlinks)
  rw [← hget] at hlinks
  refine ⟨d.setAt i next, yields_settle hreplace g, ?_, ?_⟩
  · exact Document.ids_setAt (congrArg Links.id hlinks)
  · exact hlinked.of_links_eq (Document.map_setAt hlinks).symm

omit [Scalar S] in
/-- Looking an element up draws nothing, whether there is one or not. -/
theorem get_outcome (d : Document S) (id : String) (g : G) :
    (∃ g', Fails (settle (d.get id)) g g') ∨
      ∃ old, d.get? id = some old ∧ Yields (settle (d.get id)) g [] old g := by
  unfold Document.get
  cases hget : d.get? id with
  | none => exact Or.inl ⟨g, ⟨_, rfl⟩, .nothing g⟩
  | some old => exact Or.inr ⟨old, rfl, yields_settle rfl g⟩

theorem revise_outcome (now : Int64) {d : Document S} (hlinked : Linked d.elements) (id : String)
    {u : Revision S} (hstart : u.startBinding = none) (hend : u.endBinding = none) (g : G) :
    Edit.Outcome ((Edit.revise id u).apply now d) d g := by
  rcases get_outcome d id g with ⟨g', hfails⟩ | ⟨old, hold, hget⟩
  · exact Or.inl ⟨g', (hfails.bind _).bind _⟩
  · obtain ⟨next, g', hbump, hlinks⟩ := bump_yields now (old.revise u) g
    rw [Element.links_revise hstart hend] at hlinks
    obtain ⟨edited, hreplace, hids, hedited⟩ := replace_outcome hlinked hold hlinks g'
    have hrevise : Yields (d.revise now id u) g [] (next, edited) g' := by
      unfold Document.revise
      exact hget.bind (hbump.bind (hreplace.bind (.pure _ _)))
    refine Or.inr ⟨[], edited, g', ?_, by rw [hids, List.append_nil], fun _ => hedited⟩
    exact hrevise.bind (.pure _ _)

theorem bump_outcome (now : Int64) {d : Document S} (hlinked : Linked d.elements) (id : String)
    (g : G) : Edit.Outcome ((Edit.bump id : Edit S).apply now d) d g := by
  rcases get_outcome d id g with ⟨g', hfails⟩ | ⟨old, hold, hget⟩
  · exact Or.inl ⟨g', hfails.bind _⟩
  · obtain ⟨next, g', hbump, hlinks⟩ := bump_yields now old g
    obtain ⟨edited, hreplace, hids, hedited⟩ := replace_outcome hlinked hold hlinks g'
    refine Or.inr ⟨[], edited, g', ?_, by rw [hids, List.append_nil], fun _ => hedited⟩
    exact hget.bind (hbump.bind (hreplace.bind (.pure _ _)))

/-- **One edit.** Whatever an edit is asked to do, it fails without drawing an id, or it
puts elements with the ids that it draws on top and keeps a linked document linked. -/
theorem Edit.outcome (now : Int64) {d : Document S} (hlinked : Linked d.elements)
    (hnodup : d.ids.Nodup) {edit : Edit S} (hplain : edit.IsPlain) (g : G) :
    Edit.Outcome (edit.apply now d) d g := by
  cases edit with
  | create draft => exact create_outcome now hlinked hplain g
  | connect source target look => exact connect_outcome now hlinked hnodup source target look g
  | revise id u => exact revise_outcome now hlinked id hplain.1 hplain.2 g
  | bump id => exact bump_outcome now hlinked id g

/-! ## Any number of edits -/

/-- A document whose elements carry exactly the ids that were drawn, each of them once,
and are linked. -/
structure Sound (g₀ : G) (d : Document S) (g : G) : Prop where
  issued : Issues g₀ d.ids g
  linked : Linked d.elements

/-- **One step.** An edit keeps a document sound, whether it fails or not. -/
theorem perform_sound (now : Int64) {g₀ g : G} (hg : NeverRepeats g₀) {d : Document S}
    (h : Sound g₀ d g) {edit : Edit S} (hplain : edit.IsPlain) :
    Sound g₀ ((edit.perform now d).run g).1 ((edit.perform now d).run g).2 := by
  have hrun := edit.run_perform now d g
  rcases Edit.outcome now h.linked (hg _ _ h.issued) hplain g with
    ⟨g', ⟨e, hfails⟩, hissued⟩ | ⟨ids, edited, g', ⟨hyields, hissued⟩, hids, hlinked⟩
  · -- the document stays, and no id was drawn
    rw [hrun, hfails]
    refine ⟨?_, h.linked⟩
    rw [← List.append_nil (Document.ids _)]
    exact h.issued.append hissued
  · -- all ids were drawn from a source that does not repeat itself, so they are distinct
    rw [hrun, hyields]
    have hall : Issues g₀ edited.ids g' := hids ▸ h.issued.append hissued
    exact ⟨hall, hlinked (hg _ _ hall)⟩

/-- **Any number of steps.** -/
theorem edit_sound {g₀ : G} (hg : NeverRepeats g₀) (steps : List (Int64 × Edit S))
    (hplain : ∀ step ∈ steps, step.2.IsPlain) {d : Document S} {g : G} (h : Sound g₀ d g) :
    Sound g₀ ((d.edit steps).run g).1 ((d.edit steps).run g).2 := by
  -- on the edits that are still to come
  induction steps generalizing d g with
  | nil => exact h
  | cons step steps ih =>
    obtain ⟨hstep, hsteps⟩ := List.forall_mem_cons.mp hplain
    rw [Document.run_edit_cons]
    exact ih hsteps (perform_sound step.1 hg h hstep)

/-- **Edited documents are linked.** Whatever edits are made to an empty document, in
whatever order and whether they fail or not: as long as no id is handed out twice, and ids
and bindings are left to the library, ids are distinct, connectors and the elements that
they are bound to know of each other, and no warning of the audit is about an id or a
reference. -/
theorem edit_linked (steps : List (Int64 × Edit S)) (hplain : ∀ step ∈ steps, step.2.IsPlain)
    {g : G} (hg : NeverRepeats g) :
    let d := (((Document.empty : Document S).edit steps).run g).1
    d.ids.Nodup ∧ Linked d.elements ∧
      ∀ f ∈ (Audit.document d.toJson).warnings, f.problem.isReference = false := by
  intro d
  have hempty : Sound g (Document.empty : Document S) g := ⟨.nothing g, .nil⟩
  have hsound := edit_sound hg steps hplain hempty
  have hnodup : d.ids.Nodup := hg _ _ hsound.issued
  exact ⟨hnodup, hsound.linked,
    Audit.isReference_of_mem_warnings hnodup hsound.linked.resolved⟩

/-- Two shapes, an arrow between them and a line from that arrow, with edits that fail on
the way: an unknown kind, a missing id and an element that is its own neighbour. -/
def busySteps : List (Edit Rat) :=
  [.create { kind := "rectangle", x := 0, y := 0 },
    .create { kind := "hexagon", x := 0, y := 0 },
    .create { kind := "ellipse", x := 300, y := 0 },
    .connect "e-1" "e-2" {},
    .connect "e-1" "e-9" {},
    .connect "e-2" "e-2" {},
    .connect "e-3" "e-1" { plain := true },
    .revise "e-3" { x := some 5, points := some [] },
    .bump "e-1"]

theorem edit_linked_of_busy :
    let steps := busySteps.map fun edit => ((0 : Int64), edit)
    let d := (((Document.empty : Document Rat).edit steps).run (NumberedIds.fresh "e")).1
    (∀ step ∈ steps, step.2.IsPlain) ∧ NeverRepeats (NumberedIds.fresh "e") ∧
      (d.ids.Nodup ∧ Linked d.elements ∧
        ∀ f ∈ (Audit.document d.toJson).warnings, f.problem.isReference = false) ∧
      d.elements.map Element.targets = [[], [], ["e-1", "e-2"], ["e-3", "e-1"]] ∧
      d.elements.map Element.connectors =
        [[⟨"e-3", .arrow⟩, ⟨"e-4", .line⟩], [⟨"e-3", .arrow⟩], [⟨"e-4", .line⟩], []] := by
  intro steps d
  have hplain : ∀ step ∈ steps, step.2.IsPlain := by
    simp [steps, busySteps, Edit.IsPlain]
  have hnever : NeverRepeats (NumberedIds.fresh "e") := NumberedIds.neverRepeats _
  exact ⟨hplain, hnever, edit_linked steps hplain hnever, by decide +kernel, by decide +kernel⟩

end Whiteboard.Drawing
