import Whiteboard.Proofs.Audit.Opacities
import Whiteboard.Proofs.Drawing.Aspects
import Whiteboard.Proofs.Drawing.Editing
import Whiteboard.Proofs.Drawing.Kept

/-!
# Whiteboard — opacities of an edited document

An opacity goes from 0 to 100. The one that a draft asks for is cut down to this range when
the element is created; the one that a revision names is taken as it is, and nothing else
that is done to a document changes one. So opacities are in range for as long as no revision
names one that is not, and the first such revision that finds its element shows in the
document and in the audit of it.

Main results:

* `Edit.inRange_perform_iff` — one edit keeps opacities in range unless it oversteps.
* `opacities_edit_iff` — so do any number of edits to an empty document.
-/

namespace Whiteboard.Drawing

variable {S : Type}

/-! ## Opacities after an edit -/

/-- All opacities are in the range that elements declare. -/
def Document.InRange (d : Document S) : Prop := ∀ e ∈ d.elements, e.opacity ≤ maxOpacity

theorem Document.not_inRange_iff {d : Document S} :
    ¬ d.InRange ↔ ∃ e ∈ d.elements, maxOpacity < e.opacity := by
  simp only [InRange, not_forall, UInt8.not_le, exists_prop]

/-- A revision that names an opacity out of range for an element that is there. -/
def Edit.Oversteps (d : Document S) : Edit S → Prop
  | .revise id u => (d.get? id).isSome ∧ ∃ opacity ∈ u.opacity, maxOpacity < opacity
  | .create _ | .connect .. | .bump _ => False

instance (d : Document S) (edit : Edit S) : Decidable (edit.Oversteps d) :=
  match edit with
  | .revise id u => inferInstanceAs
      (Decidable ((d.get? id).isSome ∧ ∃ opacity ∈ u.opacity, maxOpacity < opacity))
  | .create _ | .connect .. | .bump _ => inferInstanceAs (Decidable False)

variable [Scalar S] {G : Type} [IdSource G]

/-- The opacity of a new element is cut down to the range. -/
theorem Element.Shows.opacity_le {e : Element S} {draft : Draft S} (h : e.Shows draft) :
    e.opacity ≤ maxOpacity := by
  obtain ⟨shape, -, heq⟩ := h
  have hopacity : e.opacity = min (draft.opacity.getD maxOpacity) maxOpacity :=
    congrArg Element.opacity heq
  rw [hopacity]
  exact Std.min_le_right

omit [Scalar S] in
/-- Noting a connector leaves the opacity alone. -/
theorem Element.Noted.opacity_eq {now : Int64} {link : BoundElement} {old new : Element S}
    (h : old.Noted now link new) : new.opacity = old.opacity := by
  obtain ⟨entries, nonce, rfl⟩ := h.eq_with
  rfl

/-- Marking an element as changed is a revision that names nothing. -/
theorem Edit.apply_bump (now : Int64) (d : Document S) (id : String) :
    ((Edit.bump id).apply now d : Draws G _) = (Edit.revise id {}).apply now d := by
  simp only [apply, Document.revise, bind_assoc, pure_bind, Element.update, Element.revise_empty]

/-! ## One edit -/

omit [Scalar S] in
theorem Document.InRange.push_iff {d : Document S} (h : d.InRange) {e : Element S} :
    (d.push e).InRange ↔ e.opacity ≤ maxOpacity := by
  unfold InRange push
  rw [List.forall_mem_append, List.forall_mem_singleton]
  exact and_iff_right h

omit [Scalar S] in
theorem Document.InRange.setAt_iff {d : Document S} (h : d.InRange) {i : Fin d.elements.length}
    {e : Element S} : (d.setAt i e).InRange ↔ e.opacity ≤ maxOpacity := by
  constructor
  · intro hset
    exact hset e (List.mem_set i.isLt e)
  · intro he e' he'
    rcases List.mem_or_eq_of_mem_set he' with he' | rfl
    · exact h e' he'
    · exact he

theorem Edit.inRange_revise_iff (now : Int64) {d : Document S} (h : d.InRange) (id : String)
    (u : Revision S) (g : G) :
    (((Edit.revise id u).perform now d).run g).1.InRange ↔ ¬ (Edit.revise id u).Oversteps d := by
  rw [run_perform]
  cases hget : d.get? id with
  | none =>
    -- nothing is found, and nothing changes
    have hrun : ((Edit.revise id u).apply now d).run.run g = (.error (.elementNotFound id), g) := by
      rw [apply, run_bind_of_error (Document.run_revise_of_none now hget u g)]
    rw [hrun]
    simp [Oversteps, hget, h, Except.toOption]
  | some old =>
    obtain ⟨i, -, hrevise⟩ := Document.run_revise now hget u g
    have hrun : ((Edit.revise id u).apply now d).run.run g =
        (.ok (d.setAt i ((old.update now u).run g).1), ((old.update now u).run g).2) := by
      rw [apply, run_bind_of_ok hrevise]
      rfl
    have hopacity : ((old.update now u).run g).1.opacity = u.opacity.getD old.opacity := rfl
    have hold : old.opacity ≤ maxOpacity := h old (Document.mem_of_get? hget).1
    rw [hrun]
    show (d.setAt i _).InRange ↔ _
    rw [h.setAt_iff, hopacity]
    cases hu : u.opacity with
    | none => simp [Oversteps, hu, hold]
    | some opacity => simp [Oversteps, hget, hu]

/-- **One edit.** Opacities stay in range unless a revision oversteps it. -/
theorem Edit.inRange_perform_iff (now : Int64) {d : Document S} (h : d.InRange) (edit : Edit S)
    (g : G) : ((edit.perform now d).run g).1.InRange ↔ ¬ edit.Oversteps d := by
  cases edit with
  | revise id u => exact inRange_revise_iff now h id u g
  | bump id =>
    have hbump := inRange_revise_iff now h id {} g
    rw [run_perform, ← apply_bump, ← run_perform] at hbump
    rw [hbump]
    simp [Oversteps]
  | create draft =>
    refine iff_of_true ?_ not_false
    rw [run_perform]
    obtain ⟨outcome, g', hrun⟩ : ∃ outcome g',
      ((Edit.create draft).apply now d).run.run g = (outcome, g') := ⟨_, _, rfl⟩
    rw [hrun]
    cases outcome with
    | error e => exact h
    | ok d' =>
      obtain ⟨e, g₁, hcreate, hpush⟩ := exists_of_run_bind_ok hrun
      obtain rfl : d.push e = d' := Except.ok.inj (Prod.mk.inj hpush).1
      obtain ⟨shape, id, seed, nonce, -, rfl⟩ := Draft.create_eq_ok hcreate
      exact h.push_iff.mpr Std.min_le_right
  | connect source target look =>
    refine iff_of_true ?_ not_false
    rw [run_perform]
    obtain ⟨outcome, g', hrun⟩ : ∃ outcome g',
      ((Edit.connect source target look).apply now d).run.run g = (outcome, g') := ⟨_, _, rfl⟩
    rw [hrun]
    cases outcome with
    | error e => exact h
    | ok d' =>
      obtain ⟨⟨id, edited⟩, g₁, hconnect, hedited⟩ := exists_of_run_bind_ok hrun
      obtain rfl : edited = d' := Except.ok.inj (Prod.mk.inj hedited).1
      obtain ⟨p, c, source', target', hconnects, hsource, htarget, rfl, -⟩ :=
        Document.connect_eq_ok hconnect
      have hput : (p.put source' target').InRange := by
        intro e he
        rcases Document.mem_put he with rfl | rfl | he
        · exact hsource.opacity_eq ▸ h _ (List.get_mem _ _)
        · exact htarget.opacity_eq ▸ h _ (List.get_mem _ _)
        · exact h e he
      exact hput.push_iff.mpr hconnects.shows.opacity_le

/-! ## Any number of edits -/

/-- Opacities stay in range over edits if none of them oversteps it in the document that it
is made to. -/
theorem Document.InRange.edit_iff (steps : List (Int64 × Edit S)) {d : Document S}
    (h : d.InRange) (g : G) :
    (∀ n, ((d.edit (steps.take n)).run g).1.InRange) ↔
      ∀ n (hn : n < steps.length), ¬ steps[n].2.Oversteps ((d.edit (steps.take n)).run g).1 := by
  -- on the edits that are still to come, each made to a document in range
  induction steps generalizing d g with
  | nil =>
    refine iff_of_true (fun n => ?_) fun n hn => absurd hn (Nat.not_lt_zero n)
    rw [List.take_nil]
    exact h
  | cons step steps ih =>
    have hlater : ∀ n, ((d.edit ((step :: steps).take (n + 1))).run g).1 =
        ((((step.2.perform step.1 d).run g).1.edit (steps.take n)).run
          ((step.2.perform step.1 d).run g).2).1 := fun n => by
      rw [List.take_succ_cons, run_edit_cons]
    have hstep := step.2.inRange_perform_iff step.1 h g
    constructor
    · intro hall n hn
      have hnext : ((step.2.perform step.1 d).run g).1.InRange := by
        have hone := hall 1
        rwa [hlater, List.take_zero] at hone
      cases n with
      | zero => exact hstep.mp hnext
      | succ n =>
        rw [hlater]
        exact (ih hnext _).mp (fun m => hlater m ▸ hall (m + 1)) n (Nat.lt_of_succ_lt_succ hn)
    · intro hnone n
      cases n with
      | zero => exact h
      | succ n =>
        have hnext := hstep.mpr (hnone 0 (Nat.succ_pos _))
        rw [hlater]
        refine (ih hnext _).mpr (fun m hm => ?_) n
        rw [← hlater]
        exact hnone (m + 1) (Nat.succ_lt_succ hm)

/-- **Opacities in range.** Whatever edits are made to an empty document, in whatever order
and whether they fail or not: all documents on the way have all opacities in range, and the
audit of none of them warns of one, exactly if no revision on the way names an opacity out
of range for an element that is there. -/
theorem opacities_edit_iff [LawfulScalar S] (steps : List (Int64 × Edit S)) (g : G) :
    let reached n := (((Document.empty : Document S).edit (steps.take n)).run g).1
    (∀ n, (reached n).InRange ∧
        ∀ f ∈ (Audit.document (reached n).toJson).warnings, f.problem.isOpacity = false) ↔
      ∀ n (hn : n < steps.length), ¬ steps[n].2.Oversteps (reached n) := by
  intro reached
  have hempty : (Document.empty : Document S).InRange := fun e he => by cases he
  rw [← hempty.edit_iff steps g]
  refine forall_congr' fun n => and_iff_left_of_imp fun hrange => ?_
  by_contra hwarning
  simp only [not_forall, Bool.not_eq_false] at hwarning
  obtain ⟨f, hf, hopacity⟩ := hwarning
  exact Document.not_inRange_iff.mpr
    ((Audit.exists_opacityWarning_iff _).mp ⟨f, hf, hopacity⟩) hrange

/-- A draft that asks for too much, a revision within the range, and one beyond it of an
element that is not there. -/
def faintSteps : List (Int64 × Edit Rat) :=
  [(0, .create { kind := "rectangle", x := 0, y := 0, opacity := some 250 }),
    (1, .create { kind := "ellipse", x := 300, y := 0 }),
    (2, .connect "e-1" "e-2" {}),
    (3, .revise "e-2" { opacity := some 40 }),
    (4, .revise "e-9" { opacity := some 200 }),
    (5, .bump "e-1")]

theorem opacities_edit_iff_of_faint :
    let reached n := (((Document.empty : Document Rat).edit (faintSteps.take n)).run
      (SequentialIds.fresh "e")).1
    (∀ n (hn : n < faintSteps.length), ¬ faintSteps[n].2.Oversteps (reached n)) ∧
      (∀ n, (reached n).InRange ∧
        ∀ f ∈ (Audit.document (reached n).toJson).warnings, f.problem.isOpacity = false) ∧
      (reached 6).elements.map Element.opacity = [100, 40, 100] := by
  intro reached
  have hnone : ∀ n (hn : n < faintSteps.length), ¬ faintSteps[n].2.Oversteps (reached n) := by
    decide +kernel
  exact ⟨hnone, (opacities_edit_iff faintSteps _).mpr hnone, by decide +kernel⟩

/-- Opacities do not stay in range by themselves: a revision takes the byte that it is given,
where a draft with the same one is cut down. -/
theorem not_inRange_of_revision :
    ¬ ∀ (steps : List (Int64 × Edit Float)) (g : SequentialIds),
      let d := (((Document.empty : Document Float).edit steps).run g).1
      d.InRange ∧ ∀ f ∈ (Audit.document d.toJson).warnings, f.problem.isOpacity = false := by
  intro h
  have hrange := (h [(0, .create { kind := "rectangle", x := 0.0, y := 0.0, opacity := some 200 }),
    (0, .revise "el-1" { opacity := some 200 })] (SequentialIds.fresh "el")).1
  refine Document.not_inRange_iff.mpr ?_ hrange
  decide +kernel

end Whiteboard.Drawing
