import Whiteboard.Proofs.Drawing.Mutation

/-!
# Whiteboard — the lives of elements

Many elements share one source of identities. They are created, or loaded with any history,
revised, marked as changed, bound and connected, in any order; what is drawn for one of them
moves the counter for all others. Whatever the order, an element is as old as the changes
that were made to it: its version counts them, from 1 for a new element, and stops at the
largest. Each change leaves another nonce, and an operation that fails leaves everything as
it was, the counter included.

Elements go by their places here, since nothing keeps the ids of loaded ones apart.

Main results:

* `Act.outcome` — what one operation makes of the elements at all places.
* `Pool.lifecycle` — so the version of an element counts its mutations over any run.
-/

namespace Whiteboard.Drawing

variable {S : Type}

/-! ## Operations -/

/-- An operation on elements. -/
inductive Act (S : Type) where
  /-- Puts an element on top that comes from elsewhere. -/
  | load (e : Element S)
  /-- Puts the element that a draft describes on top. -/
  | create (draft : Draft S)
  /-- Revises the element at a place. -/
  | revise (place : Nat) (u : Revision S)
  /-- Marks the element at a place as changed. -/
  | bump (place : Nat)
  /-- Binds the element at a place to those at two others. -/
  | bind (connector source target : Nat)
  /-- Connects the elements with two ids. -/
  | connect (source target : String) (look : ConnectorLook)

/-- The document with an element at a place. -/
def Document.writeAt (d : Document S) (place : Nat) (e : Element S) : Document S :=
  { d with elements := d.elements.set place e }

/-- The elements at three different places. -/
def Document.three? (d : Document S) (i j k : Nat) :
    Option (Element S × Element S × Element S) :=
  if i ≠ j ∧ i ≠ k ∧ j ≠ k then
    return (← d.elements[i]?, ← d.elements[j]?, ← d.elements[k]?)
  else none

namespace Act

/-- The elements after an operation. One on places where there are no elements, or not as
many, cannot be asked for, and does nothing. -/
def apply [Scalar S] (now : Int64) (d : Document S) : Act S → Draws SequentialIds (Document S)
  | .load e => return d.push e
  | .create draft => do return d.push (← draft.create now)
  | .revise place u =>
    match d.elements[place]? with
    | some e => do return d.writeAt place (← draw (e.update now u))
    | none => return d
  | .bump place =>
    match d.elements[place]? with
    | some e => do return d.writeAt place (← draw (e.bump now))
    | none => return d
  | .bind c s t =>
    match d.three? c s t with
    | some (connector, source, target) => do
      let joined ← Drawing.bind now connector source target
      return ((d.writeAt c joined.connector).writeAt s joined.source).writeAt t joined.target
    | none => return d
  | .connect source target look => do return (← d.connect now source target look).2

/-- The places of the elements that an operation mutates if it succeeds: of a connector and
what it is bound to, these but not the connector. -/
def touched (d : Document S) : Act S → List Nat
  | .load _ | .create _ => []
  | .revise place _ | .bump place => if place < d.elements.length then [place] else []
  | .bind c s t => if (d.three? c s t).isSome then [s, t] else []
  | .connect source target _ =>
    match d.pair source target with
    | .ok p => [p.first, p.second]
    | .error _ => []

/-- The elements that an operation may put on top: the loaded one, or new ones. -/
def Brings (act : Act S) (e : Element S) : Prop := act = .load e ∨ e.version = 1

end Act

/-! ## One operation -/

/-- Elements at some places are mutated and no others, and only such elements come on top. -/
structure Document.Changes (touched : List Nat) (brings : Element S → Prop) (d d' : Document S) :
    Prop where
  changed : ∀ (i : Nat) (e : Element S), d.elements[i]? = some e → ∃ e',
    d'.elements[i]? = some e' ∧ if i ∈ touched then e.Mutated e' else e.Unmutated e'
  brought : ∀ (i : Nat) (e : Element S), d.elements[i]? = none → d'.elements[i]? = some e → brings e

namespace Document

theorem Changes.refl (d : Document S) (brings : Element S → Prop) : Changes [] brings d d where
  changed i e he := ⟨e, he, by rw [if_neg List.not_mem_nil]; exact .refl e⟩
  brought i e hnone he := by rw [hnone] at he; cases he

theorem getElem?_writeAt {d : Document S} {i j : Nat} {e : Element S}
    (h : j < d.elements.length) :
    (d.writeAt j e).elements[i]? = if j = i then some e else d.elements[i]? := by
  rw [writeAt, List.getElem?_set, if_pos h]

theorem Changes.lt_length {touched : List Nat} {brings : Element S → Prop} {d d' : Document S}
    (h : Changes touched brings d d') {i : Nat} {e : Element S} (he : d.elements[i]? = some e) :
    i < d'.elements.length := by
  obtain ⟨e', he', -⟩ := h.changed i e he
  exact (List.getElem?_eq_some_iff.mp he').1

/-- One element is written back, mutated or not. -/
theorem Changes.write {touched touched' : List Nat} {brings : Element S → Prop}
    {d d' : Document S} (h : Changes touched brings d d') {i : Nat} {e e' : Element S}
    (he : d.elements[i]? = some e) (hothers : ∀ j, j ≠ i → (j ∈ touched' ↔ j ∈ touched))
    (hchange : if i ∈ touched' then e.Mutated e' else e.Unmutated e') :
    Changes touched' brings d (d'.writeAt i e') := by
  have hlt := h.lt_length he
  constructor
  · intro j old hold
    rw [getElem?_writeAt hlt]
    by_cases hij : i = j
    · subst hij
      obtain rfl : e = old := Option.some.inj (he.symm.trans hold)
      exact ⟨e', if_pos rfl, hchange⟩
    · obtain ⟨new, hnew, hchange⟩ := h.changed j old hold
      refine ⟨new, by rwa [if_neg hij], ?_⟩
      simpa only [hothers j (Ne.symm hij)] using hchange
  · intro j new hnone hnew
    rw [getElem?_writeAt hlt] at hnew
    by_cases hij : i = j
    · -- it was there, so it is not what came on top
      rw [← hij, he] at hnone
      cases hnone
    · rw [if_neg hij] at hnew
      exact h.brought j new hnone hnew

/-- One element more is mutated. -/
theorem Changes.mutate {touched : List Nat} {brings : Element S → Prop} {d d' : Document S}
    (h : Changes touched brings d d') {i : Nat} {e e' : Element S}
    (he : d.elements[i]? = some e) (hmutated : e.Mutated e') :
    Changes (touched ++ [i]) brings d (d'.writeAt i e') := by
  refine h.write he (fun j hj => ?_) ?_
  · rw [List.mem_append, List.mem_singleton, or_iff_left hj]
  · rwa [if_pos (List.mem_append_right _ (List.mem_singleton_self i))]

/-- An element is written that is none of the mutated ones and is not mutated either. -/
theorem Changes.keep {touched : List Nat} {brings : Element S → Prop} {d d' : Document S}
    (h : Changes touched brings d d') {i : Nat} {e e' : Element S}
    (he : d.elements[i]? = some e) (hi : i ∉ touched) (hsame : e.Unmutated e') :
    Changes touched brings d (d'.writeAt i e') :=
  h.write he (fun _ _ => Iff.rfl) (by rwa [if_neg hi])

/-- One element comes on top. -/
theorem Changes.push {touched : List Nat} {brings : Element S → Prop} {d d' : Document S}
    (h : Changes touched brings d d') {e : Element S} (he : brings e) :
    Changes touched brings d (d'.push e) := by
  constructor
  · intro i old hold
    obtain ⟨new, hnew, hchange⟩ := h.changed i old hold
    refine ⟨new, ?_, hchange⟩
    rw [Document.push, List.getElem?_append_left (h.lt_length hold)]
    exact hnew
  · intro i new hnone hnew
    rw [Document.push] at hnew
    by_cases hi : i < d'.elements.length
    · rw [List.getElem?_append_left hi] at hnew
      exact h.brought i new hnone hnew
    · have hmem : new ∈ [e] := by
        rw [List.getElem?_append_right (Nat.le_of_not_lt hi)] at hnew
        exact List.mem_of_getElem? hnew
      rwa [List.mem_singleton.mp hmem]

theorem getElem?_of_three? {d : Document S} {i j k : Nat} {a b c : Element S}
    (h : d.three? i j k = some (a, b, c)) :
    d.elements[i]? = some a ∧ d.elements[j]? = some b ∧ d.elements[k]? = some c := by
  unfold three? at h
  split at h
  · obtain ⟨a', ha, h⟩ := Option.bind_eq_some_iff.mp h
    obtain ⟨b', hb, h⟩ := Option.bind_eq_some_iff.mp h
    obtain ⟨c', hc, h⟩ := Option.bind_eq_some_iff.mp h
    cases h
    exact ⟨ha, hb, hc⟩
  · cases h

end Document

namespace Act

variable [Scalar S]

/-- An operation fails and draws nothing, or the elements that it touches are mutated. -/
def Outcome (now : Int64) (act : Act S) (d : Document S) (g : SequentialIds) : Prop :=
  (∃ cause, (act.apply now d).run.run g = (.error cause, g)) ∨
    ∃ d' g', (act.apply now d).run.run g = (.ok d', g') ∧
      d.Changes (act.touched d) act.Brings d'

omit [Scalar S] in
/-- The element at a place is changed, if there is one. -/
theorem outcome_mutate {d : Document S} {i : Nat} (brings : Element S → Prop)
    {change : Element S → StateM SequentialIds (Element S)}
    (hmutated : ∀ (e : Element S) g, e.Mutated ((change e).run g).1) (g : SequentialIds) :
    ∃ d' g', (match d.elements[i]? with
        | some e => do return d.writeAt i (← draw (change e))
        | none => return d : Draws SequentialIds (Document S)).run.run g = (.ok d', g') ∧
      d.Changes (if i < d.elements.length then [i] else []) brings d' := by
  cases he : d.elements[i]? with
  | none =>
    rw [if_neg (Nat.not_lt.mpr (List.getElem?_eq_none_iff.mp he))]
    exact ⟨d, g, rfl, .refl d _⟩
  | some e =>
    rw [if_pos (List.getElem?_eq_some_iff.mp he).1]
    refine ⟨_, _, run_draw_bind _ _ _, ?_⟩
    exact (Document.Changes.refl d _).mutate he (hmutated e g)

/-- **One operation.** It fails and draws nothing, or it mutates exactly the elements that it
touches; what comes on top is new or loaded. -/
theorem outcome (now : Int64) (act : Act S) (d : Document S) (g : SequentialIds) :
    act.Outcome now d g := by
  cases act with
  | load e => exact Or.inr ⟨d.push e, g, rfl, (Document.Changes.refl d _).push (.inl rfl)⟩
  | create draft =>
    rcases draft.create_cases now g with ⟨cause, hcreate⟩ |
      ⟨shape, id, seed, nonce, g', -, hcreate⟩
    · exact Or.inl ⟨cause, run_bind_of_error hcreate _⟩
    · exact Or.inr ⟨_, g', run_bind_of_ok hcreate _, (Document.Changes.refl d _).push (.inr rfl)⟩
  | revise i u => exact Or.inr (outcome_mutate _ (fun e g => e.mutated_update u now g) g)
  | bump i => exact Or.inr (outcome_mutate _ (fun e g => e.mutated_bump now g) g)
  | bind c s t =>
    simp only [Outcome, apply, touched]
    cases hthree : d.three? c s t with
    | none => exact Or.inr ⟨d, g, rfl, .refl d _⟩
    | some three =>
      obtain ⟨connector, source, target⟩ := three
      obtain ⟨hc, hs, ht⟩ := Document.getElem?_of_three? hthree
      rcases bind_cases now connector source target g with
        ⟨-, hbind⟩ | ⟨-, source', target', g', hbind, hsource, htarget⟩
      · exact Or.inl ⟨_, run_bind_of_error hbind _⟩
      · refine Or.inr ⟨_, g', run_bind_of_ok hbind _, ?_⟩
        have hkept := (Document.Changes.refl d (Brings (.bind c s t))).keep hc List.not_mem_nil
          (connector.unmutated_attached source target)
        exact (hkept.mutate hs hsource).mutate ht htarget
  | connect source target look =>
    rcases d.connect_cases now source target look g with ⟨cause, hconnect⟩ |
      ⟨p, hpair, c, source', target', g', hconnect, hversion, hsource, htarget⟩
    · exact Or.inl ⟨cause, run_bind_of_error hconnect _⟩
    · refine Or.inr ⟨_, g', run_bind_of_ok hconnect _, ?_⟩
      have hfirst : d.elements[p.first.val]? = some p.firstElement :=
        List.getElem?_eq_getElem p.first.isLt
      have hsecond : d.elements[p.second.val]? = some p.secondElement :=
        List.getElem?_eq_getElem p.second.isLt
      simp only [touched, hpair]
      exact (((Document.Changes.refl d _).mutate hfirst hsource).mutate hsecond htarget).push
        (.inr hversion)

omit [Scalar S] in
/-- Only elements that are there are touched. -/
theorem lt_of_mem_touched {act : Act S} {d : Document S} {i : Nat} (h : i ∈ act.touched d) :
    i < d.elements.length := by
  cases act with
  | load e | create draft => cases h
  | revise j u | bump j =>
    simp only [touched] at h
    split at h
    · rwa [List.mem_singleton.mp h]
    · cases h
  | bind c s t =>
    simp only [touched] at h
    split at h
    · rename_i hthree
      obtain ⟨⟨connector, source, target⟩, hthree⟩ := Option.isSome_iff_exists.mp hthree
      obtain ⟨-, hs, ht⟩ := Document.getElem?_of_three? hthree
      rcases List.mem_pair.mp h with rfl | rfl
      · exact (List.getElem?_eq_some_iff.mp hs).1
      · exact (List.getElem?_eq_some_iff.mp ht).1
    · cases h
  | connect source target look =>
    simp only [touched] at h
    split at h
    · rename_i p _
      rcases List.mem_pair.mp h with rfl | rfl
      · exact p.first.isLt
      · exact p.second.isLt
    · cases h

end Act

/-! ## Any number of operations -/

/-- Elements, and the source of identities that they share. -/
structure Pool (S : Type) where
  document : Document S
  source : SequentialIds

namespace Pool

variable [Scalar S]

/-- The pool after an operation; one that fails leaves the elements as they were. -/
def next (p : Pool S) (step : Int64 × Act S) : Pool S :=
  match (step.2.apply step.1 p.document).run.run p.source with
  | (.ok d, g) => ⟨d, g⟩
  | (.error _, g) => ⟨p.document, g⟩

/-- The places of the elements that an operation mutates. -/
def mutated (p : Pool S) (step : Int64 × Act S) : List Nat :=
  match (step.2.apply step.1 p.document).run.run p.source with
  | (.ok _, _) => step.2.touched p.document
  | (.error _, _) => []

/-- The pool after operations, each at its time. -/
def after (p : Pool S) (steps : List (Int64 × Act S)) : Pool S := steps.foldl next p

/-- How often operations mutate the element at a place. -/
def mutations (p : Pool S) (i : Nat) : List (Int64 × Act S) → Nat
  | [] => 0
  | step :: steps => (if i ∈ p.mutated step then 1 else 0) + (p.next step).mutations i steps

/-- The element at a place, as it was at first or as it came there. -/
def origin (p : Pool S) (i : Nat) : List (Int64 × Act S) → Option (Element S)
  | [] => p.document.elements[i]?
  | step :: steps =>
    match p.document.elements[i]? with
    | some e => some e
    | none => (p.next step).origin i steps

/-- What an operation does to a pool. -/
structure Lawful (p : Pool S) (step : Int64 × Act S) : Prop where
  /-- One that fails changes nothing, not even the source. -/
  failed : ∀ cause g, (step.2.apply step.1 p.document).run.run p.source = (.error cause, g) →
    p.next step = p
  /-- The elements that were there are mutated or not. -/
  changes : p.document.Changes (p.mutated step) step.2.Brings (p.next step).document

theorem lawful (p : Pool S) (step : Int64 × Act S) : p.Lawful step := by
  rcases step.2.outcome step.1 p.document p.source with ⟨cause, hrun⟩ | ⟨d', g', hrun, hchanges⟩
  · have hnext : p.next step = p := by rw [next, hrun]
    refine ⟨fun _ _ _ => hnext, ?_⟩
    rw [hnext, mutated, hrun]
    exact .refl _ _
  · refine ⟨fun cause g herror => ?_, ?_⟩
    · rw [hrun] at herror
      cases herror
    · rw [next, mutated, hrun]
      exact hchanges

end Pool

/-- An element after a number of mutations. -/
structure Element.Grown (mutations : Nat) (old new : Element S) : Prop where
  lasting : new.lasting = old.lasting
  version : new.version.toNat = min (old.version.toNat + mutations) maxVersion

namespace Element

variable {old mid new : Element S}

theorem Unmutated.grown (h : old.Unmutated new) : old.Grown 0 new := by
  refine ⟨h.lasting, ?_⟩
  have hlt := old.version.toNat_lt
  rw [h.version, maxVersion]
  omega

theorem Mutated.grown (h : old.Mutated new) : old.Grown 1 new :=
  ⟨h.lasting, by rw [h.version, toNat_versionAfter_eq_min]⟩

/-- The largest version stays, so it does not matter when it was reached. -/
theorem Grown.trans {m n : Nat} (h : old.Grown m mid) (h' : mid.Grown n new) :
    old.Grown (m + n) new := by
  refine ⟨h'.lasting.trans h.lasting, ?_⟩
  have hmid := h.version
  have hnew := h'.version
  omega

end Element

namespace Pool

variable [Scalar S]

theorem origin_of_some {p : Pool S} {i : Nat} {e : Element S}
    (h : p.document.elements[i]? = some e) (steps : List (Int64 × Act S)) :
    p.origin i steps = some e := by
  cases steps with
  | nil => exact h
  | cons step steps => rw [origin, h]

/-- **Any number of operations.** The element at a place has grown by its mutations since it
came there. -/
theorem grown_after (p : Pool S) (steps : List (Int64 × Act S)) (i : Nat) :
    Option.Rel (Element.Grown (p.mutations i steps)) (p.origin i steps)
      (p.after steps).document.elements[i]? := by
  -- on the operations that are still to come
  induction steps generalizing p with
  | nil =>
    show Option.Rel _ p.document.elements[i]? p.document.elements[i]?
    cases p.document.elements[i]? with
    | none => exact .none
    | some e => exact .some (Element.Unmutated.refl e).grown
  | cons step steps ih =>
    have hchanges := (p.lawful step).changes
    have hrest := ih (p.next step)
    rw [mutations]
    cases he : p.document.elements[i]? with
    | some e =>
      obtain ⟨e', he', hchange⟩ := hchanges.changed i e he
      have hgrown : e.Grown (if i ∈ p.mutated step then 1 else 0) e' := by
        split at hchange
        · rename_i hi
          rw [if_pos hi]
          exact hchange.grown
        · rename_i hi
          rw [if_neg hi]
          exact hchange.grown
      rw [origin_of_some he]
      rw [origin_of_some he'] at hrest
      show Option.Rel _ _ ((p.next step).after steps).document.elements[i]?
      generalize ((p.next step).after steps).document.elements[i]? = last at hrest ⊢
      cases hrest with
      | some hlater => exact .some (hgrown.trans hlater)
    | none =>
      -- where no element is, none is mutated
      have hi : i ∉ p.mutated step := by
        unfold mutated
        split
        · exact fun hmem => absurd (Act.lt_of_mem_touched hmem)
            (Nat.not_lt.mpr (List.getElem?_eq_none_iff.mp he))
        · exact List.not_mem_nil
      rw [if_neg hi, Nat.zero_add, origin, he]
      exact hrest

/-- An element was there at first, is new, or was loaded. -/
theorem origin_cases {p : Pool S} {i : Nat} {steps : List (Int64 × Act S)} {e : Element S}
    (h : p.origin i steps = some e) :
    p.document.elements[i]? = some e ∨ e.version = 1 ∨ ∃ now, (now, .load e) ∈ steps := by
  induction steps generalizing p with
  | nil => exact Or.inl h
  | cons step steps ih =>
    cases he : p.document.elements[i]? with
    | some e' =>
      rw [origin_of_some he] at h
      exact Or.inl h
    | none =>
      rw [origin, he] at h
      rcases ih h with hnext | hnew | ⟨now, hload⟩
      · rcases (p.lawful step).changes.brought i e he hnext with hload | hnew
        · exact Or.inr (Or.inr ⟨step.1, List.mem_cons.mpr (Or.inl (Prod.ext rfl hload.symm))⟩)
        · exact Or.inr (Or.inl hnew)
      · exact Or.inr (Or.inl hnew)
      · exact Or.inr (Or.inr ⟨now, List.mem_cons_of_mem _ hload⟩)

/-- **Lives of elements.** Whatever operations are made on elements that share a source of
numbered identities, wherever its counter stands and whatever the histories of the elements
at first:

* every element keeps its id, its seed and its kind, and its version is the one that it came
  with and one more for every mutation, up to the largest;
* the version that an element came with is 1, unless it was there at first or was loaded;
* every operation mutates exactly the elements that it is to change, each of which gets
  another nonce in range, and leaves versions and nonces of the others; one that fails
  leaves all of them. -/
theorem lifecycle (p : Pool S) (steps : List (Int64 × Act S)) :
    (∀ i, Option.Rel (Element.Grown (p.mutations i steps)) (p.origin i steps)
      (p.after steps).document.elements[i]?) ∧
    (∀ i e, p.origin i steps = some e →
      p.document.elements[i]? = some e ∨ e.version = 1 ∨ ∃ now, (now, .load e) ∈ steps) ∧
    ∀ earlier step later, steps = earlier ++ step :: later → (p.after earlier).Lawful step :=
  ⟨p.grown_after steps, fun _ _ h => origin_cases h, fun earlier step _ _ =>
    (p.after earlier).lawful step⟩

end Pool

/-- A shape of the largest version and one whose nonce comes next, where the counter starts
over soon. -/
def wornPool : Pool Rat :=
  let shape : Draft Rat := { kind := "ellipse", x := 0, y := 0 }
  let e : Element Rat := shape.element .ellipse "a" 7 5 0
  ⟨{ Document.empty with
      elements :=
        [{ e with version := 0xFFFFFFFF }, { e with id := "b", versionNonce := maxNonce }] },
    ⟨"e", 0, maxNonce - 1⟩⟩

/-- A change that draws twice, a new arrow, the same arrow bound the other way round, and
operations that fail or are on places where nothing is. -/
example :
    let steps : List (Int64 × Act Rat) := [(1, .bump 1), (2, .connect "a" "b" {}),
      (3, .bind 2 1 0), (4, .bind 0 1 2), (5, .connect "a" "a" {}), (6, .bump 9)]
    (wornPool.after steps).document.elements.map (fun e => (e.version, e.versionNonce)) =
      [(0xFFFFFFFF, 7), (4, 6), (1, 3)] ∧
    [0, 1, 2].map (wornPool.mutations · steps) = [2, 3, 0] := by
  decide +kernel

end Whiteboard.Drawing
