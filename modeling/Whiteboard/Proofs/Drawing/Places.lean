import Whiteboard.Proofs.Drawing.Connecting

/-!
# Whiteboard — the place of an id

An id stands for the first element that carries it, whatever comes after. Looking an
element up, replacing it and finding two at once all go by that place, so none of them
needs ids to be distinct.

Main results:

* `get?_eq_place?` — the element found is the one at the place.
* `pair_eq_ok_iff` — the two places of a pair are those of its ids.
* `map_setAt` — what an element that is put into a place does not change.
* `revise_eq_ok`, `connect_eq_ok` — what a successful revision or connection has done.
-/

namespace Whiteboard.Drawing

variable {S : Type}

namespace Document

/-! ## Places and elements -/

theorem id_of_place? {d : Document S} {id : String} {i : Fin d.elements.length}
    (h : d.place? id = some i) : (d.elements.get i).id = id := by
  obtain ⟨hid, -⟩ := List.findFinIdx?_eq_some_iff.mp h
  exact beq_iff_eq.mp hid

theorem get?_eq_place? (d : Document S) (id : String) :
    d.get? id = (d.place? id).map d.elements.get :=
  List.find?_eq_map_findFinIdx?_getElem

/-- What is found under an id is an element of the document that carries it. -/
theorem mem_of_get? {d : Document S} {id : String} {e : Element S} (h : d.get? id = some e) :
    e ∈ d.elements ∧ e.id = id :=
  ⟨List.mem_of_find?_eq_some h, beq_iff_eq.mp (List.find?_some h :)⟩

theorem exists_place?_of_get? {d : Document S} {id : String} {e : Element S}
    (h : d.get? id = some e) : ∃ i, d.place? id = some i ∧ d.elements.get i = e := by
  rw [get?_eq_place?] at h
  exact Option.map_eq_some_iff.mp h

/-- A pair of ids is found at the places of the two, if these differ. -/
theorem pair_eq_ok_iff {d : Document S} {first second : String} {p : d.Pair} :
    d.pair first second = .ok p ↔
      d.place? first = some p.first ∧ d.place? second = some p.second := by
  obtain ⟨i, j, hij⟩ := p
  unfold pair
  cases hfirst : d.place? first with
  | none => simp
  | some i' =>
    cases hsecond : d.place? second with
    | none => simp
    | some j' =>
      by_cases h : i' = j'
      · -- one place for both ids
        simp only [dif_pos h, Option.some.injEq, reduceCtorEq, false_iff, not_and]
        rintro rfl rfl
        exact hij h
      · simp [h]

/-! ## Putting elements into places -/

theorem map_set_get {α : Type} (f : Element S → α) (es : List (Element S)) (i : Fin es.length) :
    (es.map f).set i (f (es.get i)) = es.map f := by
  have hi : i.val < (es.map f).length := by simp
  have hget : f (es.get i) = (es.map f)[i.val] := by simp
  rw [hget]
  exact List.set_getElem_self hi

/-- Putting an element into the place of one that is alike in some respect changes
nothing in this respect. -/
theorem map_setAt {α : Type} {f : Element S → α} {d : Document S} {i : Fin d.elements.length}
    {e : Element S} (h : f e = f (d.elements.get i)) :
    (d.setAt i e).elements.map f = d.elements.map f := by
  rw [setAt, List.map_set, h]
  exact map_set_get f d.elements i

/-- Nor does putting two elements into the places of a pair. -/
theorem map_put {α : Type} {f : Element S → α} {d : Document S} {p : d.Pair}
    {first second : Element S} (hfirst : f first = f p.firstElement)
    (hsecond : f second = f p.secondElement) :
    (p.put first second).elements.map f = d.elements.map f := by
  rw [Pair.put, List.map_set, List.map_set, hfirst, hsecond, Pair.firstElement,
    Pair.secondElement, map_set_get, map_set_get]

/-- An element with the id that stands at a place changes no id there. -/
theorem ids_setAt {d : Document S} {i : Fin d.elements.length} {e : Element S}
    (h : e.id = (d.elements.get i).id) : (d.setAt i e).ids = d.ids :=
  map_setAt h

/-- What is replaced is what stands at the place of the id. -/
theorem replace_eq_ok {d : Document S} {e : Element S} {r : Element S × Document S}
    (h : d.replace e = .ok r) :
    ∃ i, d.place? e.id = some i ∧ r = (d.elements.get i, d.setAt i e) := by
  unfold replace at h
  cases hplace : d.place? e.id with
  | none =>
    rw [hplace] at h
    cases h
  | some i =>
    rw [hplace] at h
    cases h
    exact ⟨i, rfl, rfl⟩

/-- An element takes the place of the one that is found under its id. -/
theorem exists_replace {d : Document S} {id : String} {old next : Element S}
    (hold : d.get? id = some old) (hid : next.id = old.id) :
    ∃ i, d.elements.get i = old ∧ d.replace next = .ok (old, d.setAt i next) := by
  obtain ⟨i, hplace, hget⟩ := exists_place?_of_get? hold
  refine ⟨i, hget, ?_⟩
  rw [replace, hid, (mem_of_get? hold).2, hplace, ← hget]

/-- The elements of a document in which two were replaced. -/
theorem mem_put {d : Document S} {p : d.Pair} {first second e : Element S}
    (h : e ∈ (p.put first second).elements) : e = first ∨ e = second ∨ e ∈ d.elements := by
  rcases List.mem_or_eq_of_mem_set h with h | rfl
  · rcases List.mem_or_eq_of_mem_set h with h | rfl
    · exact Or.inr (Or.inr h)
    · exact Or.inl rfl
  · exact Or.inr (Or.inl rfl)

/-! ## Revising and connecting -/

section

variable {G : Type} [IdSource G]

/-- Where there is no element with the id, nothing is drawn. -/
theorem run_revise_of_none (now : Int64) {d : Document S} {id : String} (h : d.get? id = none)
    (u : Revision S) (g : G) :
    (d.revise now id u).run.run g = (.error (.elementNotFound id), g) := by
  rw [revise, get, h]
  rfl

/-- An element that is found is revised, and the revised one takes its place: a revision
keeps the id. -/
theorem run_revise (now : Int64) {d : Document S} {id : String} {old : Element S}
    (hold : d.get? id = some old) (u : Revision S) (g : G) :
    ∃ i, d.replace ((old.update now u).run g).1 =
        .ok (old, d.setAt i ((old.update now u).run g).1) ∧
      (d.revise now id u).run.run g =
        (.ok (((old.update now u).run g).1, d.setAt i ((old.update now u).run g).1),
          ((old.update now u).run g).2) := by
  have hid : ((old.update now u).run g).1.id = old.id := rfl
  obtain ⟨i, -, hreplace⟩ := exists_replace hold hid
  have hfound : (settle (d.get id) : Draws G _).run.run g = (.ok old, g) := by
    rw [get, hold]
    rfl
  refine ⟨i, hreplace, ?_⟩
  rw [revise, run_bind_of_ok hfound, run_draw_bind, hreplace]
  rfl

/-- An element that is revised is the first with its id, and the revised one takes its
place. -/
theorem revise_eq_ok {now : Int64} {d d' : Document S} {id : String} {u : Revision S}
    {e : Element S} {g g' : G} (h : (d.revise now id u).run.run g = (.ok (e, d'), g')) :
    ∃ old, d.get? id = some old ∧ (old.update now u).run g = (e, g') ∧
      d.replace e = .ok (old, d') := by
  cases hget : d.get? id with
  | none =>
    rw [run_revise_of_none now hget] at h
    cases h
  | some old =>
    obtain ⟨i, hreplace, hrun⟩ := run_revise now hget u g
    rw [hrun] at h
    obtain ⟨hok, rfl⟩ := Prod.mk.inj h
    obtain ⟨rfl, rfl⟩ := Prod.mk.inj (Except.ok.inj hok)
    exact ⟨old, rfl, rfl, hreplace⟩

end

/-- Two elements that are connected have noted the connector, which is on top. -/
theorem connect_eq_ok [Scalar S] {G : Type} [IdSource G] {now : Int64} {d d' : Document S}
    {source target id : String} {look : ConnectorLook} {g g' : G}
    (h : (d.connect now source target look).run.run g = (.ok (id, d'), g')) :
    ∃ (p : d.Pair) (c source' target' : Element S),
      c.Connects (.plan p.firstElement p.secondElement) look ∧
      p.firstElement.Noted now ⟨c.id, look.kind⟩ source' ∧
      p.secondElement.Noted now ⟨c.id, look.kind⟩ target' ∧
      d' = (p.put source' target').push c ∧ id = c.id := by
  unfold connect at h
  cases hpair : d.pair source target with
  | error e =>
    rw [hpair] at h
    cases h
  | ok p =>
    rw [hpair] at h
    obtain ⟨j, g₁, hjoin, hconnects, hsource, htarget⟩ :=
      join_yields now p.firstElement p.secondElement look g
    have hyields : Yields (do
        let joined ← join now p.firstElement p.secondElement look
        return (joined.connector.id, (p.put joined.source joined.target).push joined.connector)) g
        _ (j.connector.id, (p.put j.source j.target).push j.connector) g₁ :=
      hjoin.bind (.pure _ _)
    have heq := hyields.1.symm.trans h
    rw [Prod.mk.injEq, Except.ok.injEq, Prod.mk.injEq] at heq
    obtain ⟨⟨rfl, rfl⟩, -⟩ := heq
    exact ⟨p, j.connector, j.source, j.target, hconnects, hsource, htarget, rfl, rfl⟩

end Document

end Whiteboard.Drawing
