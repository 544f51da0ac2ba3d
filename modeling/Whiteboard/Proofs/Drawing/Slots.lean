import Whiteboard.Proofs.Drawing.Connected

/-!
# Whiteboard — changing elements where they stand

Ids may repeat, and then only the first element with an id counts. Five operations resolve
ids, each in its own way: one tells the place, one looks the element up, one opens it to be
changed, one replaces it and one opens two at once, for which the list is cut before the later
of the two. They all come to the same element, and whatever is written through them changes
nothing but what stands at the places of the ids.

Main results:

* `slot?_eq`, `slots_eq` — opening an element, or two, by the places of the ids.
* `first_match` — what all five operations do, in every case.
-/

namespace Whiteboard.Drawing.Document

variable {S : Type}

/-! ## Writing at places -/

/-- The second document has these elements at these places, and is as the first elsewhere. -/
structure Rewritten (d d' : Document S) (new : List (Nat × Element S)) : Prop where
  rest : d' = { d with elements := d'.elements }
  length_eq : d'.elements.length = d.elements.length
  written : ∀ f ∈ new, d'.elements[f.1]? = some f.2
  kept : ∀ k, k ∉ new.map Prod.fst → d'.elements[k]? = d.elements[k]?

theorem rewritten_setAt (d : Document S) (i : Fin d.elements.length) (e : Element S) :
    d.Rewritten (d.setAt i e) [(i.val, e)] where
  rest := rfl
  length_eq := List.length_set
  written := by
    rintro f hf
    obtain rfl := List.mem_singleton.mp hf
    exact List.getElem?_set_self i.isLt
  kept k hk := by
    have hne : i.val ≠ k := fun h => hk (List.mem_singleton.mpr h.symm)
    exact List.getElem?_set_ne hne

theorem Pair.rewritten_put {d : Document S} (p : d.Pair) (a b : Element S) :
    d.Rewritten (p.put a b) [(p.first.val, a), (p.second.val, b)] where
  rest := rfl
  length_eq := List.length_set.trans List.length_set
  written := by
    have hne : p.second.val ≠ p.first.val := fun h => p.distinct (Fin.ext h.symm)
    have hsecond : p.second.val < (d.elements.set p.first a).length :=
      List.length_set.symm ▸ p.second.isLt
    intro f hf
    rcases List.mem_pair.mp hf with rfl | rfl
    · -- the second write is elsewhere
      exact (List.getElem?_set_ne hne).trans (List.getElem?_set_self p.first.isLt)
    · exact List.getElem?_set_self hsecond
  kept k hk := by
    have hfirst : p.first.val ≠ k := fun h => hk (List.mem_pair.mpr (Or.inl h.symm))
    have hsecond : p.second.val ≠ k := fun h => hk (List.mem_pair.mpr (Or.inr h.symm))
    exact (List.getElem?_set_ne hsecond).trans (List.getElem?_set_ne hfirst)

/-! ## Opening one element -/

/-- The first item with a property is opened at its place. -/
theorem openFirst?_eq {α : Type} (p : α → Bool) (as : List α) :
    openFirst? p as = (as.findFinIdx? p).map fun i => (as.get i, fun new => as.set i new) := by
  induction as with
  | nil => rfl
  | cons a as ih =>
    rw [openFirst?, List.findFinIdx?_cons]
    split
    · rfl
    · -- the place is one further than among the items after the first
      rw [ih, Option.map_map, Option.map_map]
      rfl

/-- **An element is opened at the place of its id.** -/
theorem slot?_eq (d : Document S) (id : String) :
    d.slot? id = (d.place? id).map fun i => ⟨d.elements.get i, d.setAt i⟩ := by
  rw [slot?, openFirst?_eq, Option.map_map]
  rfl

/-! ## Opening two elements -/

/-- Writing into both parts of a list that is cut between two places writes at the two. -/
theorem set_take_append_set_drop {α : Type} {as : List α} {i j : Nat} (hij : i < j)
    (hj : j < as.length) (a b : α) :
    (as.take j).set i a ++ (as.drop j).set 0 b = (as.set i a).set j b := by
  have hlength : (as.take j).length = j := List.length_take_of_le (Nat.le_of_lt hj)
  have hcut : ((as.take j).set i a).length = j := List.length_set.trans hlength
  calc (as.take j).set i a ++ (as.drop j).set 0 b
      = ((as.take j).set i a ++ as.drop j).set j b := by
        rw [List.set_append_right _ _ (Nat.le_of_eq hcut), hcut, Nat.sub_self]
    _ = ((as.take j ++ as.drop j).set i a).set j b := by
        rw [List.set_append_left i a (by rwa [hlength])]
    _ = (as.set i a).set j b := by rw [List.take_append_drop]

theorem cutBefore_eq {α : Type} (as : List α) (i j : Fin as.length) (h : i < j) :
    cutBefore as i j h = (as.get i, as.get j, fun a b => (as.set i a).set j b) := by
  simp [cutBefore, set_take_append_set_drop h j.isLt]

/-- The two elements of a pair, to be changed where they stand. -/
def Pair.slots {d : Document S} (p : d.Pair) : Slots S := ⟨p.firstElement, p.secondElement, p.put⟩

/-- **Two elements are opened at the places of their ids**, whichever comes first. -/
theorem slots_eq (d : Document S) (first second : String) :
    d.slots first second = (d.pair first second).map Pair.slots := by
  rw [Document.slots]
  cases d.pair first second with
  | error e => rfl
  | ok p =>
    show (if h : p.first < p.second then _ else _) = Except.ok p.slots
    split
    · rename_i h
      rw [cutBefore_eq]
      rfl
    · rename_i h
      have hswap : ∀ a b : Element S, (d.elements.set p.second b).set p.first a =
          (d.elements.set p.first a).set p.second b := fun a b =>
        List.set_comm b a fun heq => p.distinct (Fin.ext heq.symm)
      rw [cutBefore_eq]
      simp only [hswap]
      rfl

/-! ## Replacing an element -/

theorem place?_eq_some_iff {d : Document S} {id : String} {i : Fin d.elements.length} :
    d.place? id = some i ↔ d.FirstAt id i := by
  refine ⟨firstAt_of_place?, fun h => List.findFinIdx?_eq_some_iff.mpr ⟨?_, fun k hk hid => ?_⟩⟩
  · exact beq_iff_eq.mpr h.here
  · exact h.before k hk (beq_iff_eq.mp hid)

theorem length_setAt (d : Document S) (i : Fin d.elements.length) (e : Element S) :
    (d.setAt i e).elements.length = d.elements.length :=
  List.length_set

/-- A place of a document in the document with an element put into a place. -/
def placeAfter (d : Document S) (i : Fin d.elements.length) (e : Element S)
    (k : Fin d.elements.length) : Fin (d.setAt i e).elements.length :=
  k.cast (length_setAt d i e).symm

theorem get_placeAfter_self (d : Document S) (i : Fin d.elements.length) (e : Element S) :
    (d.setAt i e).elements.get (d.placeAfter i e i) = e :=
  List.getElem_set_self _

theorem setAt_placeAfter_self (d : Document S) (i : Fin d.elements.length) (e : Element S) :
    (d.setAt i e).setAt (d.placeAfter i e i) (d.elements.get i) = d := by
  have helements : (d.elements.set i e).set i (d.elements.get i) = d.elements := by
    rw [List.set_set]
    exact List.set_getElem_self i.isLt
  show { d with elements := (d.elements.set i e).set i (d.elements.get i) } = d
  rw [helements]

/-- An element that is put where its id is resolved to is what its id is resolved to. -/
theorem place?_setAt {d : Document S} {e : Element S} {i : Fin d.elements.length}
    (h : d.FirstAt e.id i) : (d.setAt i e).place? e.id = some (d.placeAfter i e i) := by
  refine place?_eq_some_iff.mpr ⟨by rw [get_placeAfter_self], fun k hk => ?_⟩
  -- what stands before the place was there all along
  have hne : i.val ≠ k.val := fun heq => Nat.ne_of_gt hk heq
  have hkept : (d.setAt i e).elements.get k = d.elements.get (k.cast (length_setAt d i e)) :=
    List.getElem_set_ne hne _
  rw [hkept]
  exact h.before _ hk

/-- **Replacing.** An element takes the place of its id; it is found there afterwards, and what
was there before can be put back. -/
theorem replace_runs {d : Document S} {e : Element S} {i : Fin d.elements.length}
    (h : d.place? e.id = some i) :
    d.replace e = .ok (d.elements.get i, d.setAt i e) ∧ (d.setAt i e).get? e.id = some e ∧
      (d.setAt i e).replace (d.elements.get i) = .ok (e, d) := by
  have hfirst := firstAt_of_place? h
  have hplace := place?_setAt hfirst
  refine ⟨by rw [replace, h], ?_, ?_⟩
  · rw [get?_eq_place?, hplace, Option.map_some, get_placeAfter_self]
  · rw [replace, hfirst.here, hplace]
    show Except.ok ((d.setAt i e).elements.get (d.placeAfter i e i),
      (d.setAt i e).setAt (d.placeAfter i e i) (d.elements.get i)) = _
    rw [get_placeAfter_self, setAt_placeAfter_self]

/-! ## All operations -/

/-- **The first match counts.** Whatever the ids of a document, all operations resolve an id to
the first element that carries it, and fail if there is none.

* An element is found, or opened, as what stands at the place of its id.
* Replacing gives back what stood there. The new element is found under its id afterwards, and
  replacing it by the old one restores the document.
* Opening two elements fails for an id without an element, the first before the second, and for
  two ids that are the same. Otherwise the two are handed out in the order asked for.

Whatever is written, the number and the order of the elements stay as they are, and nothing
changes but what stands at the place, or the two places, of the ids. -/
theorem first_match (d : Document S) :
    (∀ id, match d.place? id with
      | none => (∀ e ∈ d.elements, e.id ≠ id) ∧ d.get? id = none ∧ d.slot? id = none
      | some i => d.FirstAt id i ∧ d.get? id = some (d.elements.get i) ∧
        ∃ slot, d.slot? id = some slot ∧ slot.element = d.elements.get i ∧
          ∀ new, d.Rewritten (slot.put new) [(i.val, new)]) ∧
    (∀ e : Element S, match d.place? e.id with
      | none => d.replace e = .error (.elementNotFound e.id)
      | some i => ∃ d', d.replace e = .ok (d.elements.get i, d') ∧
        d.Rewritten d' [(i.val, e)] ∧ d'.get? e.id = some e ∧
        d'.replace (d.elements.get i) = .ok (e, d)) ∧
    ∀ first second, d.slots first second = (d.pair first second).map Pair.slots ∧
      match d.place? first, d.place? second with
      | none, _ => d.slots first second = .error (.elementNotFound first)
      | some _, none => d.slots first second = .error (.elementNotFound second)
      | some i, some j =>
        if first = second then d.slots first second = .error (.selfConnection first)
        else i ≠ j ∧ ∃ slots, d.slots first second = .ok slots ∧
          slots.first = d.elements.get i ∧ slots.second = d.elements.get j ∧
          ∀ a b, d.Rewritten (slots.put a b) [(i.val, a), (j.val, b)] := by
  refine ⟨fun id => ?_, fun e => ?_, fun first second => ⟨slots_eq d first second, ?_⟩⟩
  · rw [get?_eq_place?, slot?_eq]
    cases hplace : d.place? id with
    | none => exact ⟨place?_eq_none_iff.mp hplace, rfl, rfl⟩
    | some i =>
      exact ⟨firstAt_of_place? hplace, rfl, _, rfl, rfl, fun new => rewritten_setAt d i new⟩
  · cases hplace : d.place? e.id with
    | none =>
      show d.replace e = _
      rw [replace, hplace]
    | some i =>
      obtain ⟨hreplace, hget, hback⟩ := replace_runs hplace
      exact ⟨d.setAt i e, hreplace, rewritten_setAt d i e, hget, hback⟩
  · rw [slots_eq]
    cases hfirst : d.place? first with
    | none =>
      show (d.pair first second).map Pair.slots = _
      rw [pair, hfirst]
      rfl
    | some i =>
      cases hsecond : d.place? second with
      | none =>
        show (d.pair first second).map Pair.slots = _
        rw [pair, hfirst, hsecond]
        rfl
      | some j =>
        show ite _ _ _
        split
        · -- one id has one place
          rename_i heq
          subst heq
          rw [hfirst] at hsecond
          obtain rfl := Option.some.inj hsecond
          rw [pair, hfirst]
          simp [Except.map]
        · rename_i hne
          have hplaces : i ≠ j := by
            rintro rfl
            exact hne ((id_of_place? hfirst).symm.trans (id_of_place? hsecond))
          have hpair : d.pair first second = .ok ⟨i, j, hplaces⟩ :=
            pair_eq_ok_iff.mpr ⟨hfirst, hsecond⟩
          rw [hpair]
          exact ⟨hplaces, _, rfl, rfl, rfl, fun a b => Pair.rewritten_put _ a b⟩

end Whiteboard.Drawing.Document
