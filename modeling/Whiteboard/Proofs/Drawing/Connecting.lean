import Mathlib.Data.List.Nodup
import Whiteboard.Proofs.Drawing.Appearance

/-!
# Whiteboard — connecting elements of a document

In a document whose ids are distinct an id stands for one element. Connecting two
of them changes these two and puts the connector on top.

Main results:

* `place?_of_mem` — an element is found at its place by its id.
* `connect_yields` — connecting two elements of a document with distinct ids
  succeeds, replaces these two by elements that have noted the connector, and
  keeps all others.
-/

namespace Whiteboard.Drawing

variable {S : Type}

namespace Document

/-- The ids of the elements, from the bottom to the top. -/
def ids (d : Document S) : List String := d.elements.map Element.id

/-! ## Places -/

/-- Where ids are distinct, a place is known by the id that stands there. -/
theorem eq_of_id_eq {d : Document S} (hnodup : d.ids.Nodup) {i j : Fin d.elements.length}
    (h : (d.elements.get i).id = (d.elements.get j).id) : i = j := by
  have hget := List.inj_on_of_nodup_map hnodup (List.get_mem d.elements i) (List.get_mem _ j) h
  exact (List.Nodup.of_map Element.id hnodup).injective_get hget

/-- Where ids are distinct, an element is found at its place by its id. -/
theorem place?_of_mem {d : Document S} (hnodup : d.ids.Nodup) {e : Element S}
    (he : e ∈ d.elements) : ∃ i, d.place? e.id = some i ∧ d.elements.get i = e := by
  obtain ⟨i, hi⟩ := List.get_of_mem he
  cases hplace : d.place? e.id with
  | none =>
    -- the element itself would have been found
    have hnone := List.findFinIdx?_eq_none_iff.mp hplace e he
    simp at hnone
  | some j =>
    obtain ⟨hj, -⟩ := List.findFinIdx?_eq_some_iff.mp hplace
    have hid : (d.elements.get j).id = (d.elements.get i).id := by
      rw [hi]
      exact beq_iff_eq.mp hj
    obtain rfl := eq_of_id_eq hnodup hid
    exact ⟨j, rfl, hi⟩

theorem get?_of_mem {d : Document S} (hnodup : d.ids.Nodup) {e : Element S}
    (he : e ∈ d.elements) : d.get? e.id = some e := by
  rw [get?]
  cases hfind : d.elements.find? fun x => x.id == e.id with
  | none =>
    have hnone := List.find?_eq_none.mp hfind e he
    simp at hnone
  | some e' =>
    have hid : e'.id = e.id := beq_iff_eq.mp (List.find?_some hfind :)
    rw [List.inj_on_of_nodup_map hnodup (List.mem_of_find?_eq_some hfind) he hid]

/-! ## Two elements at once -/

theorem pair_of_mem {d : Document S} (hnodup : d.ids.Nodup) {source target : Element S}
    (hsource : source ∈ d.elements) (htarget : target ∈ d.elements) (hne : source.id ≠ target.id) :
    ∃ p, d.pair source.id target.id = .ok p ∧ p.firstElement = source ∧
      p.secondElement = target := by
  obtain ⟨i, hi, hi'⟩ := place?_of_mem hnodup hsource
  obtain ⟨j, hj, hj'⟩ := place?_of_mem hnodup htarget
  have hij : i ≠ j := by
    rintro rfl
    rw [← hi', ← hj'] at hne
    exact hne rfl
  refine ⟨⟨i, j, hij⟩, ?_, hi', hj'⟩
  rw [pair, hi, hj]
  simp [hij]

/-- An element, or what takes its place: the one of two elements that has its id. -/
def replacing (first second e : Element S) : Element S :=
  if e.id = first.id then first else if e.id = second.id then second else e

theorem id_replacing (first second e : Element S) : (replacing first second e).id = e.id := by
  rw [replacing]
  split
  · rename_i h
    exact h.symm
  · split
    · rename_i h
      exact h.symm
    · rfl

/-- Replacing elements keeps all ids. -/
theorem ids_replacing (first second : Element S) (es : List (Element S)) :
    (es.map (replacing first second)).map Element.id = es.map Element.id := by
  rw [List.map_map]
  exact List.map_congr_left fun e _ => id_replacing first second e

theorem replacing_of_ne {first second e : Element S} (hfirst : e.id ≠ first.id)
    (hsecond : e.id ≠ second.id) : replacing first second e = e := by
  rw [replacing, if_neg hfirst, if_neg hsecond]

open Pair in
/-- Where ids are distinct, writing two elements into the places of elements with
their ids replaces these two and no other. -/
theorem elements_put {d : Document S} (hnodup : d.ids.Nodup) (p : d.Pair)
    {first second : Element S} (hfirst : first.id = p.firstElement.id)
    (hsecond : second.id = p.secondElement.id) :
    (p.put first second).elements = d.elements.map (replacing first second) := by
  -- place by place: an element has the id of a place only if it stands there
  refine List.ext_getElem (by simp [Pair.put]) fun k hk hk' => ?_
  have hk : k < d.elements.length := by simpa using hk'
  have hplace : ∀ i : Fin d.elements.length, d.elements[k].id = (d.elements.get i).id ↔ i.1 = k :=
    fun i => ⟨fun h => congrArg Fin.val (eq_of_id_eq hnodup (i := i) (j := ⟨k, hk⟩) h.symm),
      fun h => by subst h; rfl⟩
  rw [firstElement] at hfirst
  rw [secondElement] at hsecond
  rw [List.getElem_map, replacing, hfirst, hsecond]
  simp only [Pair.put, List.getElem_set, hplace]
  by_cases hk₁ : p.first.1 = k
  · -- the second element is written last, but into another place
    have hk₂ : ¬p.second.1 = k := fun h => p.distinct (Fin.ext (hk₁.trans h.symm))
    rw [if_neg hk₂, if_pos hk₁, if_pos hk₁]
  · rw [if_neg hk₁, if_neg hk₁]

end Document

/-! ## Connectors at an element -/

/-- How an element keeps the connectors at it: there is no list before the first. -/
def listed : List BoundElement → Option (List BoundElement)
  | [] => none
  | entries => some entries

@[simp] theorem getD_listed (entries : List BoundElement) : (listed entries).getD [] = entries := by
  cases entries <;> rfl

theorem listed_concat (entries : List BoundElement) (entry : BoundElement) :
    listed (entries ++ [entry]) = some (entries ++ [entry]) := by
  cases entries <;> rfl

/-- Exactly these connectors are at the element, in this order, and each of them
has made one version of it. -/
structure Element.Lists (e : Element S) (entries : List BoundElement) : Prop where
  list : e.boundElements = listed entries
  version : e.version.toNat = 1 + entries.length

theorem toNat_versionAfter {version : UInt32} (h : version.toNat < 0xFFFFFFFF) :
    (Element.versionAfter version).toNat = version.toNat + 1 := by
  rw [Element.versionAfter, if_neg]
  · rw [UInt32.toNat_add, UInt32.toNat_one]
    omega
  · rintro rfl
    simp at h

/-- Noting one more connector puts it at the end and makes one more version. -/
theorem Element.Lists.noted {now : Int64} {e e' : Element S} {entries : List BoundElement}
    {link : BoundElement} (h : e.Lists entries) (hnoted : e.Noted now link e')
    (hfresh : ∀ entry ∈ entries, entry.id ≠ link.id) (hfew : entries.length + 1 < 0xFFFFFFFF) :
    e'.Lists (entries ++ [link]) := by
  have hnew : e.isBoundTo link.id = false := by
    rw [Element.isBoundTo, h.list, getD_listed, List.any_eq_false]
    intro entry hentry
    simp [hfresh entry hentry]
  refine ⟨?_, ?_⟩
  · -- the connector is not listed yet, so it comes last
    rw [hnoted.boundElements_eq hnew, h.list, getD_listed, listed_concat]
  · have hversion := h.version
    rw [hnoted.version_eq, toNat_versionAfter (by omega), hversion, List.length_append,
      List.length_singleton]
    omega

/-! ## Connecting -/

variable [Scalar S] {G : Type} [IdSource G]

/-- **Connecting.** Where ids are distinct, two different elements of a document
can be connected. One id is drawn; two elements that have noted the connector take
the places of the two, and the connector comes on top. -/
theorem connect_yields (now : Int64) {d : Document S} (hnodup : d.ids.Nodup)
    {source target : Element S} (hsource : source ∈ d.elements) (htarget : target ∈ d.elements)
    (hne : source.id ≠ target.id) (look : ConnectorLook) (g : G) :
    ∃ c source' target' g', Yields (d.connect now source.id target.id look) g [c.id]
        (c.id, { d with
          elements := d.elements.map (Document.replacing source' target') ++ [c] }) g' ∧
      c.Connects (.plan source target) look ∧
      source.Noted now ⟨c.id, look.kind⟩ source' ∧ target.Noted now ⟨c.id, look.kind⟩ target' := by
  -- the two elements are found at their places, joined, and written back there
  obtain ⟨p, hpair, hfirst, hsecond⟩ := Document.pair_of_mem hnodup hsource htarget hne
  obtain ⟨j, g', hjoin, hconnects, hsourceNoted, htargetNoted⟩ :=
    join_yields now source target look g
  refine ⟨j.connector, j.source, j.target, g', ?_, hconnects, hsourceNoted, htargetNoted⟩
  have hput := Document.elements_put hnodup p (hsourceNoted.id_eq.trans (congrArg _ hfirst.symm))
    (htargetNoted.id_eq.trans (congrArg _ hsecond.symm))
  rw [Document.connect, hpair, ← hput]
  rw [← hfirst, ← hsecond] at hjoin
  exact hjoin.bind (.pure _ _)

end Whiteboard.Drawing
