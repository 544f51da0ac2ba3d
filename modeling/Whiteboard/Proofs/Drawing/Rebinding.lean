import Whiteboard.Proofs.Drawing.Editing

/-!
# Whiteboard — binding a connector anew

A connector of a document may be bound to two other elements, whether it is bound already or
not. The connector then names the two and both list it, but nobody looks at the elements that
it was bound to before: they go on listing it.

What names and lists say is told by places here, as an id stands for the first element that
carries it. In `Mutual` documents elements list exactly the connectors that name them.

Main results:

* `Document.rebind_yields` — a connector can be bound to two other elements; what is
  written is `Rebound`.
* `lists_rebind_iff` — after a connector was bound anew, elements list exactly the connectors
  that name them, and this one where it was bound before; all is mutual only if it was bound
  to none but the two.
-/

namespace Whiteboard.Drawing

variable {S : Type}

/-! ## Who names and who lists whom -/

/-- The ids of the connectors that an element lists. -/
def Element.listedIds (e : Element S) : List String := e.connectors.map BoundElement.id

namespace Document

/-- There is an element at every place, and at no other number. -/
theorem exists_getElem?_iff {d : Document S} {i : Nat} :
    (∃ e, d.elements[i]? = some e) ↔ i < d.size :=
  ⟨fun ⟨_, he⟩ => (List.getElem?_eq_some_iff.mp he).1, fun hi => ⟨_, List.getElem?_eq_getElem hi⟩⟩

/-- The place of the first element with an id, as a number. -/
def index? (d : Document S) (id : String) : Option Nat := d.ids.idxOf? id

theorem index?_eq_place? (d : Document S) (id : String) :
    d.index? id = (d.place? id).map Fin.val := by
  unfold index? ids place?
  rw [List.idxOf?, List.findIdx?_map, List.findIdx?_eq_map_findFinIdx?_val]
  rfl

theorem index?_of_place? {d : Document S} {id : String} {i : Fin d.elements.length}
    (h : d.place? id = some i) : d.index? id = some i.val := by
  rw [index?_eq_place?, h, Option.map_some]

/-- A place is that of one id only. -/
theorem eq_of_index?_eq {d : Document S} {id id' : String} {i : Nat} (h : d.index? id = some i)
    (h' : d.index? id' = some i) : id = id' := by
  rw [index?_eq_place?, Option.map_eq_some_iff] at h h'
  obtain ⟨a, ha, rfl⟩ := h
  obtain ⟨b, hb, heq⟩ := h'
  obtain rfl := Fin.ext heq
  exact (id_of_place? ha).symm.trans (id_of_place? hb)

theorem lt_size_of_index? {d : Document S} {id : String} {i : Nat} (h : d.index? id = some i) :
    i < d.size := by
  rw [index?_eq_place?, Option.map_eq_some_iff] at h
  obtain ⟨a, -, rfl⟩ := h
  exact a.isLt

theorem mem_ids_of_index? {d : Document S} {id : String} {i : Nat} (h : d.index? id = some i) :
    id ∈ d.ids := by
  rw [index?_eq_place?, Option.map_eq_some_iff] at h
  obtain ⟨a, ha, -⟩ := h
  exact List.mem_map.mpr ⟨_, List.get_mem _ _, id_of_place? ha⟩

theorem exists_place?_of_mem {d : Document S} {id : String} (h : id ∈ d.ids) :
    ∃ i, d.place? id = some i := by
  rw [← Option.isSome_iff_exists, place?, List.isSome_findFinIdx?]
  obtain ⟨e, he, heq⟩ := List.mem_map.mp h
  exact List.any_eq_true.mpr ⟨e, he, beq_iff_eq.mpr heq⟩

/-- The element at the one place is bound to the one at the other. -/
def Names (d : Document S) (connector element : Nat) : Prop :=
  ∃ c ∈ d.elements[connector]?, ∃ id ∈ c.targets, d.index? id = some element

/-- The element at the one place lists the one at the other. -/
def Lists (d : Document S) (element connector : Nat) : Prop :=
  ∃ e ∈ d.elements[element]?, ∃ id ∈ e.listedIds, d.index? id = some connector

instance (d : Document S) (connector element : Nat) : Decidable (d.Names connector element) :=
  inferInstanceAs (Decidable (∃ c ∈ d.elements[connector]?, ∃ id ∈ c.targets, _))

instance (d : Document S) (element connector : Nat) : Decidable (d.Lists element connector) :=
  inferInstanceAs (Decidable (∃ e ∈ d.elements[element]?, ∃ id ∈ e.listedIds, _))

/-- Elements list exactly the connectors that name them, each of them once. -/
structure Mutual (d : Document S) : Prop where
  lists_iff : ∀ element connector, d.Lists element connector ↔ d.Names connector element
  once : ∀ e ∈ d.elements, e.listedIds.Nodup

/-- Only the places of the document matter. -/
theorem mutual_iff {d : Document S} : d.Mutual ↔
    (∀ x < d.size, ∀ y < d.size, (d.Lists x y ↔ d.Names y x)) ∧
      ∀ e ∈ d.elements, e.listedIds.Nodup := by
  refine ⟨fun h => ⟨fun x _ y _ => h.lists_iff x y, h.once⟩, fun ⟨hiff, honce⟩ => ⟨?_, honce⟩⟩
  intro x y
  by_cases h : x < d.size ∧ y < d.size
  · exact hiff x h.1 y h.2
  · -- one of the two is no place, so nothing stands there and no id stands for it
    refine iff_of_false ?_ ?_
    · rintro ⟨e, he, id, -, hid⟩
      exact h ⟨exists_getElem?_iff.mp ⟨e, he⟩, lt_size_of_index? hid⟩
    · rintro ⟨c, hc, id, -, hid⟩
      exact h ⟨lt_size_of_index? hid, exists_getElem?_iff.mp ⟨c, hc⟩⟩

instance (d : Document S) : Decidable d.Mutual := decidable_of_iff' _ mutual_iff

end Document

/-! ## Listing one connector more -/

theorem Element.isBoundTo_iff {e : Element S} {id : String} :
    e.isBoundTo id = true ↔ id ∈ e.listedIds := by
  unfold isBoundTo listedIds connectors
  simp [List.any_eq_true]

namespace Element.Noted

variable {now : Int64} {old new : Element S} {link : BoundElement}

/-- Who has noted a connector lists what it listed before, and the connector. -/
theorem listedIds_eq (h : old.Noted now link new) :
    new.listedIds = if link.id ∈ old.listedIds then old.listedIds
      else old.listedIds ++ [link.id] := by
  by_cases hbound : old.isBoundTo link.id = true
  · rw [if_pos (isBoundTo_iff.mp hbound)]
    obtain ⟨nonce, rfl⟩ := h
    simp [listedIds, connectors, addBoundElement, hbound]
  · rw [if_neg (mt isBoundTo_iff.mpr hbound)]
    unfold listedIds connectors
    rw [h.boundElements_eq (Bool.not_eq_true _ ▸ hbound)]
    simp

theorem mem_listedIds (h : old.Noted now link new) {id : String} :
    id ∈ new.listedIds ↔ id ∈ old.listedIds ∨ id = link.id := by
  rw [h.listedIds_eq]
  split
  · rename_i hlisted
    exact ⟨Or.inl, fun hid => hid.elim (fun hold => hold) fun heq => heq ▸ hlisted⟩
  · rw [List.mem_append, List.mem_singleton]

theorem nodup_listedIds (h : old.Noted now link new) (hnodup : old.listedIds.Nodup) :
    new.listedIds.Nodup := by
  rw [h.listedIds_eq]
  split
  · exact hnodup
  · rename_i hunlisted
    refine List.nodup_append.mpr ⟨hnodup, List.nodup_singleton _, ?_⟩
    rintro id hid _ hlink rfl
    exact hunlisted (List.mem_singleton.mp hlink ▸ hid)

end Element.Noted

/-! ## What is written -/

/-- What becomes of links when a connector is bound to two elements: it is bound to these
and to no others, and these list it beside what they listed before. -/
structure Rebound (d d' : Document S) (connector source target : String) : Prop where
  ids_eq : d'.ids = d.ids
  targets_eq : ∀ x e e', d.elements[x]? = some e → d'.elements[x]? = some e' →
    e'.targets = if d.index? connector = some x then [source, target] else e.targets
  mem_listedIds : ∀ x e e', d.elements[x]? = some e → d'.elements[x]? = some e' → ∀ id,
    (id ∈ e'.listedIds ↔ id ∈ e.listedIds ∨
      id = connector ∧ (d.index? source = some x ∨ d.index? target = some x))
  once : (∀ e ∈ d.elements, e.listedIds.Nodup) → ∀ e ∈ d'.elements, e.listedIds.Nodup

namespace Rebound

variable {d d' : Document S} {connector source target : String}

theorem index?_eq (h : Rebound d d' connector source target) (id : String) :
    d'.index? id = d.index? id := by
  rw [Document.index?, h.ids_eq, Document.index?]

theorem size_eq (h : Rebound d d' connector source target) : d'.size = d.size := by
  have hlength := congrArg List.length h.ids_eq
  rw [Document.ids, Document.ids, List.length_map, List.length_map] at hlength
  exact hlength

/-- There are elements at the same places. -/
theorem exists_of_exists (h : Rebound d d' connector source target) {x : Nat} {e : Element S}
    (he : d.elements[x]? = some e) : ∃ e', d'.elements[x]? = some e' := by
  rw [Document.exists_getElem?_iff, h.size_eq]
  exact Document.exists_getElem?_iff.mp ⟨e, he⟩

theorem exists_of_exists' (h : Rebound d d' connector source target) {x : Nat} {e' : Element S}
    (he' : d'.elements[x]? = some e') : ∃ e, d.elements[x]? = some e := by
  rw [Document.exists_getElem?_iff, ← h.size_eq]
  exact Document.exists_getElem?_iff.mp ⟨e', he'⟩

/-- The connector names the two elements, and all others name whom they named before. -/
theorem names_iff (h : Rebound d d' connector source target) {x y : Nat} :
    d'.Names y x ↔ if d.index? connector = some y then
      d.index? source = some x ∨ d.index? target = some x else d.Names y x := by
  unfold Document.Names
  simp only [Option.mem_def, h.index?_eq]
  split
  · -- the connector itself
    rename_i hy
    constructor
    · rintro ⟨c', hc', id, hid, hx⟩
      obtain ⟨c, hc⟩ := h.exists_of_exists' hc'
      rw [h.targets_eq y c c' hc hc', if_pos hy] at hid
      simp only [List.mem_cons, List.not_mem_nil, or_false] at hid
      rcases hid with rfl | rfl
      · exact Or.inl hx
      · exact Or.inr hx
    · intro hx
      obtain ⟨c, hc⟩ := Document.exists_getElem?_iff.mpr (Document.lt_size_of_index? hy)
      obtain ⟨c', hc'⟩ := h.exists_of_exists hc
      have htargets := h.targets_eq y c c' hc hc'
      rw [if_pos hy] at htargets
      rcases hx with hx | hx
      · exact ⟨c', hc', source, by simp [htargets], hx⟩
      · exact ⟨c', hc', target, by simp [htargets], hx⟩
  · -- any other element
    rename_i hy
    constructor
    · rintro ⟨c', hc', id, hid, hx⟩
      obtain ⟨c, hc⟩ := h.exists_of_exists' hc'
      rw [h.targets_eq y c c' hc hc', if_neg hy] at hid
      exact ⟨c, hc, id, hid, hx⟩
    · rintro ⟨c, hc, id, hid, hx⟩
      obtain ⟨c', hc'⟩ := h.exists_of_exists hc
      refine ⟨c', hc', id, ?_, hx⟩
      rw [h.targets_eq y c c' hc hc', if_neg hy]
      exact hid

/-- The two elements list the connector, and all list whom they listed before. -/
theorem lists_iff (h : Rebound d d' connector source target) {x y : Nat} :
    d'.Lists x y ↔ d.Lists x y ∨
      d.index? connector = some y ∧ (d.index? source = some x ∨ d.index? target = some x) := by
  unfold Document.Lists
  simp only [Option.mem_def, h.index?_eq]
  constructor
  · rintro ⟨e', he', id, hid, hy⟩
    obtain ⟨e, he⟩ := h.exists_of_exists' he'
    rcases (h.mem_listedIds x e e' he he' id).mp hid with hold | ⟨rfl, hx⟩
    · exact Or.inl ⟨e, he, id, hold, hy⟩
    · exact Or.inr ⟨hy, hx⟩
  · rintro (⟨e, he, id, hid, hy⟩ | ⟨hy, hx⟩)
    · obtain ⟨e', he'⟩ := h.exists_of_exists he
      exact ⟨e', he', id, (h.mem_listedIds x e e' he he' id).mpr (Or.inl hid), hy⟩
    · have hlt : x < d.size := hx.elim Document.lt_size_of_index? Document.lt_size_of_index?
      obtain ⟨e, he⟩ := Document.exists_getElem?_iff.mpr hlt
      obtain ⟨e', he'⟩ := h.exists_of_exists he
      exact ⟨e', he', connector,
        (h.mem_listedIds x e e' he he' connector).mpr (Or.inr ⟨rfl, hx⟩), hy⟩

/-- Where all was mutual, an element lists who names it and, if it was named by the
connector, the connector. -/
theorem lists_iff_names (h : Rebound d d' connector source target) (hmutual : d.Mutual)
    (x y : Nat) :
    d'.Lists x y ↔ d'.Names y x ∨ d.index? connector = some y ∧ d.Names y x := by
  rw [h.lists_iff, h.names_iff, hmutual.lists_iff]
  by_cases hy : d.index? connector = some y
  · simp only [hy, if_true, true_and]
    exact or_comm
  · simp only [hy, if_false, false_and]

/-- All stays mutual only where the connector was bound to none but the two. -/
theorem mutual_iff (h : Rebound d d' connector source target) (hmutual : d.Mutual)
    {c : Element S} (hc : d.get? connector = some c) :
    d'.Mutual ↔ ∀ id ∈ c.targets, id ∈ d.ids → id = source ∨ id = target := by
  obtain ⟨k, hk, hkc⟩ := Document.exists_place?_of_get? hc
  have hindex : d.index? connector = some k.val := Document.index?_of_place? hk
  have hmem : d.elements[k.val]? = some c := by
    rw [← hkc]
    exact List.getElem?_eq_getElem k.isLt
  constructor
  · intro hmutual' id hid hidMem
    -- the place of a former end is one of the two
    obtain ⟨x, hx⟩ := Document.exists_place?_of_mem hidMem
    have hx : d.index? id = some x.val := Document.index?_of_place? hx
    have hformer : d.Names k.val x.val := ⟨c, hmem, id, hid, hx⟩
    have hlists := (h.lists_iff_names hmutual _ _).mpr (Or.inr ⟨hindex, hformer⟩)
    have hnames := (hmutual'.lists_iff _ _).mp hlists
    rw [h.names_iff, if_pos hindex] at hnames
    exact hnames.imp (Document.eq_of_index?_eq hx) (Document.eq_of_index?_eq hx)
  · -- who was named by the connector before is named by it now
    intro hformer
    refine ⟨fun x y => (h.lists_iff_names hmutual x y).trans (or_iff_left_of_imp ?_),
      h.once hmutual.once⟩
    rintro ⟨hy, e, he, id, hid, hx⟩
    obtain rfl : k.val = y := Option.some.inj (hindex.symm.trans hy)
    obtain rfl : c = e := Option.some.inj (hmem.symm.trans he)
    rw [h.names_iff, if_pos hindex]
    rcases hformer id hid (Document.mem_ids_of_index? hx) with rfl | rfl
    · exact Or.inl hx
    · exact Or.inr hx

end Rebound

/-- What stands at a place of a list before and after elements were written to three different
places. -/
theorem cases_set_three {α : Type} {l : List α} {i j k : Fin l.length} (hij : i ≠ j) (hik : i ≠ k)
    (hjk : j ≠ k) {a b c : α} {x : Nat} {u v : α} (hu : l[x]? = some u)
    (hv : (((l.set i a).set j b).set k c)[x]? = some v) :
    (x = i.val ∧ u = l.get i ∧ v = a) ∨ (x = j.val ∧ u = l.get j ∧ v = b) ∨
      (x = k.val ∧ u = l.get k ∧ v = c) ∨ (x ≠ i.val ∧ x ≠ j.val ∧ x ≠ k.val ∧ v = u) := by
  have hij : i.val ≠ j.val := mt Fin.ext hij
  have hik : i.val ≠ k.val := mt Fin.ext hik
  have hjk : j.val ≠ k.val := mt Fin.ext hjk
  have hget : ∀ p : Fin l.length, x = p.val → u = l.get p := by
    rintro p rfl
    exact (List.getElem?_eq_some_iff.mp hu).2.symm
  have hset : (x = i.val ∧ v = a) ∨ (x = j.val ∧ v = b) ∨ (x = k.val ∧ v = c) ∨
      (x ≠ i.val ∧ x ≠ j.val ∧ x ≠ k.val ∧ l[x]? = some v) := by
    grind
  rcases hset with ⟨hx, rfl⟩ | ⟨hx, rfl⟩ | ⟨hx, rfl⟩ | ⟨hxi, hxj, hxk, hx⟩
  · exact Or.inl ⟨hx, hget i hx, rfl⟩
  · exact Or.inr (Or.inl ⟨hx, hget j hx, rfl⟩)
  · exact Or.inr (Or.inr (Or.inl ⟨hx, hget k hx, rfl⟩))
  · exact Or.inr (Or.inr (Or.inr ⟨hxi, hxj, hxk, Option.some.inj (hx.symm.trans hu)⟩))

/-- Two elements that have noted a connector and the connector that is bound to them, in
their three places. -/
theorem rebound_of_elements {now : Int64} {kind : Kind} {d d' : Document S}
    {connector source target : String} {i j k : Fin d.elements.length}
    (hi : d.place? source = some i) (hj : d.place? target = some j)
    (hk : d.place? connector = some k) (hij : i ≠ j) (hik : i ≠ k) (hjk : j ≠ k)
    {source' target' bound : Element S}
    (hsource : (d.elements.get i).Noted now ⟨connector, kind⟩ source')
    (htarget : (d.elements.get j).Noted now ⟨connector, kind⟩ target')
    (hid : bound.id = (d.elements.get k).id) (htargets : bound.targets = [source, target])
    (hlisted : bound.listedIds = (d.elements.get k).listedIds)
    (helements : d'.elements = ((d.elements.set i source').set j target').set k bound) :
    Rebound d d' connector source target := by
  have hsourceIndex : d.index? source = some i.val := Document.index?_of_place? hi
  have htargetIndex : d.index? target = some j.val := Document.index?_of_place? hj
  have hindex : d.index? connector = some k.val := Document.index?_of_place? hk
  have hcases : ∀ {x : Nat} {e e' : Element S}, d.elements[x]? = some e →
      d'.elements[x]? = some e' →
      (x = i.val ∧ e = d.elements.get i ∧ e' = source') ∨
      (x = j.val ∧ e = d.elements.get j ∧ e' = target') ∨
      (x = k.val ∧ e = d.elements.get k ∧ e' = bound) ∨
      (x ≠ i.val ∧ x ≠ j.val ∧ x ≠ k.val ∧ e' = e) := by
    intro x e e' he he'
    rw [helements] at he'
    exact cases_set_three hij hik hjk he he'
  have hik : i.val ≠ k.val := mt Fin.ext hik
  have hjk : j.val ≠ k.val := mt Fin.ext hjk
  refine ⟨?_, ?_, ?_, ?_⟩
  · -- ids
    have hset : ∀ a : Fin d.elements.length,
        d.ids.set a (d.elements.get a).id = d.ids := Document.map_set_get Element.id d.elements
    have hids : d'.ids = ((d.ids.set i source'.id).set j target'.id).set k bound.id := by
      rw [Document.ids, helements, List.map_set, List.map_set, List.map_set, ← Document.ids]
    rw [hids, hsource.id_eq, htarget.id_eq, hid, hset, hset, hset]
  · -- what elements are bound to
    intro x e e' he he'
    rw [hindex]
    rcases hcases he he' with ⟨rfl, rfl, rfl⟩ | ⟨rfl, rfl, rfl⟩ | ⟨rfl, rfl, rfl⟩ | ⟨-, -, hxk, rfl⟩
    · rw [if_neg (by simpa using hik.symm), Element.targets, hsource.shape_eq, Element.targets]
    · rw [if_neg (by simpa using hjk.symm), Element.targets, htarget.shape_eq, Element.targets]
    · rw [if_pos rfl, htargets]
    · rw [if_neg (by simpa using hxk.symm)]
  · -- what they list
    intro x e e' he he' id
    rw [hsourceIndex, htargetIndex]
    rcases hcases he he' with ⟨rfl, rfl, rfl⟩ | ⟨rfl, rfl, rfl⟩ | ⟨rfl, rfl, rfl⟩ |
      ⟨hxi, hxj, -, rfl⟩
    · simp [hsource.mem_listedIds]
    · simp [htarget.mem_listedIds]
    · simp [hlisted, hik, hjk]
    · simp [hxi.symm, hxj.symm]
  · -- nothing is listed twice
    intro honce e' he'
    obtain ⟨x, hx⟩ := List.mem_iff_getElem?.mp he'
    have hlt : x < d.elements.length := by
      have := (List.getElem?_eq_some_iff.mp hx).1
      simpa [helements] using this
    have he := List.getElem?_eq_getElem hlt
    have hold := honce _ (List.getElem_mem hlt)
    rcases hcases he hx with ⟨-, heq, rfl⟩ | ⟨-, heq, rfl⟩ | ⟨-, heq, rfl⟩ | ⟨-, -, -, rfl⟩
    · exact hsource.nodup_listedIds (heq ▸ hold)
    · exact htarget.nodup_listedIds (heq ▸ hold)
    · rw [hlisted, ← heq]
      exact hold
    · exact hold

/-! ## Binding anew -/

section

variable [Scalar S] {G : Type} [IdSource G]

namespace Document

/-- **Binding anew.** A line or an arrow of a document can be bound to two other elements of
it, and what is written is that. -/
theorem rebind_yields (now : Int64) {d : Document S} {connector source target : String}
    {c : Element S} (hc : d.get? connector = some c) (hlinear : c.kind.isLinear = true)
    (hsource : source ∈ d.ids) (htarget : target ∈ d.ids) (hne : source ≠ target)
    (hsourceNe : source ≠ connector) (htargetNe : target ≠ connector) (g : G) :
    ∃ bound d' g', Yields (d.rebind now connector source target) g [] (bound, d') g' ∧
      bound.id = connector ∧ bound.targets = [source, target] ∧
      Rebound d d' connector source target := by
  obtain ⟨k, hk, hkc⟩ := exists_place?_of_get? hc
  obtain ⟨i, hi⟩ := exists_place?_of_mem hsource
  obtain ⟨j, hj⟩ := exists_place?_of_mem htarget
  have hplaces : ∀ {id id' : String} {a b : Fin d.elements.length}, d.place? id = some a →
      d.place? id' = some b → id ≠ id' → a ≠ b := by
    rintro id id' a _ ha hb hid rfl
    exact hid ((id_of_place? ha).symm.trans (id_of_place? hb))
  have hij : i ≠ j := hplaces hi hj hne
  have hik : i ≠ k := hplaces hi hk hsourceNe
  have hjk : j ≠ k := hplaces hj hk htargetNe
  let p : d.Pair := ⟨i, j, hij⟩
  have hfirst : p.firstElement.id = source := id_of_place? hi
  have hsecond : p.secondElement.id = target := id_of_place? hj
  obtain ⟨source', target', g', hbind, hsourceNoted, htargetNoted⟩ :=
    bind_yields now hlinear p.firstElement p.secondElement g
  have hcid : c.id = connector := (mem_of_get? hc).2
  -- the two elements are written first, and leave the connector where it was
  have hids : (p.put source' target').ids = d.ids := map_put hsourceNoted.id_eq htargetNoted.id_eq
  obtain ⟨k', hk', hkk'⟩ : ∃ k', (p.put source' target').place? connector = some k' ∧
      k'.val = k.val := by
    have hindex : (p.put source' target').index? connector = some k.val := by
      rw [index?, hids]
      exact index?_of_place? hk
    rw [index?_eq_place?] at hindex
    exact Option.map_eq_some_iff.mp hindex
  let bound := c.attached p.firstElement p.secondElement
  have htargets : bound.targets = [source, target] := by
    rw [← hfirst, ← hsecond]
    exact Element.targets_of_ends (e := bound) (Shape.ends_attached hlinear _ _)
  refine ⟨bound, (p.put source' target').setAt k' bound, g', ?_, hcid, htargets, ?_⟩
  · have hheld : d.get connector = .ok c := by
      rw [get, hc]
    have hpair : d.pair source target = .ok p := pair_eq_ok_iff.mpr ⟨hi, hj⟩
    have hreplace : (p.put source' target').replace bound =
        .ok ((p.put source' target').elements.get k', (p.put source' target').setAt k' bound) := by
      rw [replace, show bound.id = connector from hcid, hk']
    unfold rebind
    exact (yields_settle hheld g).bind ((yields_settle hpair g).bind
      (hbind.bind ((yields_settle hreplace g').bind (.pure _ _))))
  · have helements : ((p.put source' target').setAt k' bound).elements =
        ((d.elements.set i source').set j target').set k bound := by
      rw [setAt, hkk']
      rfl
    have hid : bound.id = (d.elements.get k).id := hcid.trans (id_of_place? hk).symm
    have hlisted : bound.listedIds = (d.elements.get k).listedIds := by
      rw [hkc]
      rfl
    rw [hcid] at hsourceNoted htargetNoted
    exact rebound_of_elements hi hj hk hij hik hjk hsourceNoted htargetNoted hid htargets hlisted
      helements

end Document

/-- **Who lists a connector that was bound anew.** In a mutual document, a line or an arrow
`connector` is bound to two other elements. It is bound to these and no others then, no
element lists a connector twice, and an element lists a connector if and only if it is named
by it — or was named by `connector` before. So the document stays mutual only where
`connector` was bound to none but the two. -/
theorem lists_rebind_iff (now : Int64) {d : Document S} (hmutual : d.Mutual)
    {connector source target : String} {c : Element S} (hc : d.get? connector = some c)
    (hlinear : c.kind.isLinear = true) (hsource : source ∈ d.ids) (htarget : target ∈ d.ids)
    (hne : source ≠ target) (hsourceNe : source ≠ connector) (htargetNe : target ≠ connector)
    (g : G) :
    ∃ bound d' g', (d.rebind now connector source target).run.run g = (.ok (bound, d'), g') ∧
      bound.id = connector ∧ bound.targets = [source, target] ∧ d'.ids = d.ids ∧
      (∀ e ∈ d'.elements, e.listedIds.Nodup) ∧
      (∀ x y, d'.Lists x y ↔
        d'.Names y x ∨ d.index? connector = some y ∧ d.Names y x) ∧
      (d'.Mutual ↔ ∀ id ∈ c.targets, id ∈ d.ids → id = source ∨ id = target) := by
  obtain ⟨bound, d', g', ⟨hrun, -⟩, hid, htargets, hrebound⟩ :=
    Document.rebind_yields now hc hlinear hsource htarget hne hsourceNe htargetNe g
  exact ⟨bound, d', g', hrun, hid, htargets, hrebound.ids_eq, hrebound.once hmutual.once,
    hrebound.lists_iff_names hmutual, hrebound.mutual_iff hmutual hc⟩

end

/-! ## A connector that leaves an element -/

/-- Three shapes, `e-1` to `e-3`, and an arrow `e-4` between the first two. -/
def chained : Document Rat :=
  let steps : List (Edit Rat) :=
    [.create { kind := "rectangle", x := 0, y := 0 },
      .create { kind := "rectangle", x := 300, y := 0 },
      .create { kind := "rectangle", x := 600, y := 0 },
      .connect "e-1" "e-2" {}]
  ((Document.empty.edit (steps.map fun edit => (0, edit))).run (SequentialIds.fresh "e")).1

/-- The arrow is bound to the last two, and the first goes on listing it. -/
theorem lists_rebind_iff_of_chained : ∃ c, chained.get? "e-4" = some c ∧
    c.targets = ["e-1", "e-2"] ∧ chained.Mutual ∧ c.kind.isLinear = true ∧
    "e-2" ∈ chained.ids ∧ "e-3" ∈ chained.ids ∧
    ∃ bound d' g', (chained.rebind 0 "e-4" "e-2" "e-3").run.run (SequentialIds.fresh "f") =
        (.ok (bound, d'), g') ∧ bound.targets = ["e-2", "e-3"] ∧
      (∀ x y, d'.Lists x y ↔ d'.Names y x ∨ y = 3 ∧ chained.Names y x) ∧ ¬ d'.Mutual := by
  obtain ⟨c, hc, htargets, hlinear⟩ : ∃ c ∈ chained.get? "e-4", c.targets = ["e-1", "e-2"] ∧
    c.kind.isLinear = true := by decide +kernel
  have hmutual : chained.Mutual := by decide +kernel
  have hsource : "e-2" ∈ chained.ids := by decide +kernel
  have htarget : "e-3" ∈ chained.ids := by decide +kernel
  have hfirst : "e-1" ∈ chained.ids := by decide +kernel
  have hindex : chained.index? "e-4" = some 3 := by decide +kernel
  obtain ⟨bound, d', g', hrun, -, hbound, -, -, hlists, hiff⟩ :=
    lists_rebind_iff 0 hmutual hc hlinear hsource htarget (by decide) (by decide) (by decide)
      (SequentialIds.fresh "f")
  refine ⟨c, hc, htargets, hmutual, hlinear, hsource, htarget, bound, d', g', hrun, hbound, ?_, ?_⟩
  · simpa [hindex, eq_comm] using hlists
  · intro hmutual'
    have hformer := hiff.mp hmutual' "e-1" (by simp [htargets]) hfirst
    simp at hformer

/-- **Not mutual.** The document is mutual, and the arrow is bound to two other elements of
it; it does not name the first shape any more, but the first shape still lists it. -/
theorem not_mutual_rebind :
    chained.Mutual ∧ (∃ c ∈ chained.get? "e-4", c.kind.isLinear = true) ∧
      "e-2" ∈ chained.ids ∧ "e-3" ∈ chained.ids ∧
      ∃ r ∈ ((chained.rebind 0 "e-4" "e-2" "e-3").run.run (SequentialIds.fresh "f")).1.toOption,
        r.2.Lists 0 3 ∧ ¬ r.2.Names 3 0 ∧ ¬ r.2.Mutual := by
  decide +kernel

end Whiteboard.Drawing
