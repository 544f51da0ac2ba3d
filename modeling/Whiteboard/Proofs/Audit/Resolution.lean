import Mathlib.Data.List.Sort
import Whiteboard.Proofs.Audit.References

/-!
# Whiteboard — ids and references in any document

An element is named by its `id`, and it refers to others by the ids in its bindings and in the
list of what is bound to it. None of this is given in a document that is still to be audited:
ids may be missing or used twice, references may lead to elements further on or nowhere, and
what stands for an element may be no object at all.

What there is to warn of is told here by a relation, `Warns`, that looks at the elements and not
at the order in which they are visited. Every warning has a turn, and the turns are ordered as
words are; so the relation tells the list of the warnings with its order (`InTurns`).

Main results:

* `InTurns.eq_nil_iff`, `InTurns.sublist`, `InTurns.unique` — lists compared by what they say.
* `InTurns.flatMap`, `inTurns_zipIdx` — what is said of one thing after the other.
* `inTurns_referenceWarnings` — the warnings, each in its turn.
* `silent_iff`, `warns_append` — when there are none, and that a new element adds none.
* `references_reported` — all together.
-/

namespace Whiteboard.Audit

open scoped List

/-! ## Things said in turn -/

section Turns

variable {α β ι : Type}

/-- The list is what a relation tells, each thing once and in the order of the turns. -/
def InTurns (said : List Nat → α → Prop) (list : List α) : Prop :=
  ∃ turns : List (List Nat × α), turns.map Prod.snd = list ∧
    turns.Pairwise (fun x y => x.1 < y.1) ∧ ∀ turn a, (turn, a) ∈ turns ↔ said turn a

variable {said said' : List Nat → α → Prop} {list list' : List α}

theorem inTurns_nil (h : ∀ turn a, ¬ said turn a) : InTurns said [] :=
  ⟨[], rfl, .nil, fun turn a => iff_of_false List.not_mem_nil (h turn a)⟩

/-- A thing that is said alone has the empty turn. -/
theorem inTurns_singleton (a : α) : InTurns (fun turn b => turn = [] ∧ b = a) [a] := by
  refine ⟨[([], a)], rfl, List.pairwise_singleton .., fun turn b => ?_⟩
  rw [List.mem_singleton, Prod.mk.injEq]

theorem InTurns.congr (h : InTurns said list) (hsaid : ∀ turn a, said turn a ↔ said' turn a) :
    InTurns said' list := by
  obtain ⟨turns, hlist, hturns, hmem⟩ := h
  exact ⟨turns, hlist, hturns, fun turn a => (hmem turn a).trans (hsaid turn a)⟩

theorem InTurns.map (h : InTurns said list) (g : α → β) :
    InTurns (fun turn b => ∃ a, said turn a ∧ g a = b) (list.map g) := by
  obtain ⟨turns, rfl, hturns, hmem⟩ := h
  refine ⟨turns.map fun x => (x.1, g x.2), ?_, ?_, ?_⟩
  · rw [List.map_map, List.map_map]
    rfl
  · rwa [List.pairwise_map]
  · intro turn b
    rw [List.mem_map]
    constructor
    · rintro ⟨⟨turn, a⟩, ha, heq⟩
      cases heq
      exact ⟨a, (hmem turn a).mp ha, rfl⟩
    · rintro ⟨a, ha, rfl⟩
      exact ⟨(turn, a), (hmem turn a).mpr ha, rfl⟩

/-- The same as a part of something longer. -/
theorem InTurns.within (h : InTurns said list) (n : Nat) :
    InTurns (fun turn a => ∃ rest, said rest a ∧ n :: rest = turn) list := by
  obtain ⟨turns, rfl, hturns, hmem⟩ := h
  refine ⟨turns.map fun x => (n :: x.1, x.2), ?_, ?_, ?_⟩
  · rw [List.map_map]
    rfl
  · rw [List.pairwise_map]
    exact hturns.imp List.cons_lt_cons_self.mpr
  · intro turn a
    rw [List.mem_map]
    constructor
    · rintro ⟨⟨rest, a⟩, ha, heq⟩
      cases heq
      exact ⟨rest, (hmem rest a).mp ha, rfl⟩
    · rintro ⟨rest, ha, rfl⟩
      exact ⟨(rest, a), (hmem rest a).mpr ha, rfl⟩

theorem InTurns.append (h : InTurns said list) (h' : InTurns said' list')
    (hlt : ∀ turn a turn' a', said turn a → said' turn' a' → turn < turn') :
    InTurns (fun turn a => said turn a ∨ said' turn a) (list ++ list') := by
  obtain ⟨turns, rfl, hturns, hmem⟩ := h
  obtain ⟨turns', rfl, hturns', hmem'⟩ := h'
  refine ⟨turns ++ turns', List.map_append, ?_, ?_⟩
  · rw [List.pairwise_append]
    refine ⟨hturns, hturns', ?_⟩
    rintro ⟨turn, a⟩ ha ⟨turn', a'⟩ ha'
    exact hlt turn a turn' a' ((hmem turn a).mp ha) ((hmem' turn' a').mp ha')
  · intro turn a
    rw [List.mem_append]
    exact or_congr (hmem turn a) (hmem' turn a)

/-- What is said of parts, where the parts come in the order of their numbers. -/
theorem InTurns.flatMap {parts : List ι} {number : ι → Nat} {about : ι → List α}
    {said : ι → List Nat → α → Prop}
    (hnumbers : parts.Pairwise fun part part' => number part < number part')
    (h : ∀ part ∈ parts, InTurns (said part) (about part)) :
    InTurns (fun turn a => ∃ part ∈ parts, ∃ rest, said part rest a ∧ number part :: rest = turn)
      (parts.flatMap about) := by
  -- the first part, whose number is below those of all others
  induction parts with
  | nil => exact inTurns_nil fun turn a ⟨part, hpart, _⟩ => List.not_mem_nil hpart
  | cons part parts ih =>
    rw [List.pairwise_cons] at hnumbers
    rw [List.forall_mem_cons] at h
    have hpart := h.1.within (number part)
    refine (hpart.append (ih hnumbers.2 h.2) ?_).congr fun turn a => ?_
    · rintro turn a turn' a' ⟨rest, -, rfl⟩ ⟨other, hother, rest', -, rfl⟩
      exact List.cons_lt_cons_iff.mpr (Or.inl (hnumbers.1 other hother))
    · simp only [List.mem_cons, exists_eq_or_imp]

/-- What is said of the items of a list, one after the other. -/
theorem inTurns_zipIdx (items : List ι) {about : ι → Nat → List α}
    {said : ι → Nat → List Nat → α → Prop} (h : ∀ item i, InTurns (said item i) (about item i)) :
    InTurns (fun turn a => ∃ item i rest, items[i]? = some item ∧ said item i rest a ∧
      i :: rest = turn) (items.zipIdx.flatMap fun (item, i) => about item i) := by
  have hnumbers : items.zipIdx.Pairwise fun x y => x.2 < y.2 := by
    rw [← List.pairwise_map, List.zipIdx_map_snd]
    exact List.pairwise_lt_range'
  refine (InTurns.flatMap hnumbers fun x _ => h x.1 x.2).congr fun turn a => ?_
  simp only [Prod.exists, List.mem_zipIdx_iff_getElem?, exists_and_left]

/-- A list is empty where there is nothing to say. -/
theorem InTurns.eq_nil_iff (h : InTurns said list) : list = [] ↔ ∀ turn a, ¬ said turn a := by
  obtain ⟨turns, rfl, -, hmem⟩ := h
  rw [List.map_eq_nil_iff, List.eq_nil_iff_forall_not_mem]
  constructor
  · exact fun hnil turn a ha => hnil (turn, a) ((hmem turn a).mpr ha)
  · rintro hnone ⟨turn, a⟩ ha
    exact hnone turn a ((hmem turn a).mp ha)

/-- Where less is said, the list is a part of the other, in the same order. -/
theorem InTurns.sublist (h : InTurns said list) (h' : InTurns said' list')
    (hsaid : ∀ turn a, said turn a → said' turn a) : list <+ list' := by
  obtain ⟨turns, rfl, hturns, hmem⟩ := h
  obtain ⟨turns', rfl, hturns', hmem'⟩ := h'
  have hsubset : turns ⊆ turns' := fun ⟨turn, a⟩ ha =>
    (hmem' turn a).mpr (hsaid turn a ((hmem turn a).mp ha))
  have hnodup : turns.Nodup := by
    refine List.Pairwise.imp ?_ hturns
    rintro x _ hlt rfl
    exact List.lt_irrefl x.1 hlt
  have : Std.Antisymm fun x y : List Nat × α => x.1 < y.1 :=
    ⟨fun x y hxy hyx => absurd hyx (List.lt_asymm hxy)⟩
  have hsubperm := List.subperm_of_subset hnodup hsubset
  exact (List.sublist_of_subperm_of_pairwise hsubperm hturns hturns').map _

/-- There is one list only of what is said. -/
theorem InTurns.unique (h : InTurns said list) (h' : InTurns said list') : list = list' :=
  (h.sublist h' fun _ _ => id).antisymm (h'.sublist h fun _ _ => id)

end Turns

/-! ## Names and references -/

variable {S : Type}

/-- The element at a place has this id. -/
def IdAt (elements : List (Json S)) (place : Nat) (id : String) : Prop :=
  ∃ v, elements[place]? = some v ∧ v.get? "id" = some (.string id)

/-- Some element has this id. -/
def Names (elements : List (Json S)) (id : String) : Prop := ∃ place, IdAt elements place id

/-- The place of the first element that has this id. -/
def FirstUse (elements : List (Json S)) (place : Nat) (id : String) : Prop :=
  IdAt elements place id ∧ ∀ other, IdAt elements other id → place ≤ other

/-- A binding of the element, by its name, is to this id. -/
def BindsTo (v : Json S) (name id : String) : Prop :=
  ∃ binding, v.get? name = some binding ∧ binding.get? "elementId" = some (.string id)

/-- What is bound to the element has this id, at a place in the list. -/
def ListsAt (v : Json S) (place : Nat) (id : String) : Prop :=
  ∃ entries, v.get? "boundElements" = some (.array entries) ∧
    ∃ entry, entries[place]? = some entry ∧ entry.get? "id" = some (.string id)

/-- The bindings of an element, in the order in which they are looked at. -/
def bindingNames : List String := ["startBinding", "endBinding"]

/-- The element refers to this id. -/
def Refers (v : Json S) (id : String) : Prop :=
  (∃ name ∈ bindingNames, BindsTo v name id) ∨ ∃ place, ListsAt v place id

/-- What there is to warn of, and its turn: ids that were used before, and after all these the
references that lead nowhere, element by element, first those of its bindings. -/
inductive Warns (elements : List (Json S)) : List Nat → Finding S → Prop
  | duplicate {i j : Nat} {id : String} : FirstUse elements i id → IdAt elements j id → i < j →
      Warns elements [0, j] ⟨elementPath j ++ [.key "id"], .duplicateId id i⟩
  | binding {j n : Nat} {v : Json S} {name id : String} : elements[j]? = some v →
      bindingNames[n]? = some name → BindsTo v name id → ¬ Names elements id →
      Warns elements [1, j, n]
        ⟨elementPath j ++ [.key name, .key "elementId"], .unknownBindingTarget id⟩
  | entry {j n : Nat} {v : Json S} {id : String} : elements[j]? = some v →
      ListsAt v n id → ¬ Names elements id →
      Warns elements [1, j, 2, n]
        ⟨elementPath j ++ [.key "boundElements", .index n, .key "id"], .unknownBoundElement id⟩

/-! ## Looking up ids -/

theorem string?_bind_eq_some_iff {v? : Option (Json S)} {text : String} :
    v?.bind Json.string? = some text ↔ v? = some (.string text) := by
  rw [Option.bind_eq_some_iff]
  constructor
  · rintro ⟨v, rfl, hv⟩
    cases v <;> cases hv
    rfl
  · rintro rfl
    exact ⟨.string text, rfl, rfl⟩

theorem array?_bind_eq_some_iff {v? : Option (Json S)} {items : List (Json S)} :
    v?.bind Json.array? = some items ↔ v? = some (.array items) := by
  rw [Option.bind_eq_some_iff]
  constructor
  · rintro ⟨v, rfl, hv⟩
    cases v <;> cases hv
    rfl
  · rintro rfl
    exact ⟨.array items, rfl, rfl⟩

theorem idOf_eq_some_iff {v : Json S} {id : String} :
    idOf v = some id ↔ v.get? "id" = some (.string id) :=
  string?_bind_eq_some_iff

theorem idAt_iff {elements : List (Json S)} {place : Nat} {id : String} :
    IdAt elements place id ↔ ∃ h : place < elements.length, idOf elements[place] = some id := by
  constructor
  · rintro ⟨v, hv, hid⟩
    obtain ⟨h, rfl⟩ := List.getElem?_eq_some_iff.mp hv
    exact ⟨h, idOf_eq_some_iff.mpr hid⟩
  · rintro ⟨h, hid⟩
    exact ⟨elements[place], List.getElem?_eq_getElem h, idOf_eq_some_iff.mp hid⟩

theorem firstWithId_eq_some_iff {elements : List (Json S)} {id : String} {place : Nat} :
    firstWithId elements id = some place ↔ FirstUse elements place id := by
  rw [firstWithId, List.findIdx?_eq_some_iff_getElem]
  simp only [beq_iff_eq]
  constructor
  · rintro ⟨h, hid, hfirst⟩
    refine ⟨idAt_iff.mpr ⟨h, hid⟩, ?_⟩
    intro other hother
    obtain ⟨_, hid'⟩ := idAt_iff.mp hother
    exact Nat.le_of_not_lt fun hlt => hfirst other hlt hid'
  · rintro ⟨hat, hfirst⟩
    obtain ⟨h, hid⟩ := idAt_iff.mp hat
    refine ⟨h, hid, ?_⟩
    intro other hlt hid'
    have := hfirst other (idAt_iff.mpr ⟨hlt.trans h, hid'⟩)
    omega

/-- An id that names an element is first used somewhere. -/
theorem Names.exists_firstUse {elements : List (Json S)} {id : String} (h : Names elements id) :
    ∃ place, FirstUse elements place id := by
  cases hfirst : firstWithId elements id with
  | some place => exact ⟨place, firstWithId_eq_some_iff.mp hfirst⟩
  | none =>
    obtain ⟨place, hat⟩ := h
    obtain ⟨hlt, hid⟩ := idAt_iff.mp hat
    rw [firstWithId, List.findIdx?_eq_none_iff] at hfirst
    have hother := hfirst _ (List.getElem_mem hlt)
    rw [hid, beq_self_eq_true] at hother
    cases hother

theorem isSome_firstWithId_iff_names {elements : List (Json S)} {id : String} :
    (firstWithId elements id).isSome = true ↔ Names elements id := by
  rw [Option.isSome_iff_exists]
  constructor
  · rintro ⟨place, hplace⟩
    exact ⟨place, (firstWithId_eq_some_iff.mp hplace).1⟩
  · intro h
    obtain ⟨place, hplace⟩ := h.exists_firstUse
    exact ⟨place, firstWithId_eq_some_iff.mpr hplace⟩

/-! ## Each check in its turn -/

/-- What is said of each item on its own is told of the list under the paths of the items. -/
theorem inTurns_under {ι : Type} (items : List ι) (path : Nat → Path)
    {about : ι → Nat → List (Finding S)} {said : ι → Nat → List Nat → Finding S → Prop}
    (h : ∀ item i, InTurns (said item i) (about item i)) :
    InTurns (fun turn f => ∃ i item rest g, items[i]? = some item ∧ said item i rest g ∧
        turn = i :: rest ∧ f = g.under (path i))
      (items.zipIdx.flatMap fun (item, i) => (about item i).map (.under (path i))) := by
  refine (inTurns_zipIdx items fun item i => (h item i).map (Finding.under (path i))).congr ?_
  intro turn f
  constructor
  · rintro ⟨item, i, rest, hitem, ⟨g, hsaid, rfl⟩, rfl⟩
    exact ⟨i, item, rest, g, hitem, hsaid, rfl, rfl⟩
  · rintro ⟨i, item, rest, g, hitem, hsaid, rfl, rfl⟩
    exact ⟨item, i, rest, hitem, ⟨g, hsaid, rfl⟩, rfl⟩

theorem inTurns_checkDuplicate (elements : List (Json S)) (v : Json S) (j : Nat) :
    InTurns (fun turn f => ∃ id i, v.get? "id" = some (.string id) ∧ FirstUse elements i id ∧
        i < j ∧ turn = [] ∧ f = atField "id" (.duplicateId id i))
      (checkDuplicate elements v j) := by
  simp only [← idOf_eq_some_iff, ← firstWithId_eq_some_iff]
  unfold checkDuplicate
  cases idOf v with
  | none =>
    -- what has no id repeats none
    exact inTurns_nil fun turn f ⟨id, i, hid, _⟩ => nomatch hid
  | some id =>
    cases hfirst : firstWithId elements id with
    | none =>
      simp only [hfirst]
      refine inTurns_nil ?_
      rintro turn f ⟨_, i, ⟨⟩, hi, -⟩
      rw [hfirst] at hi
      cases hi
    | some first =>
      by_cases hlt : first < j
      · simp only [hfirst, if_pos hlt]
        refine (inTurns_singleton _).congr fun turn f => ?_
        constructor
        · exact fun hf => ⟨id, first, rfl, hfirst, hlt, hf⟩
        · rintro ⟨_, i, ⟨⟩, hi, -, hf⟩
          rw [hfirst] at hi
          cases hi
          exact hf
      · -- the element itself is the first with its id
        simp only [hfirst, if_neg hlt]
        refine inTurns_nil ?_
        rintro turn f ⟨_, i, ⟨⟩, hi, hlt', -⟩
        rw [hfirst] at hi
        cases hi
        exact hlt hlt'

theorem inTurns_checkTarget (elements : List (Json S)) (target : Option String)
    (problem : String → Problem S) (name : String) :
    InTurns (fun turn f => ∃ id, target = some id ∧ ¬ Names elements id ∧
        turn = [] ∧ f = atField name (problem id))
      (checkTarget elements target problem name) := by
  simp only [← isSome_firstWithId_iff_names]
  unfold checkTarget
  cases target with
  | none => exact inTurns_nil fun turn f ⟨id, hid, _⟩ => nomatch hid
  | some id =>
    by_cases hknown : (firstWithId elements id).isSome = true
    · simp only [if_pos hknown]
      refine inTurns_nil ?_
      rintro turn f ⟨_, ⟨⟩, hunknown, -⟩
      exact hunknown hknown
    · simp only [if_neg hknown]
      refine (inTurns_singleton _).congr fun turn f => ?_
      constructor
      · exact fun hf => ⟨id, rfl, hknown, hf⟩
      · rintro ⟨_, ⟨⟩, -, hf⟩
        exact hf

theorem bindsTo_iff {v : Json S} {name id : String} :
    bindingTarget v name = some id ↔ BindsTo v name id := by
  rw [bindingTarget, Option.bind_eq_some_iff]
  simp only [string?_bind_eq_some_iff]
  rfl

theorem inTurns_checkBindingTarget (elements : List (Json S)) (v : Json S) (name : String) :
    InTurns (fun turn f => ∃ id, BindsTo v name id ∧ ¬ Names elements id ∧
        turn = [] ∧ f = ⟨[.key name, .key "elementId"], .unknownBindingTarget id⟩)
      (checkBindingTarget elements v name) := by
  have h := (inTurns_checkTarget elements (bindingTarget v name) .unknownBindingTarget
    "elementId").map (Finding.under [.key name])
  refine h.congr fun turn f => ?_
  simp only [bindsTo_iff]
  constructor
  · rintro ⟨_, ⟨id, hid, hunknown, hturn, rfl⟩, rfl⟩
    exact ⟨id, hid, hunknown, hturn, rfl⟩
  · rintro ⟨id, hid, hunknown, hturn, rfl⟩
    exact ⟨_, ⟨id, hid, hunknown, hturn, rfl⟩, rfl⟩

theorem inTurns_checkBoundTargets (elements : List (Json S)) (v : Json S) :
    InTurns (fun turn f => ∃ n id, ListsAt v n id ∧ ¬ Names elements id ∧ turn = [n] ∧
        f = ⟨[.key "boundElements", .index n, .key "id"], .unknownBoundElement id⟩)
      (checkBoundTargets elements v) := by
  have harray : ∀ entries, (v.get? "boundElements").bind Json.array? = some entries ↔
      v.get? "boundElements" = some (.array entries) := fun _ => array?_bind_eq_some_iff
  simp only [ListsAt, ← harray]
  unfold checkBoundTargets
  cases (v.get? "boundElements").bind Json.array? with
  | none => exact inTurns_nil fun turn f ⟨n, id, ⟨entries, hentries, _⟩, _⟩ => nomatch hentries
  | some entries =>
    have h := inTurns_under entries (fun n => [.index n]) fun entry _ =>
      inTurns_checkTarget elements (idOf entry) .unknownBoundElement "id"
    refine (h.map (Finding.under [.key "boundElements"])).congr fun turn f => ?_
    simp only [idOf_eq_some_iff]
    constructor
    · rintro ⟨_, ⟨n, entry, _, _, hentry, ⟨id, hid, hunknown, rfl, rfl⟩, rfl, rfl⟩, rfl⟩
      exact ⟨n, id, ⟨entries, rfl, entry, hentry, hid⟩, hunknown, rfl, rfl⟩
    · rintro ⟨n, id, ⟨_, ⟨⟩, entry, hentry, hid⟩, hunknown, rfl, rfl⟩
      exact ⟨_, ⟨n, entry, [], _, hentry, ⟨id, hid, hunknown, rfl, rfl⟩, rfl, rfl⟩, rfl⟩

theorem inTurns_checkTargets (elements : List (Json S)) (v : Json S) :
    InTurns (fun turn f =>
        (∃ n name id, bindingNames[n]? = some name ∧ BindsTo v name id ∧ ¬ Names elements id ∧
          turn = [n] ∧ f = ⟨[.key name, .key "elementId"], .unknownBindingTarget id⟩) ∨
        ∃ n id, ListsAt v n id ∧ ¬ Names elements id ∧ turn = [2, n] ∧
          f = ⟨[.key "boundElements", .index n, .key "id"], .unknownBoundElement id⟩)
      (checkTargets elements v) := by
  have hbindings := inTurns_zipIdx bindingNames fun name _ =>
    inTurns_checkBindingTarget elements v name
  have hentries := (inTurns_checkBoundTargets elements v).within 2
  refine (hbindings.append hentries ?_).congr fun turn f => or_congr ?_ ?_
  · -- there are two bindings, so all that is bound to the element comes after them
    rintro turn f turn' f' ⟨name, n, rest, hname, -, rfl⟩ ⟨rest', -, rfl⟩
    have hn : n < 2 := (List.getElem?_eq_some_iff.mp hname).1
    exact List.cons_lt_cons_iff.mpr (Or.inl hn)
  · constructor
    · rintro ⟨name, n, _, hname, ⟨id, hid, hunknown, rfl, rfl⟩, rfl⟩
      exact ⟨n, name, id, hname, hid, hunknown, rfl, rfl⟩
    · rintro ⟨n, name, id, hname, hid, hunknown, rfl, rfl⟩
      exact ⟨name, n, [], hname, ⟨id, hid, hunknown, rfl, rfl⟩, rfl⟩
  · constructor
    · rintro ⟨_, ⟨n, id, hid, hunknown, rfl, rfl⟩, rfl⟩
      exact ⟨n, id, hid, hunknown, rfl, rfl⟩
    · rintro ⟨n, id, hid, hunknown, rfl, rfl⟩
      exact ⟨[n], ⟨n, id, hid, hunknown, rfl, rfl⟩, rfl⟩

/-- The warnings are those that there are, each in its turn. -/
theorem inTurns_referenceWarnings (elements : List (Json S)) :
    InTurns (Warns elements) (referenceWarnings elements) := by
  have hduplicates := (inTurns_under elements elementPath
    (inTurns_checkDuplicate elements)).within 0
  have htargets := (inTurns_under elements elementPath fun v _ =>
    inTurns_checkTargets elements v).within 1
  refine (hduplicates.append htargets ?_).congr fun turn f => ?_
  · -- the second round comes after the first
    rintro turn f turn' f' ⟨rest, -, rfl⟩ ⟨rest', -, rfl⟩
    exact List.cons_lt_cons_iff.mpr (Or.inl Nat.zero_lt_one)
  constructor
  · rintro (⟨_, ⟨j, v, _, _, hv, ⟨id, i, hid, hfirst, hlt, rfl, rfl⟩, rfl, rfl⟩, rfl⟩ |
      ⟨_, ⟨j, v, rest, g, hv, hdangling, rfl, rfl⟩, rfl⟩)
    · exact .duplicate hfirst ⟨v, hv, hid⟩ hlt
    · obtain ⟨n, name, id, hname, hid, hunknown, rfl, rfl⟩ | ⟨n, id, hid, hunknown, rfl, rfl⟩ :=
        hdangling
      · exact .binding hv hname hid hunknown
      · exact .entry hv hid hunknown
  · intro h
    cases h with
    | @duplicate i j id hfirst hat hlt =>
      obtain ⟨v, hv, hid⟩ := hat
      exact Or.inl ⟨[j], ⟨j, v, [], _, hv, ⟨id, i, hid, hfirst, hlt, rfl, rfl⟩, rfl, rfl⟩, rfl⟩
    | @binding j n v name id hv hname hid hunknown =>
      exact Or.inr ⟨[j, n], ⟨j, v, [n], _, hv,
        Or.inl ⟨n, name, id, hname, hid, hunknown, rfl, rfl⟩, rfl, rfl⟩, rfl⟩
    | @entry j n v id hv hid hunknown =>
      exact Or.inr ⟨[j, 2, n], ⟨j, v, [2, n], _, hv,
        Or.inr ⟨n, id, hid, hunknown, rfl, rfl⟩, rfl, rfl⟩, rfl⟩

/-! ## Silence -/

/-- There is nothing to warn of exactly if no id is used twice and all references are resolved. -/
theorem silent_iff {elements : List (Json S)} :
    (∀ turn f, ¬ Warns elements turn f) ↔
      (∀ i j id, IdAt elements i id → IdAt elements j id → i = j) ∧
        ∀ v ∈ elements, ∀ id, Refers v id → Names elements id := by
  constructor
  · intro hsilent
    constructor
    · intro i j id hi hj
      -- both are the first use, since nobody comes after it
      obtain ⟨first, hfirst⟩ := Names.exists_firstUse ⟨i, hi⟩
      have honly : ∀ place, IdAt elements place id → place = first := by
        intro place hat
        have hle := hfirst.2 place hat
        by_contra hne
        exact hsilent _ _ (.duplicate hfirst hat (by omega))
      rw [honly i hi, honly j hj]
    · intro v hv id hrefers
      obtain ⟨j, hj⟩ := List.mem_iff_getElem?.mp hv
      by_contra hunknown
      obtain ⟨name, hname, hid⟩ | ⟨place, hid⟩ := hrefers
      · obtain ⟨n, hn⟩ := List.mem_iff_getElem?.mp hname
        exact hsilent _ _ (.binding hj hn hid hunknown)
      · exact hsilent _ _ (.entry hj hid hunknown)
  · rintro ⟨hdistinct, hresolved⟩ turn f h
    cases h with
    | duplicate hfirst hat hlt => exact hlt.ne (hdistinct _ _ _ hfirst.1 hat)
    | binding hv hname hid hunknown =>
      exact hunknown (hresolved _ (List.mem_of_getElem? hv) _
        (Or.inl ⟨_, List.mem_of_getElem? hname, hid⟩))
    | entry hv hid hunknown =>
      exact hunknown (hresolved _ (List.mem_of_getElem? hv) _ (Or.inr ⟨_, hid⟩))

/-! ## A new element -/

section Append

variable {elements : List (Json S)} {v : Json S}

theorem getElem?_append_singleton {w : Json S} {j : Nat} (h : (elements ++ [v])[j]? = some w) :
    elements[j]? = some w ∨ j = elements.length ∧ w = v := by
  obtain hlt | hle := Nat.lt_or_ge j elements.length
  · rw [List.getElem?_append_left hlt] at h
    exact Or.inl h
  · rw [List.getElem?_append_right hle, List.getElem?_singleton] at h
    split at h
    · cases h
      exact Or.inr ⟨by omega, rfl⟩
    · cases h

theorem IdAt.of_append {place : Nat} {id : String} (h : IdAt (elements ++ [v]) place id) :
    IdAt elements place id ∨ place = elements.length ∧ v.get? "id" = some (.string id) := by
  obtain ⟨w, hw, hid⟩ := h
  obtain hold | ⟨hplace, rfl⟩ := getElem?_append_singleton hw
  · exact Or.inl ⟨w, hold, hid⟩
  · exact Or.inr ⟨hplace, hid⟩

theorem IdAt.append {place : Nat} {id : String} (h : IdAt elements place id) :
    IdAt (elements ++ [v]) place id := by
  obtain ⟨w, hw, hid⟩ := h
  refine ⟨w, ?_, hid⟩
  rw [List.getElem?_append_left (List.getElem?_eq_some_iff.mp hw).1]
  exact hw

theorem Names.append {id : String} (h : Names elements id) : Names (elements ++ [v]) id := by
  obtain ⟨place, hat⟩ := h
  exact ⟨place, hat.append⟩

/-- A new element whose id is fresh and that refers to nobody gives no cause for a warning; it
can only be what was referred to. -/
theorem warns_append (hfresh : ∀ id, v.get? "id" = some (.string id) → ¬ Names elements id)
    (hrefers : ∀ id, ¬ Refers v id) {turn : List Nat} {f : Finding S}
    (h : Warns (elements ++ [v]) turn f) : Warns elements turn f := by
  cases h with
  | @duplicate i j id hfirst hat hlt =>
    have hold : IdAt elements i id := by
      obtain hold | ⟨hi, -⟩ := hfirst.1.of_append
      · exact hold
      · -- nobody comes after the new one
        have := (idAt_iff.mp hat).1
        rw [List.length_append, List.length_singleton] at this
        omega
    obtain hold' | ⟨-, hid⟩ := hat.of_append
    · exact .duplicate ⟨hold, fun other hother => hfirst.2 other hother.append⟩ hold' hlt
    · exact absurd ⟨i, hold⟩ (hfresh id hid)
  | binding hv hname hid hunknown =>
    obtain hold | ⟨-, rfl⟩ := getElem?_append_singleton hv
    · exact .binding hold hname hid fun hnames => hunknown hnames.append
    · exact absurd (Or.inl ⟨_, List.mem_of_getElem? hname, hid⟩) (hrefers _)
  | entry hv hid hunknown =>
    obtain hold | ⟨-, rfl⟩ := getElem?_append_singleton hv
    · exact .entry hold hid fun hnames => hunknown hnames.append
    · exact absurd (Or.inr ⟨_, hid⟩) (hrefers _)

end Append

/-! ## All together -/

/-- **Ids and references.** In any list of values the warnings are exactly those that there are,
first of ids in the order of the elements, then of references in this order. So there are none
exactly if no id is used twice and all references are resolved; and where an element comes last
whose id is fresh and that refers to nobody, no warning is added. -/
theorem references_reported (elements : List (Json S)) :
    (∀ fs, InTurns (Warns elements) fs ↔ fs = referenceWarnings elements) ∧
    (referenceWarnings elements = [] ↔
      (∀ i j id, IdAt elements i id → IdAt elements j id → i = j) ∧
        ∀ v ∈ elements, ∀ id, Refers v id → Names elements id) ∧
    ∀ v : Json S, (∀ id, v.get? "id" = some (.string id) → ¬ Names elements id) →
      (∀ id, ¬ Refers v id) →
      referenceWarnings (elements ++ [v]) <+ referenceWarnings elements := by
  have hwarnings := inTurns_referenceWarnings elements
  refine ⟨fun fs => ?_, ?_, ?_⟩
  · constructor
    · exact fun hfs => hfs.unique hwarnings
    · rintro rfl
      exact hwarnings
  · rw [hwarnings.eq_nil_iff, silent_iff]
  · intro v hfresh hrefers
    have happended := inTurns_referenceWarnings (elements ++ [v])
    exact happended.sublist hwarnings fun _ _ => warns_append hfresh hrefers

/-- Two elements of one id are attached to a third, which comes last: what was said of their
references is not said any more. -/
theorem references_reported_of_late :
    let c : Json Rat := .object [("id", .string "c"),
      ("startBinding", .object [("elementId", .string "d")])]
    let d : Json Rat := .object [("id", .string "d")]
    (∀ id, d.get? "id" = some (.string id) → ¬ Names [c, c] id) ∧ (∀ id, ¬ Refers d id) ∧
      referenceWarnings ([c, c] ++ [d]) <+ referenceWarnings [c, c] ∧
      referenceWarnings ([c, c] ++ [d]) =
        [⟨elementPath 1 ++ [.key "id"], .duplicateId "c" 0⟩] ∧
      (referenceWarnings [c, c]).length = 3 := by
  intro c d
  have hfresh : ∀ id, d.get? "id" = some (.string id) → ¬ Names [c, c] id := by
    rintro _ ⟨⟩ ⟨place, hat⟩
    obtain ⟨v, hv, hid⟩ := hat
    have hmem : v ∈ [c, c] := List.mem_of_getElem? hv
    obtain rfl : v = c := by simpa using hmem
    have hc : some (.string "c") = some (Json.string "d" : Json Rat) := hid
    simp at hc
  have hrefers : ∀ id, ¬ Refers d id := by
    rintro id (⟨name, hname, binding, hbinding, -⟩ | ⟨place, entries, hentries, -⟩)
    · simp only [bindingNames, List.mem_cons, List.not_mem_nil, or_false] at hname
      rcases hname with rfl | rfl <;> cases hbinding
    · cases hentries
  exact ⟨hfresh, hrefers, (references_reported [c, c]).2.2 d hfresh hrefers, rfl, rfl⟩

/-- Of three elements of one id the later ones are named, and both point to the first. -/
example :
    let c : Json S := .object [("id", .string "c")]
    referenceWarnings [c, .null, c, c] =
      [⟨elementPath 2 ++ [.key "id"], .duplicateId "c" 0⟩,
        ⟨elementPath 3 ++ [.key "id"], .duplicateId "c" 0⟩] := rfl

end Whiteboard.Audit
