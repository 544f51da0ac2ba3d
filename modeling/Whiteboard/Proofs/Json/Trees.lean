import Mathlib.Data.List.Basic
import Whiteboard.Proofs.Json.Numerals

/-!
# Whiteboard — values and their trees

`Json.tree` is the tree that the text of a value spells. Not every value is read back
from it: a reader yields numbers in range (`Json.InRange`) and fields in order of their
keys (`Json.Ordered`), and refuses what nests too deep (`Json.depth`).

Main results:

* `Readable.value?_tree` — a value with these three properties is read from its tree, up to the
  rounding of the reader (`Json.reread`).
* `readable_of_value?` — whatever a tree denotes has them.
-/

namespace Whiteboard

/-! ## Lists -/

theorem mapM_map_eq_some {α β γ : Type} {form : α → β} {value? : β → Option γ} {g : α → γ}
    {items : List α} (h : ∀ a ∈ items, value? (form a) = some (g a)) :
    (items.map form).mapM value? = some (items.map g) := by
  induction items with
  | nil => rfl
  | cons a items ih =>
    rw [List.map_cons, List.mapM_cons, h a List.mem_cons_self,
      ih fun b hb => h b (List.mem_cons_of_mem _ hb)]
    rfl

theorem map_eq_self {α : Type} {f : α → α} {items : List α} (h : ∀ a ∈ items, f a = a) :
    items.map f = items :=
  (List.map_congr_left h).trans items.map_id'

theorem exists_of_mem_mapM {α β : Type} {value? : α → Option β} {items : List α} {values : List β}
    (h : items.mapM value? = some values) {b : β} (hb : b ∈ values) :
    ∃ a ∈ items, value? a = some b := by
  induction items generalizing values with
  | nil =>
    cases h
    cases hb
  | cons a items ih =>
    rw [List.mapM_cons] at h
    obtain ⟨head, hhead, h⟩ := Option.bind_eq_some_iff.mp h
    obtain ⟨tail, htail, h⟩ := Option.bind_eq_some_iff.mp h
    cases h
    rcases List.mem_cons.mp hb with rfl | hb
    · exact ⟨a, List.mem_cons_self, hhead⟩
    · obtain ⟨a', ha', hvalue⟩ := ih htail hb
      exact ⟨a', List.mem_cons_of_mem _ ha', hvalue⟩

/-- All items of a list that is mapped as a whole are mapped. -/
theorem exists_of_mapM {α β : Type} {value? : α → Option β} {items : List α} {values : List β}
    (h : items.mapM value? = some values) {a : α} (ha : a ∈ items) : ∃ b, value? a = some b := by
  induction items generalizing values with
  | nil => cases ha
  | cons head items ih =>
    rw [List.mapM_cons] at h
    obtain ⟨b, hb, h⟩ := Option.bind_eq_some_iff.mp h
    obtain ⟨tail, htail, -⟩ := Option.bind_eq_some_iff.mp h
    rcases List.mem_cons.mp ha with rfl | ha
    · exact ⟨b, hb⟩
    · exact ih htail ha

namespace Json

variable {S : Type}

/-! ## Induction -/

/-- Induction over the parts of a value. -/
@[elab_as_elim]
theorem induction {motive : Json S → Prop} (null : motive .null) (bool : ∀ b, motive (.bool b))
    (number : ∀ n, motive (.number n)) (string : ∀ s, motive (.string s))
    (array : ∀ items, (∀ v ∈ items, motive v) → motive (.array items))
    (object : ∀ fields, (∀ f ∈ fields, motive f.2) → motive (.object fields)) (v : Json S) :
    motive v :=
  @Json.rec S motive (fun items => ∀ v ∈ items, motive v) (fun fields => ∀ f ∈ fields, motive f.2)
    (fun f => motive f.2) null bool number string array object (List.forall_mem_nil _)
    (fun _ _ hv hvs => List.forall_mem_cons.mpr ⟨hv, hvs⟩) (List.forall_mem_nil _)
    (fun _ _ hf hfs => List.forall_mem_cons.mpr ⟨hf, hfs⟩) (fun _ _ hv => hv) v

/-! ## Depth -/

mutual

/-- How many levels of arrays and objects a value nests. -/
def depth : Json S → Nat
  | .array items => itemsDepth items + 1
  | .object fields => fieldsDepth fields + 1
  | _ => 0

/-- The depth of the deepest item. -/
def itemsDepth : List (Json S) → Nat
  | [] => 0
  | v :: vs => max v.depth (itemsDepth vs)

/-- The depth of the deepest field. -/
def fieldsDepth : List (String × Json S) → Nat
  | [] => 0
  | (_, v) :: fs => max v.depth (fieldsDepth fs)

end

theorem depth_array_le_iff {items : List (Json S)} {room : Nat} :
    (array items).depth ≤ room + 1 ↔ ∀ v ∈ items, v.depth ≤ room := by
  rw [depth, Nat.add_le_add_iff_right]
  induction items with
  | nil => simp [itemsDepth]
  | cons v vs ih => rw [itemsDepth, Nat.max_le, ih, List.forall_mem_cons]

theorem depth_object_le_iff {fields : List (String × Json S)} {room : Nat} :
    (object fields).depth ≤ room + 1 ↔ ∀ f ∈ fields, f.2.depth ≤ room := by
  rw [depth, Nat.add_le_add_iff_right]
  induction fields with
  | nil => simp [fieldsDepth]
  | cons f fs ih => rw [fieldsDepth, Nat.max_le, ih, List.forall_mem_cons]

/-! ## Fields in order -/

/-- The keys of fields are in order, each once. -/
def Ascending (fields : List (String × Json S)) : Prop := fields.Pairwise fun f g => f.1 < g.1

theorem ascending_iff_pairwise_keys {fields : List (String × Json S)} :
    Ascending fields ↔ (fields.map Prod.fst).Pairwise fun k l => k < l :=
  List.pairwise_map.symm

theorem insertField_eq_append {key : String} {v : Json S} {fields : List (String × Json S)}
    (h : ∀ f ∈ fields, f.1 < key) : insertField key v fields = fields ++ [(key, v)] := by
  induction fields with
  | nil => rfl
  | cons f fs ih =>
    obtain ⟨hf, hfs⟩ := List.forall_mem_cons.mp h
    have hne : key ≠ f.1 := fun heq => String.lt_irrefl key (heq ▸ hf)
    have hnot : ¬ key < f.1 := fun hlt => String.lt_irrefl key (String.lt_trans hlt hf)
    rw [insertField, if_neg hne, if_neg hnot, ih hfs, List.cons_append]

/-- Fields in order stay as they are. -/
theorem sortedFields_of_ascending {fields : List (String × Json S)} (h : Ascending fields) :
    sortedFields fields = fields := by
  have hrun : ∀ rest front : List (String × Json S), Ascending (front ++ rest) →
      rest.foldl (fun sorted f => insertField f.1 f.2 sorted) front = front ++ rest := by
    -- each field goes behind all that were put in before
    intro rest
    induction rest with
    | nil =>
      intro front _
      rw [List.foldl_nil, List.append_nil]
    | cons f rest ih =>
      intro front hfront
      have hbefore : ∀ g ∈ front, g.1 < f.1 := fun g hg =>
        (List.pairwise_append.mp hfront).2.2 g hg f List.mem_cons_self
      rw [List.foldl_cons, insertField_eq_append hbefore, ih _ (by simpa using hfront)]
      simp
  exact hrun fields [] h

theorem mem_of_mem_insertField {key : String} {v : Json S} {fields : List (String × Json S)}
    {f : String × Json S} (h : f ∈ insertField key v fields) : f = (key, v) ∨ f ∈ fields := by
  induction fields with
  | nil => exact Or.inl (List.mem_singleton.mp h)
  | cons g fs ih =>
    rw [insertField] at h
    split at h
    · exact (List.mem_cons.mp h).imp_right (List.mem_cons_of_mem _)
    split at h
    · exact List.mem_cons.mp h
    · rcases List.mem_cons.mp h with rfl | h
      · exact Or.inr List.mem_cons_self
      · exact (ih h).imp_right (List.mem_cons_of_mem _)

theorem ascending_insertField {key : String} {v : Json S} {fields : List (String × Json S)}
    (h : Ascending fields) : Ascending (insertField key v fields) := by
  induction fields with
  | nil => exact List.pairwise_singleton _ _
  | cons g fs ih =>
    obtain ⟨hg, hfs⟩ := List.pairwise_cons.mp h
    rw [insertField]
    split
    · -- the first field has the key and is replaced
      rename_i heq
      exact List.pairwise_cons.mpr ⟨fun f hf => heq ▸ hg f hf, hfs⟩
    rename_i hne
    split
    · rename_i hlt
      exact List.pairwise_cons.mpr ⟨List.forall_mem_cons.mpr
        ⟨hlt, fun f hf => String.lt_trans hlt (hg f hf)⟩, h⟩
    · rename_i hnot
      have hlt : g.1 < key := by
        by_contra hge
        exact hne (String.le_antisymm (String.not_lt.mp hge) (String.not_lt.mp hnot))
      refine List.pairwise_cons.mpr ⟨fun f hf => ?_, ih hfs⟩
      rcases mem_of_mem_insertField hf with rfl | hf
      · exact hlt
      · exact hg f hf

/-- Fields are put in order, and none is made up. -/
theorem sortedFields_spec (fields : List (String × Json S)) :
    Ascending (sortedFields fields) ∧ ∀ f ∈ sortedFields fields, f ∈ fields := by
  have hrun : ∀ rest front : List (String × Json S), Ascending front →
      Ascending (rest.foldl (fun sorted f => insertField f.1 f.2 sorted) front) ∧
        ∀ f ∈ rest.foldl (fun sorted f => insertField f.1 f.2 sorted) front,
          f ∈ front ∨ f ∈ rest := by
    intro rest
    induction rest with
    | nil => exact fun front hfront => ⟨hfront, fun f hf => Or.inl hf⟩
    | cons g rest ih =>
      intro front hfront
      obtain ⟨hascending, hmem⟩ := ih (insertField g.1 g.2 front) (ascending_insertField hfront)
      refine ⟨hascending, fun f hf => ?_⟩
      rcases hmem f hf with hf | hf
      · rcases mem_of_mem_insertField hf with rfl | hf
        · exact Or.inr List.mem_cons_self
        · exact Or.inl hf
      · exact Or.inr (List.mem_cons_of_mem _ hf)
  obtain ⟨hascending, hmem⟩ := hrun fields [] List.Pairwise.nil
  exact ⟨hascending, fun f hf => (hmem f hf).resolve_left List.not_mem_nil⟩

/-! ## Values that a reader yields -/

/-- All numbers of a value are in range. -/
inductive InRange [Scalar S] : Json S → Prop where
  | null : InRange .null
  | bool (b : Bool) : InRange (.bool b)
  | number {n : Number S} (range : n.InRange) : InRange (.number n)
  | string (s : String) : InRange (.string s)
  | array {items : List (Json S)} (parts : ∀ v ∈ items, InRange v) : InRange (.array items)
  | object {fields : List (String × Json S)} (parts : ∀ f ∈ fields, InRange f.2) :
    InRange (.object fields)

/-- All objects of a value have their fields in order. -/
inductive Ordered : Json S → Prop where
  | null : Ordered .null
  | bool (b : Bool) : Ordered (.bool b)
  | number (n : Number S) : Ordered (.number n)
  | string (s : String) : Ordered (.string s)
  | array {items : List (Json S)} (parts : ∀ v ∈ items, Ordered v) : Ordered (.array items)
  | object {fields : List (String × Json S)} (keys : Ascending fields)
    (parts : ∀ f ∈ fields, Ordered f.2) : Ordered (.object fields)

/-- A value as it comes out of a reader that follows `room` levels. -/
structure Readable [Scalar S] (room : Nat) (v : Json S) : Prop where
  inRange : v.InRange
  ordered : v.Ordered
  depth_le : v.depth ≤ room

theorem Readable.mono [Scalar S] {m n : Nat} {v : Json S} (h : v.Readable m) (hmn : m ≤ n) :
    v.Readable n :=
  ⟨h.inRange, h.ordered, Nat.le_trans h.depth_le hmn⟩

theorem readable_array_iff [Scalar S] {items : List (Json S)} {room : Nat} :
    (array items).Readable (room + 1) ↔ ∀ v ∈ items, v.Readable room := by
  constructor
  · rintro ⟨hrange, horder, hdepth⟩ v hv
    cases hrange with
    | array ranges =>
      cases horder with
      | array orders => exact ⟨ranges v hv, orders v hv, depth_array_le_iff.mp hdepth v hv⟩
  · intro h
    exact ⟨.array fun v hv => (h v hv).inRange, .array fun v hv => (h v hv).ordered,
      depth_array_le_iff.mpr fun v hv => (h v hv).depth_le⟩

theorem readable_object_iff [Scalar S] {fields : List (String × Json S)} {room : Nat} :
    (object fields).Readable (room + 1) ↔
      Ascending fields ∧ ∀ f ∈ fields, f.2.Readable room := by
  constructor
  · rintro ⟨hrange, horder, hdepth⟩
    cases hrange with
    | object ranges =>
      cases horder with
      | object keys orders =>
        exact ⟨keys, fun f hf => ⟨ranges f hf, orders f hf, depth_object_le_iff.mp hdepth f hf⟩⟩
  · rintro ⟨hkeys, h⟩
    exact ⟨.object fun f hf => (h f hf).inRange, .object hkeys fun f hf => (h f hf).ordered,
      depth_object_le_iff.mpr fun f hf => (h f hf).depth_le⟩

variable [Numeral S]

mutual

/-- The tree that the text of a value spells. -/
def tree : Json S → Tree
  | .null => .null
  | .bool b => .bool b
  | .number n => .number n.literal
  | .string s => .string (some s)
  | .array items => .array (itemTrees items)
  | .object fields => .object (fieldTrees fields)

/-- The trees of items. -/
def itemTrees : List (Json S) → List Tree
  | [] => []
  | v :: vs => v.tree :: itemTrees vs

/-- The fields with the trees of their values. -/
def fieldTrees : List (String × Json S) → List (Option String × Tree)
  | [] => []
  | (key, v) :: fs => (some key, v.tree) :: fieldTrees fs

end

theorem itemTrees_eq_map (items : List (Json S)) : itemTrees items = items.map tree := by
  induction items with
  | nil => rfl
  | cons v vs ih => rw [itemTrees, ih, List.map_cons]

theorem fieldTrees_eq_map (fields : List (String × Json S)) :
    fieldTrees fields = fields.map fun f => (some f.1, f.2.tree) := by
  induction fields with
  | nil => rfl
  | cons f fs ih => rw [fieldTrees, ih, List.map_cons]

mutual

/-- What a reader makes of a value: its numbers are read again. -/
def reread : Json S → Json S
  | .number n => .number n.reread
  | .array items => .array (rereadItems items)
  | .object fields => .object (rereadFields fields)
  | v => v

/-- The items, read again. -/
def rereadItems : List (Json S) → List (Json S)
  | [] => []
  | v :: vs => v.reread :: rereadItems vs

/-- The fields, their values read again. -/
def rereadFields : List (String × Json S) → List (String × Json S)
  | [] => []
  | (key, v) :: fs => (key, v.reread) :: rereadFields fs

end

theorem rereadItems_eq_map (items : List (Json S)) : rereadItems items = items.map reread := by
  induction items with
  | nil => rfl
  | cons v vs ih => rw [rereadItems, ih, List.map_cons]

theorem rereadFields_eq_map (fields : List (String × Json S)) :
    rereadFields fields = fields.map fun f => (f.1, f.2.reread) := by
  induction fields with
  | nil => rfl
  | cons f fs ih => rw [rereadFields, ih, List.map_cons]

/-- Reading again leaves the keys as they are. -/
theorem ascending_rereadFields {fields : List (String × Json S)} (h : Ascending fields) :
    Ascending (rereadFields fields) := by
  rw [rereadFields_eq_map]
  exact List.pairwise_map.mpr h

variable [Scalar S]

/-- Where reading is exact, a value in range is read as it is. -/
theorem reread_eq [ExactNumeral S] {v : Json S} (h : v.InRange) : v.reread = v := by
  induction v using Json.induction with
  | null | bool | string => rfl
  | number n =>
    cases h with
    | number range => rw [reread, Number.reread_eq range]
  | array items ih =>
    cases h with
    | array parts =>
      rw [reread, rereadItems_eq_map, map_eq_self fun v hv => ih v hv (parts v hv)]
  | object fields ih =>
    cases h with
    | object parts =>
      have hfields : ∀ f ∈ fields, (f.1, f.2.reread) = f := fun f hf => by
        rw [ih f hf (parts f hf)]
      rw [reread, rereadFields_eq_map, map_eq_self hfields]

variable [LawfulNumeral S]

/-- **A readable value is read from its tree**, up to the rounding of the reader. -/
theorem Readable.value?_tree {v : Json S} :
    ∀ {room : Nat}, v.Readable room → v.tree.value? room = some v.reread := by
  induction v using Json.induction with
  | null | bool | string =>
    intro room _
    cases room <;> rfl
  | number n =>
    intro room h
    cases h.inRange with
    | number range =>
      rw [tree, Tree.value?, Number.number?_literal range, Option.map_some, reread]
  | array items ih =>
    intro room h
    cases room with
    | zero => exact absurd h.depth_le (by simp [depth])
    | succ room =>
      have hitems : (items.map tree).mapM (Tree.value? room) = some (items.map reread) :=
        mapM_map_eq_some fun v hv => ih v hv (readable_array_iff.mp h v hv)
      rw [tree, itemTrees_eq_map, Tree.value?, hitems, Option.map_some, reread,
        rereadItems_eq_map]
  | object fields ih =>
    intro room h
    cases room with
    | zero => exact absurd h.depth_le (by simp [depth])
    | succ room =>
      obtain ⟨hkeys, hparts⟩ := readable_object_iff.mp h
      have hsorted := sortedFields_of_ascending (ascending_rereadFields hkeys)
      rw [tree, fieldTrees_eq_map, Tree.value?, mapM_map_eq_some (g := fun f => (f.1, f.2.reread))]
      · rw [Option.map_some, ← rereadFields_eq_map, ofFields, hsorted, reread]
      · intro f hf
        simp only [ih f hf (hparts f hf), Option.bind_eq_bind, Option.bind_some]
        rfl

/-- **What a tree denotes is readable.** -/
theorem readable_of_value? {t : Tree} {room : Nat} {v : Json S} (h : t.value? room = some v) :
    v.Readable room := by
  -- an array or an object takes a level, and its parts are followed with what is left
  induction room using Nat.strongRecOn generalizing t v with
  | ind room ih =>
    cases t with
    | null =>
      rw [Tree.value?] at h
      cases h
      exact ⟨.null, .null, Nat.zero_le _⟩
    | bool b =>
      rw [Tree.value?] at h
      cases h
      exact ⟨.bool b, .bool b, Nat.zero_le _⟩
    | number l =>
      rw [Tree.value?] at h
      obtain ⟨n, hn, rfl⟩ := Option.map_eq_some_iff.mp h
      exact ⟨.number (Number.inRange_of_number? hn), .number n, Nat.zero_le _⟩
    | string s =>
      rw [Tree.value?] at h
      obtain ⟨s, rfl, rfl⟩ := Option.map_eq_some_iff.mp h
      exact ⟨.string s, .string s, Nat.zero_le _⟩
    | array items =>
      cases room with
      | zero => cases h
      | succ room =>
        obtain ⟨values, hvalues, rfl⟩ := Option.map_eq_some_iff.mp h
        refine readable_array_iff.mpr fun v hv => ?_
        obtain ⟨t, -, ht⟩ := exists_of_mem_mapM hvalues hv
        exact ih room (Nat.lt_succ_self room) ht
    | object fields =>
      cases room with
      | zero => cases h
      | succ room =>
        obtain ⟨values, hvalues, rfl⟩ := Option.map_eq_some_iff.mp h
        obtain ⟨hascending, hmem⟩ := sortedFields_spec values
        refine readable_object_iff.mpr ⟨hascending, fun f hf => ?_⟩
        obtain ⟨field, -, hfield⟩ := exists_of_mem_mapM hvalues (hmem f hf)
        obtain ⟨key, -, hfield⟩ := Option.bind_eq_some_iff.mp hfield
        obtain ⟨v, hv, hfield⟩ := Option.bind_eq_some_iff.mp hfield
        cases hfield
        exact ih room (Nat.lt_succ_self room) hv

end Json

end Whiteboard
