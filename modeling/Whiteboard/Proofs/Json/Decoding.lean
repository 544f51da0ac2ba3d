import Whiteboard.Drawing.Wire
import Whiteboard.Json.Decode
import Whiteboard.Proofs.Audit.Records
import Whiteboard.Proofs.Drawing.Reread

/-!
# Whiteboard — decoders undo the forms of values

Every form in which a record writes a value has a decoder that gives the value back, its
numbers as the reader makes them of their digits.
A record is an object with each key once, so that its decoder finds every known field
wherever the field stands and whatever stands beside it.

Main results:

* `scalar?_tree`, `option?_tree`, `list?_tree` and the like — a decoder gives back what
  was written, up to the rounding of the reader.
* `exists_known?` — the known fields of a record are found under their keys.
* `isFinite_of_scalar?` — a decoded scalar is finite.
-/

namespace Whiteboard.Decode

open Json (IsInt64 fieldTrees fieldTrees_eq_map itemTrees_eq_map)

variable {α β S : Type} [Numeral S]

/-! ## Simple values -/

theorem text?_tree (s : String) : text? (Json.string s : Json S).tree = some s := rfl

theorem bool?_tree (b : Bool) : bool? (Json.bool b : Json S).tree = some b := rfl

theorem below?_tree {bound n : Nat} (hn : n < bound) (hbound : bound ≤ 2 ^ 64) :
    below? bound (Json.number (.int n) : Json S).tree = some n := by
  have hint : int? (Json.number (.int n) : Json S).tree = some (n : Int) :=
    Number.int?_literal (n := (n : Int)) ⟨by omega, by omega⟩
  rw [below?, hint, Option.bind_some, if_pos ⟨by omega, by omega⟩, Int.toNat_natCast]

theorem uint8?_tree (n : UInt8) : uint8? (Json.uint8 n : Json S).tree = some n := by
  rw [uint8?, Json.uint8, below?_tree n.toNat_lt (by decide), Option.map_some, UInt8.ofNat_toNat]

theorem uint32?_tree (n : UInt32) : uint32? (Json.uint32 n : Json S).tree = some n := by
  rw [uint32?, Json.uint32, below?_tree n.toNat_lt (by decide), Option.map_some,
    UInt32.ofNat_toNat]

theorem int64?_tree (n : Int64) : int64? (Json.int64 n : Json S).tree = some n := by
  have hlow := n.le_toInt
  have hhigh := n.toInt_lt
  have hint : int? (Json.int64 n : Json S).tree = some n.toInt :=
    Number.int?_literal ⟨by omega, by omega⟩
  have hmax : n.toInt ≤ Int64.maxValue.toInt := by
    show n.toInt ≤ 2 ^ 63 - 1
    omega
  rw [int64?, hint, Option.bind_some, if_pos hmax, Int64.ofInt_toInt]

theorem named?_tree [Named α] [LawfulNamed α] (saysNothing : Tree → Bool) (a : α) :
    named? saysNothing (Json.named a : Json S).tree = some a :=
  LawfulNamed.ofName?_name a

/-- A value, if its decoder refuses `null`. -/
theorem option?_tree {value? : Tree → Option β} {form : α → Json S} {g : α → β}
    (hnull : value? .null = none) {a? : Option α}
    (h : ∀ a ∈ a?, value? (form a).tree = some (g a)) :
    option? value? (Json.option form a?).tree = some (a?.map g) := by
  cases a? with
  | none => rfl
  | some a =>
    have hvalue := h a rfl
    rw [Json.option, option?.eq_def]
    split
    · -- a value whose form were `null` would not be decoded
      rename_i heq
      rw [heq, hnull] at hvalue
      cases hvalue
    · rw [hvalue, Option.map_some, Option.map_some]

theorem list?_tree {item? : Tree → Option β} {form : α → Json S} {g : α → β} {items : List α}
    (h : ∀ a ∈ items, item? (form a).tree = some (g a)) :
    list? item? (Json.list form items).tree = some (items.map g) := by
  rw [Json.list, Json.tree, list?, itemTrees_eq_map, List.map_map]
  exact mapM_map_eq_some h

/-- Items that are read as they are. -/
theorem list?_tree_self {item? : Tree → Option α} {form : α → Json S} {items : List α}
    (h : ∀ a ∈ items, item? (form a).tree = some a) :
    list? item? (Json.list form items).tree = some items := by
  rw [list?_tree (g := id) h, List.map_id]

section

variable [Scalar S] [LawfulNumeral S]

theorem scalar?_tree {x : S} (hx : Scalar.isFinite x = true) :
    scalar? (Json.scalar x).tree = some (Numeral.reread x) := by
  rw [Json.scalar, if_pos hx, Json.tree, scalar?]
  rw [Number.number?_literal (n := .real x) hx]
  rfl

theorem point?_tree {p : Point S} (hp : p.IsFinite) :
    point? (Json.point p).tree = some p.reread := by
  show (do return (⟨← scalar? (Json.scalar p.x).tree, ← scalar? (Json.scalar p.y).tree⟩ : Point S))
    = some p.reread
  rw [scalar?_tree hp.1, scalar?_tree hp.2]
  rfl

end

/-- An exact reader gives the scalar back. -/
theorem scalar?_tree_of_exact [Scalar S] [ExactNumeral S] {x : S}
    (hx : Scalar.isFinite x = true) : scalar? (Json.scalar x).tree = some x := by
  rw [scalar?_tree hx, ExactNumeral.reread_eq hx]

/-! ## Records -/

namespace Fields

/-- The known fields have these values under their keys. -/
def Holds (fs : Fields) (own : List (String × Json S)) : Prop :=
  ∀ f ∈ own, fs.get? f.1 = some f.2.tree

variable {fs : Fields} {own : List (String × Json S)} {key : String} {v : Json S}
  {value? : Tree → Option α} {a : α}

theorem Holds.required? (h : fs.Holds own) (hv : (key, v) ∈ own) (ha : value? v.tree = some a) :
    fs.required? key value? = some a := by
  rw [Fields.required?, h _ hv, Option.bind_some, ha]

theorem Holds.defaulted? (h : fs.Holds own) (hv : (key, v) ∈ own) (ha : value? v.tree = some a)
    (missing : α) : fs.defaulted? key missing value? = some a := by
  rw [Fields.defaulted?, h _ hv]
  exact ha

theorem Holds.optional? (h : fs.Holds own) {form : β → Json S} {g : β → α} {b? : Option β}
    (hv : (key, Json.option form b?) ∈ own) (hnull : value? .null = none)
    (hb : ∀ b ∈ b?, value? (form b).tree = some (g b)) :
    fs.optional? key value? = some (b?.map g) :=
  h.defaulted? hv (option?_tree hnull hb) none

/-- A value that is read as it is. -/
theorem Holds.optional?_self (h : fs.Holds own) {form : α → Json S} {a? : Option α}
    (hv : (key, Json.option form a?) ∈ own) (hnull : value? .null = none)
    (ha : ∀ a ∈ a?, value? (form a).tree = some a) : fs.optional? key value? = some a? := by
  rw [h.optional? (g := id) hv hnull ha, Option.map_id, id]

/-! What a decoder yields for a field, it yields for the value of the field. -/

theorem Holds.of_required? (h : fs.Holds own) (hv : (key, v) ∈ own)
    (ha : fs.required? key value? = some a) : value? v.tree = some a := by
  rwa [Fields.required?, h _ hv, Option.bind_some] at ha

theorem Holds.of_defaulted? (h : fs.Holds own) (hv : (key, v) ∈ own) {missing : α}
    (ha : fs.defaulted? key missing value? = some a) : value? v.tree = some a := by
  rwa [Fields.defaulted?, h _ hv] at ha

theorem Holds.of_optional? (h : fs.Holds own) {form : β → Json S} {b? : Option β}
    {b : β} (hb : b ∈ b?) (hv : (key, Json.option form b?) ∈ own) (hform : (form b).tree ≠ .null)
    {a? : Option α} (ha : fs.optional? key value? = some a?) :
    ∃ a, value? (form b).tree = some a := by
  obtain rfl := Option.mem_def.mp hb
  have hvalue : option? value? (form b).tree = some a? := h.of_defaulted? hv ha
  rw [option?.eq_def] at hvalue
  split at hvalue
  · rename_i hnull
    exact absurd hnull hform
  · obtain ⟨a, ha, -⟩ := Option.map_eq_some_iff.mp hvalue
    exact ⟨a, ha⟩

end Fields

/-- **The known fields of a record are found**, if no key is there twice. -/
theorem exists_known? (names : List String) {fields own : List (String × Json S)}
    (hkeys : (fields.map Prod.fst).Nodup) (hown : own ⊆ fields)
    (hnames : own.map Prod.fst ⊆ names) :
    ∃ fs, known? names (fieldTrees fields) = some fs ∧ fs.Holds own := by
  have hfields : (fieldTrees fields).mapM (fun f => f.1.map fun key => (key, f.2)) =
      some (fields.map fun f => (f.1, f.2.tree)) := by
    rw [fieldTrees_eq_map]
    exact mapM_map_eq_some fun f _ => rfl
  have hfirst : (fields.map fun f => (f.1, f.2.tree)).map Prod.fst = fields.map Prod.fst := by
    rw [List.map_map]
    rfl
  have hnodup : (((fields.map fun f => (f.1, f.2.tree)).filter fun f => names.contains f.1).map
      Prod.fst).Nodup :=
    List.Nodup.sublist (List.filter_sublist.map _) (hfirst ▸ hkeys)
  refine ⟨_, by rw [known?, hfields]; exact if_pos hnodup, fun f hf => ?_⟩
  -- the entry of the field is the only one with its key
  have hentry : (f.1, f.2.tree) ∈
      (fields.map fun f => (f.1, f.2.tree)).filter fun f => names.contains f.1 := by
    refine List.mem_filter.mpr ⟨List.mem_map.mpr ⟨f, hown hf, rfl⟩, ?_⟩
    simpa using hnames (List.mem_map_of_mem hf)
  rw [Fields.get?, find?_of_mem hnodup hentry, Option.map_some]

/-- A step that yields a value leaves the rest to be decoded. -/
theorem bind_eq_some_of {x : Option α} {f : α → Option β} {a : α} {b : β}
    (hx : x = some a) (hf : f a = some b) : (x >>= f) = some b :=
  Option.bind_eq_some_iff.mpr ⟨a, hx, hf⟩

/-! ## What decoders yield -/

/-- What holds of every result of a step holds of the steps together. -/
theorem forall_bind_eq_some {P : β → Prop} {x : Option α} {f : α → Option β}
    (h : ∀ a, x = some a → ∀ b, f a = some b → P b) : ∀ b, (x >>= f) = some b → P b := by
  intro b hb
  obtain ⟨a, ha, hf⟩ := Option.bind_eq_some_iff.mp hb
  exact h a ha b hf

theorem exists_of_mem_list? {item? : Tree → Option α} {t : Tree} {items : List α}
    (h : list? item? t = some items) {a : α} (ha : a ∈ items) : ∃ t, item? t = some a := by
  cases t with
  | array trees =>
    obtain ⟨t, -, ht⟩ := exists_of_mem_mapM h ha
    exact ⟨t, ht⟩
  | null | bool | number | string | object => cases h

namespace Fields

variable {fs : Fields} {key : String} {value? : Tree → Option α} {a : α}

theorem exists_of_required? (h : fs.required? key value? = some a) : ∃ t, value? t = some a := by
  obtain ⟨t, -, ht⟩ := Option.bind_eq_some_iff.mp h
  exact ⟨t, ht⟩

theorem exists_of_defaulted? {missing : α} (h : fs.defaulted? key missing value? = some a) :
    a = missing ∨ ∃ t, value? t = some a := by
  rw [Fields.defaulted?] at h
  split at h
  · exact Or.inl (Option.some.inj h).symm
  · exact Or.inr ⟨_, h⟩

theorem exists_of_optional? {a? : Option α} (h : fs.optional? key value? = some a?) (ha : a ∈ a?) :
    ∃ t, value? t = some a := by
  obtain rfl := Option.mem_def.mp ha
  rcases exists_of_defaulted? h with h | ⟨t, ht⟩
  · cases h
  · rw [option?.eq_def] at ht
    split at ht
    · cases ht
    · obtain ⟨b, hb, heq⟩ := Option.map_eq_some_iff.mp ht
      cases heq
      exact ⟨t, hb⟩

theorem exists_of_nullable? {a?? : Option (Option α)} (h : fs.nullable? key value? = some a??)
    {a? : Option α} (ha? : a? ∈ a??) (ha : a ∈ a?) : ∃ t, value? t = some a := by
  obtain rfl := Option.mem_def.mp ha?
  obtain rfl := Option.mem_def.mp ha
  rcases exists_of_defaulted? h with h | ⟨t, ht⟩
  · cases h
  · obtain ⟨b?, hb?, heq⟩ := Option.map_eq_some_iff.mp ht
    cases heq
    rw [option?.eq_def] at hb?
    split at hb?
    · cases hb?
    · obtain ⟨b, hb, heq⟩ := Option.map_eq_some_iff.mp hb?
      cases heq
      exact ⟨t, hb⟩

end Fields

/-- A list that is decoded as a whole is decoded item by item. -/
theorem exists_of_list?_tree {item? : Tree → Option α} {form : β → Json S}
    {items : List β} {values : List α} (h : list? item? (Json.list form items).tree = some values)
    {b : β} (hb : b ∈ items) : ∃ a, item? (form b).tree = some a := by
  rw [Json.list, Json.tree, list?, itemTrees_eq_map] at h
  exact exists_of_mapM h (List.mem_map_of_mem (List.mem_map_of_mem hb))

section

variable [Scalar S]

/-- Only finite scalars are decoded from their forms. -/
theorem isFinite_of_scalar?_tree {x y : S} (h : scalar? (Json.scalar x).tree = some y) :
    Scalar.isFinite x = true := by
  by_contra hx
  rw [Json.scalar, if_neg hx] at h
  cases h

theorem isFinite_of_point?_tree {p q : Point S} (h : point? (Json.point p).tree = some q) :
    p.IsFinite := by
  obtain ⟨x, hx, h⟩ := Option.bind_eq_some_iff.mp h
  obtain ⟨y, hy, -⟩ := Option.bind_eq_some_iff.mp h
  exact ⟨isFinite_of_scalar?_tree hx, isFinite_of_scalar?_tree hy⟩

end

variable [Scalar S] [LawfulNumeral S]

/-- A decoded scalar is finite. -/
theorem isFinite_of_scalar? {t : Tree} {x : S} (h : scalar? t = some x) :
    Scalar.isFinite x = true := by
  cases t with
  | number l =>
    obtain ⟨n, hn, rfl⟩ := Option.map_eq_some_iff.mp h
    have hrange := Number.inRange_of_number? hn
    cases n with
    | int n => exact LawfulNumeral.isFinite_ofInt hrange
    | real x => exact hrange
  | null | bool | string | array | object => cases h

theorem isFinite_of_point? {t : Tree} {p : Point S} (h : point? t = some p) : p.IsFinite := by
  rw [point?.eq_def] at h
  split at h
  · obtain ⟨x, hx, h⟩ := Option.bind_eq_some_iff.mp h
    obtain ⟨y, hy, h⟩ := Option.bind_eq_some_iff.mp h
    cases h
    exact ⟨isFinite_of_scalar? hx, isFinite_of_scalar? hy⟩
  · cases h

end Whiteboard.Decode
