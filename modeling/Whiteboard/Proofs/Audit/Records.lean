import Mathlib.Data.List.Nodup
import Whiteboard.Audit.Document

/-!
# Whiteboard — when the checks of an audit pass

An audit looks at a record field by field, and a field that is `null` counts as
missing. So a check passes as soon as every entry of its name is `null` or as
expected, wherever the entry stands.

Main results:

* `present?_of_mem` — in a record that has no key twice, an entry is what a look-up
  finds.
* `checkType_eq_nil_iff`, `checkNamed_eq_nil_iff`, `eachItem_eq_nil_iff` — when a check
  passes.
-/

namespace Whiteboard

/-- Every member of the closed set is found by its name. -/
class LawfulNamed (α : Type) [Named α] : Prop where
  ofName?_name : ∀ a : α, Named.ofName? (Named.name a) = some a

namespace Drawing

instance : LawfulNamed Kind := ⟨fun a => by cases a <;> rfl⟩

instance : LawfulNamed FillStyle := ⟨fun a => by cases a <;> rfl⟩

instance : LawfulNamed StrokeStyle := ⟨fun a => by cases a <;> rfl⟩

instance : LawfulNamed TextAlign := ⟨fun a => by cases a <;> rfl⟩

instance : LawfulNamed VerticalAlign := ⟨fun a => by cases a <;> rfl⟩

instance : LawfulNamed Arrowhead := ⟨fun a => by cases a <;> rfl⟩

end Drawing

/-- Under a key that is there once, an entry is what is found. -/
theorem find?_of_mem {β : Type} {entries : List (String × β)} (hkeys : (entries.map Prod.fst).Nodup)
    {f : String × β} (h : f ∈ entries) : entries.find? (fun g => g.1 == f.1) = some f := by
  cases hfind : entries.find? fun g => g.1 == f.1 with
  | none =>
    have hnone := List.find?_eq_none.mp hfind _ h
    simp at hnone
  | some g =>
    have hkey : g.1 = f.1 := beq_iff_eq.mp (List.find?_some hfind :)
    rw [List.inj_on_of_nodup_map hkeys (List.mem_of_find?_eq_some hfind) h hkey]

namespace Audit

variable {S : Type}

/-! ## Entries -/

/-- In a record that has no key twice an entry is what a look-up finds. -/
theorem field?_of_mem {el : Record S} (hkeys : (el.map Prod.fst).Nodup) {name : String}
    {v : Json S} (h : (name, v) ∈ el) : Json.field? name el = some v := by
  rw [Json.field?, find?_of_mem hkeys h]
  rfl

theorem field?_eq_none {el : Record S} {name : String} (h : name ∉ el.map Prod.fst) :
    Json.field? name el = none := by
  rw [Json.field?, Option.map_eq_none_iff, List.find?_eq_none]
  intro f hf hname
  exact h (List.mem_map.mpr ⟨f, hf, beq_iff_eq.mp hname⟩)

theorem mem_of_field? {el : Record S} {name : String} {v : Json S}
    (h : Json.field? name el = some v) : (name, v) ∈ el := by
  obtain ⟨f, hfind, rfl⟩ := Option.map_eq_some_iff.mp h
  have hname : f.1 = name := beq_iff_eq.mp (List.find?_some hfind :)
  rw [← hname]
  exact List.mem_of_find?_eq_some hfind

theorem present?_of_mem {el : Record S} (hkeys : (el.map Prod.fst).Nodup) {name : String}
    {v : Json S} (h : (name, v) ∈ el) (hv : v.isNull = false) : present? el name = some v := by
  rw [present?, field?_of_mem hkeys h, Option.filter_some, hv]
  rfl

theorem mem_of_present? {el : Record S} {name : String} {v : Json S}
    (h : present? el name = some v) : (name, v) ∈ el ∧ v.isNull = false := by
  obtain ⟨hfield, hv⟩ := Option.filter_eq_some_iff.mp h
  refine ⟨mem_of_field? hfield, ?_⟩
  simpa using hv

/-! ## Checks that pass -/

/-- A field that must be there is there. -/
theorem checkRequired_eq_nil_iff {el : Record S} {name : String} :
    checkRequired el name = [] ↔ ∃ v, present? el name = some v := by
  rw [checkRequired]
  cases present? el name <;> simp

theorem checkRequired_eq_nil {el : Record S} {name : String} {v : Json S}
    (h : present? el name = some v) : checkRequired el name = [] :=
  checkRequired_eq_nil_iff.mpr ⟨v, h⟩

/-- A field is not there or passes its test. -/
theorem checkType_eq_nil_iff {el : Record S} {test : Json S → Bool} {expected : Expected}
    {name : String} :
    checkType el test expected name = [] ↔ ∀ v, present? el name = some v → test v = true := by
  rw [checkType]
  cases present? el name with
  | none => simp
  | some v => cases h : test v <;> simp [h]

/-- A field passes its test if every entry of its name does, `null` excepted. -/
theorem checkType_eq_nil {el : Record S} {test : Json S → Bool} {expected : Expected}
    {name : String} (h : ∀ v, (name, v) ∈ el → v.isNull = false → test v = true) :
    checkType el test expected name = [] :=
  checkType_eq_nil_iff.mpr fun v hv => h v (mem_of_present? hv).1 (mem_of_present? hv).2

/-- A text is a name of the closed set exactly if a member is found by it. -/
theorem isSome_ofName?_iff {α : Type} [Named α] [LawfulNamed α] {s : String} :
    (Named.ofName? s : Option α).isSome = true ↔ ∃ a : α, Named.name a = s := by
  constructor
  · intro h
    obtain ⟨a, ha⟩ := Option.isSome_iff_exists.mp h
    exact ⟨a, beq_iff_eq.mp (List.find?_some ha :)⟩
  · rintro ⟨a, rfl⟩
    rw [LawfulNamed.ofName?_name]
    rfl

/-- A field is not there or names a member of a closed set. -/
theorem checkNamed_eq_nil_iff {α : Type} [Named α] [LawfulNamed α] {el : Record S}
    {name : String} :
    checkNamed α el name = [] ↔
      ∀ v, present? el name = some v → ∃ a : α, v = .string (Named.name a) := by
  rw [checkNamed]
  cases present? el name with
  | none => simp
  | some v =>
    cases v with
    | string s =>
      have hname := isSome_ofName?_iff (α := α) (s := s)
      cases h : (Named.ofName? s : Option α) with
      | none =>
        rw [h] at hname
        simpa [Json.string?, h, eq_comm] using hname
      | some a =>
        rw [h] at hname
        simpa [Json.string?, h, eq_comm] using hname
    | _ => simp [Json.string?]

/-- A field names a member of a closed set if every entry of its name does, `null`
excepted. -/
theorem checkNamed_eq_nil {α : Type} [Named α] [LawfulNamed α] {el : Record S} {name : String}
    (h : ∀ v, (name, v) ∈ el → v.isNull = false → ∃ a : α, v = .string (Named.name a)) :
    checkNamed α el name = [] :=
  checkNamed_eq_nil_iff.mpr fun v hv => h v (mem_of_present? hv).1 (mem_of_present? hv).2

theorem eachItem_eq_nil_iff {α : Type} {items : List α} {check : α → List (Finding S)} :
    eachItem items check = [] ↔ ∀ item ∈ items, check item = [] := by
  rw [eachItem, List.flatMap_eq_nil_iff]
  constructor
  · intro h item hitem
    obtain ⟨i, hi, rfl⟩ := List.mem_iff_getElem.mp hitem
    exact List.map_eq_nil_iff.mp
      (h (items[i], i) (List.mem_zipIdx_iff_getElem?.mpr (List.getElem?_eq_getElem hi)))
  · rintro h ⟨item, i⟩ hitem
    exact List.map_eq_nil_iff.mpr (h item (List.fst_mem_of_mem_zipIdx hitem))

theorem eachItem_eq_nil {α : Type} {items : List α} {check : α → List (Finding S)}
    (h : ∀ item ∈ items, check item = []) : eachItem items check = [] :=
  eachItem_eq_nil_iff.mpr h

end Audit

end Whiteboard
