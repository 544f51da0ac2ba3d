import Whiteboard.Proofs.Audit.WireForm
import Whiteboard.Proofs.Json.Trees

/-!
# Whiteboard — the wire form is within what a reader follows

A form never holds a number out of range, since one that is not finite becomes `null`,
and the fields of an element are in themselves as a reader would build them.

Main results:

* `Element.readable_of_mem` — the value of a field of an element is readable.
* `Element.depth_toJson_le` — an element nests no more than three levels.
* `Document.depth_toJson_le_iff` — how deep a document nests depends on its files.
-/

namespace Whiteboard

variable {S : Type} [Scalar S]

namespace Json

variable {α : Type} {room : Nat}

theorem readable_null : (null : Json S).Readable room := ⟨.null, .null, Nat.zero_le _⟩

@[simp] theorem readable_string (s : String) : (string s : Json S).Readable room :=
  ⟨.string s, .string s, Nat.zero_le _⟩

@[simp] theorem readable_bool (b : Bool) : (bool b : Json S).Readable room :=
  ⟨.bool b, .bool b, Nat.zero_le _⟩

@[simp] theorem readable_named [Named α] (a : α) : (named a : Json S).Readable room :=
  readable_string _

theorem readable_number {n : Number S} (h : n.InRange) : (number n).Readable room :=
  ⟨.number h, .number n, Nat.zero_le _⟩

@[simp] theorem readable_scalar (x : S) : (scalar x).Readable room := by
  rw [scalar]
  split
  · rename_i hx
    exact readable_number hx
  · exact readable_null

@[simp] theorem readable_uint8 (n : UInt8) : (uint8 n : Json S).Readable room := by
  have hn := n.toNat_lt
  exact readable_number ⟨by omega, by omega⟩

@[simp] theorem readable_uint32 (n : UInt32) : (uint32 n : Json S).Readable room := by
  have hn := n.toNat_lt
  exact readable_number ⟨by omega, by omega⟩

@[simp] theorem readable_int64 (n : Int64) : (int64 n : Json S).Readable room := by
  have hlow := n.le_toInt
  have hhigh := n.toInt_lt
  exact readable_number ⟨by omega, by omega⟩

@[simp] theorem readable_option {form : α → Json S} (h : ∀ a, (form a).Readable room)
    (a? : Option α) : (option form a?).Readable room := by
  cases a? with
  | none => exact readable_null
  | some a => exact h a

@[simp] theorem readable_list {form : α → Json S} (h : ∀ a, (form a).Readable room)
    (items : List α) : (list form items).Readable (room + 1) := by
  refine readable_array_iff.mpr fun v hv => ?_
  obtain ⟨a, -, rfl⟩ := List.mem_map.mp hv
  exact h a

@[simp] theorem readable_point (p : Point S) : (point p).Readable (room + 1) :=
  readable_array_iff.mpr (by simp)

end Json

namespace Drawing

open Audit (record keys_nodup)

/-! ## Elements -/

@[simp] theorem Roundness.readable_toJson {room : Nat} (r : Roundness S) :
    r.toJson.Readable (room + 1) := by
  rw [Roundness.toJson]
  refine Json.readable_object_iff.mpr ⟨Json.ascending_iff_pairwise_keys.mpr ?_, ?_⟩
  · cases r.value with
    | none => exact List.pairwise_singleton _ _
    | some x => exact (by decide : ["type", "value"].Pairwise fun k l => k < l)
  · cases r.value <;> simp

@[simp] theorem Binding.readable_toJson {room : Nat} (b : Binding S) :
    b.toJson.Readable (room + 1) := by
  refine Json.readable_object_iff.mpr ⟨Json.ascending_iff_pairwise_keys.mpr ?_, by simp⟩
  exact (by decide : ["elementId", "focus", "gap"].Pairwise fun k l => k < l)

@[simp] theorem BoundElement.readable_toJson {room : Nat} (b : BoundElement) :
    (b.toJson : Json S).Readable (room + 1) := by
  refine Json.readable_object_iff.mpr ⟨Json.ascending_iff_pairwise_keys.mpr ?_, by simp⟩
  exact (by decide : ["id", "type"].Pairwise fun k l => k < l)

/-- The fields of an element are as a reader would build them. -/
theorem Element.readable_of_mem {e : Element S} {f : String × Json S} (hf : f ∈ record e) :
    f.2.Readable 2 := by
  have hcommon : ∀ f ∈ e.commonFields, f.2.Readable 2 := by
    simp [Element.commonFields]
  have hshape : ∀ f ∈ e.shape.fields, f.2.Readable 2 := by
    cases e.shape <;>
      simp [Shape.fields, TextBody.fields, Polyline.fields, Freehand.fields]
  simp only [record, List.mem_cons, List.mem_append] at hf
  rcases hf with rfl | rfl | hf | hf
  · exact Json.readable_string _
  · exact Json.readable_named _
  · exact hshape f hf
  · exact hcommon f hf

theorem Element.inRange_toJson (e : Element S) : e.toJson.InRange :=
  .object fun _ hf => (Element.readable_of_mem hf).inRange

/-- An element nests no more than three levels. -/
theorem Element.depth_toJson_le (e : Element S) : e.toJson.depth ≤ 3 :=
  Json.depth_object_le_iff.mpr fun _ hf => (Element.readable_of_mem hf).depth_le

/-! ## Documents -/

/-- All numbers of a document are in range, those of its files included. -/
structure Document.IsFinite (d : Document S) : Prop where
  elements : ∀ e ∈ d.elements, e.IsFinite
  gridSize : ∀ x ∈ d.canvas.gridSize, Scalar.isFinite x = true
  files : (Json.object d.files).InRange

/-- How deep a document nests depends on its files, as soon as there is room for the
rest. -/
theorem Document.depth_toJson_le_iff {d : Document S} {room : Nat} (hroom : 4 ≤ room) :
    d.toJson.depth ≤ room + 1 ↔ (Json.object d.files).depth ≤ room := by
  have helements : (Json.list Element.toJson d.elements).depth ≤ room := by
    refine Nat.le_trans (Json.depth_array_le_iff.mpr fun v hv => ?_) hroom
    obtain ⟨e, -, rfl⟩ := List.mem_map.mp hv
    exact e.depth_toJson_le
  have hcanvas : d.canvas.toJson.depth ≤ room := by
    refine Nat.le_trans (Json.depth_object_le_iff.mpr fun f hf => ?_) (show 1 ≤ room by omega)
    simp only [List.mem_cons, List.not_mem_nil, or_false] at hf
    rcases hf with rfl | rfl
    · exact Nat.le_refl 0
    · exact (Json.readable_option Json.readable_scalar d.canvas.gridSize).depth_le
  have hnumber : (Json.uint32 d.version : Json S).depth ≤ room := Nat.zero_le _
  have hstring : ∀ s : String, (Json.string s : Json S).depth ≤ room := fun _ => Nat.zero_le _
  rw [Document.toJson, Json.depth_object_le_iff]
  simp [helements, hcanvas, hnumber, hstring]

theorem Document.inRange_toJson {d : Document S} (h : (Json.object d.files).InRange) :
    d.toJson.InRange := by
  have helements : (Json.list Element.toJson d.elements).InRange := by
    refine .array fun v hv => ?_
    obtain ⟨e, -, rfl⟩ := List.mem_map.mp hv
    exact e.inRange_toJson
  have hcanvas : d.canvas.toJson.InRange := .object fun f hf => by
    simp only [List.mem_cons, List.not_mem_nil, or_false] at hf
    rcases hf with rfl | rfl
    · exact .string _
    · have hgrid : (Json.option Json.scalar d.canvas.gridSize).Readable 0 :=
        Json.readable_option Json.readable_scalar _
      exact hgrid.inRange
  refine .object fun f hf => ?_
  simp only [List.mem_cons, List.not_mem_nil, or_false] at hf
  rcases hf with rfl | rfl | rfl | rfl | rfl | rfl
  · exact .string _
  · have hversion : (Json.uint32 d.version : Json S).Readable 0 := Json.readable_uint32 _
    exact hversion.inRange
  · exact .string _
  · exact helements
  · exact hcanvas
  · exact h

end Drawing

end Whiteboard
