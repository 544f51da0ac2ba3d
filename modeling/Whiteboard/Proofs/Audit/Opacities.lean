import Whiteboard.Drawing.Draft
import Whiteboard.Proofs.Audit.WireDocument

/-!
# Whiteboard — warnings about opacities

An element stores its opacity in a byte, of which only the values up to 100 are opacities.
The audit of a document warns of the others, whatever else is to be said of it, and even
where its numbers cannot be written.

Main results:

* `exists_opacityWarning_iff` — there is a warning about an opacity exactly if an element
  has one that is out of range.
-/

namespace Whiteboard.Audit

open Drawing (Document Element maxOpacity)

variable {S : Type}

/-! ## Other warnings -/

/-- A problem with an opacity. -/
def Problem.isOpacity : Problem S → Bool
  | .opacityOutside _ => true
  | _ => false

theorem isOpacity_of_mem_checkTarget {elements : List (Json S)} {target : Option String}
    {problem : String → Problem S} (hproblem : ∀ id, (problem id).isOpacity = false)
    {name : String} {f : Finding S} (h : f ∈ checkTarget elements target problem name) :
    f.problem.isOpacity = false := by
  unfold checkTarget at h
  split at h
  · cases h
  · split at h
    · cases h
    · rw [List.mem_singleton.mp h]
      exact hproblem _

/-- No warning about ids and references is about an opacity. -/
theorem isOpacity_of_mem_referenceWarnings {elements : List (Json S)} {f : Finding S}
    (h : f ∈ referenceWarnings elements) : f.problem.isOpacity = false := by
  have hbinding : ∀ v name, ∀ f ∈ checkBindingTarget elements v name,
      f.problem.isOpacity = false := by
    intro v name f hf
    obtain ⟨g, hg, rfl⟩ := List.mem_map.mp hf
    exact isOpacity_of_mem_checkTarget (f := g) (fun _ => rfl) hg
  have hbound : ∀ v, ∀ f ∈ checkBoundTargets elements v, f.problem.isOpacity = false := by
    intro v f hf
    unfold checkBoundTargets at hf
    split at hf
    · cases hf
    · obtain ⟨g, hg, rfl⟩ := List.mem_map.mp hf
      obtain ⟨⟨entry, i⟩, -, hg⟩ := List.mem_flatMap.mp hg
      obtain ⟨g', hg', rfl⟩ := List.mem_map.mp hg
      exact isOpacity_of_mem_checkTarget (f := g') (fun _ => rfl) hg'
  rcases List.mem_append.mp h with h | h
  · obtain ⟨⟨v, i⟩, -, h⟩ := List.mem_flatMap.mp h
    obtain ⟨g, hg, rfl⟩ := List.mem_map.mp h
    unfold checkDuplicate at hg
    split at hg
    · cases hg
    · split at hg
      · split at hg
        · rw [List.mem_singleton.mp hg]
          rfl
        · cases hg
      · cases hg
  · obtain ⟨⟨v, i⟩, -, h⟩ := List.mem_flatMap.mp h
    obtain ⟨g, hg, rfl⟩ := List.mem_map.mp h
    rcases List.mem_append.mp hg with hg | hg
    · obtain ⟨name, -, hg⟩ := List.mem_flatMap.mp hg
      exact hbinding v name g hg
    · exact hbound v g hg

variable [Scalar S]

theorem isOpacity_of_mem_versionWarnings {doc : Record S} {f : Finding S}
    (h : f ∈ versionWarnings doc) : f.problem.isOpacity = false := by
  unfold versionWarnings at h
  split at h
  · split at h
    · cases h
    · rw [List.mem_singleton.mp h]
      rfl
  · cases h

theorem isOpacity_of_mem_checkAngle {el : Record S} {f : Finding S} (h : f ∈ checkAngle el) :
    f.problem.isOpacity = false := by
  unfold checkAngle at h
  split at h
  · split at h
    · rw [List.mem_singleton.mp h]
      rfl
    · cases h
  · cases h

/-! ## Warnings about opacities -/

/-- **Opacities.** The audit of a document warns of an opacity exactly if an element has one
that is out of range. -/
theorem exists_opacityWarning_iff [LawfulScalar S] (d : Document S) :
    (∃ f ∈ (document d.toJson).warnings, f.problem.isOpacity = true) ↔
      ∃ e ∈ d.elements, maxOpacity < e.opacity := by
  have hwarnings : (document d.toJson).warnings = versionWarnings (documentRecord d) ++
      ((elementReports (d.elements.map Element.toJson)).flatMap Report.warnings ++
        referenceWarnings (d.elements.map Element.toJson)) := by
    show versionWarnings (documentRecord d) ++ elementsWarnings (documentRecord d) = _
    rw [elementsWarnings, present?_elements]
    rfl
  rw [hwarnings]
  constructor
  · rintro ⟨f, hf, hopacity⟩
    -- neither the version nor a reference is an opacity
    rcases List.mem_append.mp hf with hf | hf
    · rw [isOpacity_of_mem_versionWarnings hf] at hopacity
      cases hopacity
    rcases List.mem_append.mp hf with hf | hf
    · obtain ⟨report, hreport, hf⟩ := List.mem_flatMap.mp hf
      obtain ⟨e, he, i, rfl⟩ := mem_elementReports hreport
      obtain ⟨g, hg, rfl⟩ := List.mem_map.mp hf
      have hg : g ∈ recordWarnings (record e) := hg
      rcases List.mem_append.mp hg with hg | hg
      · rw [checkOpacity_record] at hg
        by_cases hrange : 100 < e.opacity.toNat
        · exact ⟨e, he, hrange⟩
        · rw [findingIf_of_not hrange] at hg
          cases hg
      · have hangle : g.problem.isOpacity = true := hopacity
        rw [isOpacity_of_mem_checkAngle hg] at hangle
        cases hangle
    · rw [isOpacity_of_mem_referenceWarnings hf] at hopacity
      cases hopacity
  · rintro ⟨e, he, hrange⟩
    obtain ⟨i, hi, rfl⟩ := List.mem_iff_getElem.mp he
    have hplace : ((d.elements[i]).toJson, i) ∈ (d.elements.map Element.toJson).zipIdx := by
      rw [List.mem_zipIdx_iff_getElem?, List.getElem?_map, List.getElem?_eq_getElem hi]
      rfl
    have hcheck : checkOpacity (record d.elements[i]) = [⟨[.key "opacity"],
        .opacityOutside (Scalar.ofInt d.elements[i].opacity.toNat)⟩] := by
      have hrange : 100 < d.elements[i].opacity.toNat := hrange
      rw [checkOpacity_record, findingIf, if_pos hrange]
    have hmem : _ ∈ (element d.elements[i].toJson).warnings :=
      List.mem_append_left _ (hcheck ▸ List.mem_singleton_self _)
    refine ⟨_, List.mem_append_right _ (List.mem_append_left _ (List.mem_flatMap.mpr
      ⟨_, List.mem_map_of_mem hplace, List.mem_map_of_mem hmem⟩)), rfl⟩

end Whiteboard.Audit
