import Whiteboard.Proofs.Audit.References
import Whiteboard.Proofs.Number.Counting

/-!
# Whiteboard — the report on a document that has a type

What an audit says about the wire form of a document can be told from the document
itself: its fields have types, so hardly anything is left to say. The only error is a
foreign format; the warnings are about the version, about opacities and angles out of
range, about ids that repeat and about references to no element.

Main results:

* `errors_toJson_document`, `warnings_toJson_document` — the errors and the warnings in
  the wire form of a document, all of them and in their order.
* `document_toJson` — the report on a document.
* `isReference_of_mem_warnings` — where all references are resolved, no warning is about one.
* `document_eq_nil` — a document in the known format and of a known version that keeps
  to all ranges and whose references are resolved has neither errors nor warnings.
-/

namespace Whiteboard.Audit

open Drawing (Document Element)

variable {S : Type} [Scalar S]

/-! ## What there is to say -/

/-- A document of another format. -/
def formatError (d : Document S) : List (Finding S) :=
  findingIf (d.format ≠ "excalidraw") ⟨[.key "type"], .wrongFormat "excalidraw" (.string d.format)⟩

/-- A version that is not known. -/
def versionWarning (d : Document S) : List (Finding S) :=
  findingIf (¬ (1 ≤ d.version.toNat ∧ d.version.toNat ≤ 3))
    ⟨[.key "version"], .unknownVersion (.int d.version.toNat)⟩

/-- An opacity above a hundred, and an angle of more than a full turn. -/
def rangeWarnings (e : Element S) : List (Finding S) :=
  findingIf (100 < e.opacity.toNat)
    ⟨[.key "opacity"], .opacityOutside (Scalar.ofInt e.opacity.toNat)⟩ ++
  findingIf (Scalar.turn < Scalar.abs e.angle) ⟨[.key "angle"], .angleOutside e.angle⟩

/-- The warnings about a document: its version, the ranges of all elements, all ids
that repeat, and all references that lead nowhere. -/
def documentWarnings (d : Document S) : List (Finding S) :=
  versionWarning d ++
  eachElement d.elements (fun e _ => rangeWarnings e) ++
  eachElement d.elements (duplicateWarning d.elements) ++
  eachElement d.elements (fun e _ => danglingWarnings d.elements e)

/-! ## Errors -/

/-- The fields of a document in its wire form. -/
def documentRecord (d : Document S) : Record S :=
  [("type", .string d.format),
    ("version", Json.uint32 d.version),
    ("source", .string d.source),
    ("elements", Json.list Element.toJson d.elements),
    ("appState", d.canvas.toJson),
    ("files", .object d.files)]

theorem documentKeys_nodup (d : Document S) : ((documentRecord d).map Prod.fst).Nodup := by
  simp [documentRecord]

theorem present?_document {d : Document S} {name : String} {v : Json S}
    (h : (name, v) ∈ documentRecord d) (hv : v.isNull = false) :
    present? (documentRecord d) name = some v :=
  present?_of_mem (documentKeys_nodup d) h hv

theorem present?_elements (d : Document S) :
    present? (documentRecord d) "elements" = some (Json.list Element.toJson d.elements) :=
  present?_document (by simp [documentRecord]) rfl

/-! The parts of the audit, in their order. -/

theorem headerErrors_toJson (d : Document S) : headerErrors (documentRecord d) = formatError d := by
  have htype : present? (documentRecord d) "type" = some (.string d.format) :=
    present?_document (by simp [documentRecord]) rfl
  have hversion : present? (documentRecord d) "version" = some (Json.uint32 d.version) :=
    present?_document (by simp [documentRecord]) rfl
  have hsource : present? (documentRecord d) "source" = some (.string d.source) :=
    present?_document (by simp [documentRecord]) rfl
  rw [headerErrors, checkFormat, htype, checkVersion, hversion, checkType, hsource]
  by_cases h : d.format = "excalidraw" <;>
    simp [formatError, findingIf, h, Json.string?, Drawing.formatTag, atField]

/-- The state of the viewer is in order. -/
theorem checkAppState_record (d : Document S) : checkAppState (documentRecord d) = [] := by
  have hstate : present? (documentRecord d) "appState" = some d.canvas.toJson :=
    present?_document (by simp [documentRecord]) rfl
  have hbackground : checkType [("viewBackgroundColor", .string d.canvas.background),
      ("gridSize", Json.option Json.scalar d.canvas.gridSize)] Json.isString .colorString
      "viewBackgroundColor" = [] := by
    refine checkType_eq_nil fun v hv _ => ?_
    simp only [List.mem_cons, Prod.mk.injEq, List.not_mem_nil, or_false] at hv
    rcases hv with ⟨-, rfl⟩ | ⟨hname, -⟩
    · rfl
    · simp at hname
  have hgrid : checkType [("viewBackgroundColor", .string d.canvas.background),
      ("gridSize", Json.option Json.scalar d.canvas.gridSize)] Json.isNumber .numberOrNull
      "gridSize" = [] := by
    refine checkType_eq_nil fun v hv hnull => ?_
    simp only [List.mem_cons, Prod.mk.injEq, List.not_mem_nil, or_false] at hv
    rcases hv with ⟨hname, -⟩ | ⟨-, rfl⟩
    · simp at hname
    · cases hsize : d.canvas.gridSize with
      | none =>
        rw [hsize] at hnull
        cases hnull
      | some size =>
        rw [hsize] at hnull
        simpa [Json.option] using hnull
  rw [checkAppState, hstate]
  show (checkType _ Json.isString .colorString "viewBackgroundColor" ++
    checkType _ Json.isNumber .numberOrNull "gridSize").map _ = []
  rw [hbackground, hgrid]
  rfl

theorem trailerErrors_record (d : Document S) : trailerErrors (documentRecord d) = [] := by
  have hfiles : present? (documentRecord d) "files" = some (.object d.files) :=
    present?_document (by simp [documentRecord]) rfl
  rw [trailerErrors, checkAppState_record, checkType, hfiles]
  rfl

theorem mem_elementReports {es : List (Element S)} {report : Report S}
    (h : report ∈ elementReports (es.map Element.toJson)) :
    ∃ e ∈ es, ∃ i, report = (element e.toJson).under (elementPath i) := by
  obtain ⟨⟨v, i⟩, hv, heq⟩ := List.mem_map.mp h
  obtain ⟨e, he, rfl⟩ := List.mem_map.mp (List.fst_mem_of_mem_zipIdx hv)
  exact ⟨e, he, i, heq.symm⟩

theorem elementsErrors_record {d : Document S} (hfinite : ∀ e ∈ d.elements, e.IsFinite) :
    elementsErrors (documentRecord d) = [] := by
  rw [elementsErrors, present?_elements]
  show (elementReports (d.elements.map Element.toJson)).flatMap Report.errors = []
  rw [List.flatMap_eq_nil_iff]
  intro report hreport
  obtain ⟨e, he, i, rfl⟩ := mem_elementReports hreport
  rw [Report.under, errors_toJson (hfinite e he), List.map_nil]

/-- **Errors.** The wire form of a document with finite numbers has no error but that of
a foreign format. -/
theorem errors_toJson_document {d : Document S} (hfinite : ∀ e ∈ d.elements, e.IsFinite) :
    (document d.toJson).errors = formatError d := by
  show headerErrors (documentRecord d) ++ elementsErrors (documentRecord d) ++
    trailerErrors (documentRecord d) = _
  rw [headerErrors_toJson, elementsErrors_record hfinite, trailerErrors_record, List.append_nil,
    List.append_nil]

/-! ## Warnings -/

section Warnings

variable [LawfulScalar S]

/-- A whole number and one that an audit compares with. -/
theorem ofInt_bounds {m n : Nat} (hm : m ∈ [0, 1, 3, 100]) (hn : n < 2 ^ 53) :
    ((OfScientific.ofScientific (10 * m) true 1 : S) ≤ Scalar.ofInt n ↔ m ≤ n) ∧
      ((Scalar.ofInt n : S) ≤ OfScientific.ofScientific (10 * m) true 1 ↔ n ≤ m) := by
  have hsmall : m < 2 ^ 53 := by
    revert m
    decide
  rw [LawfulScalar.ofScientific_whole m hm]
  exact ⟨LawfulScalar.ofInt_le_ofInt_iff hsmall hn, LawfulScalar.ofInt_le_ofInt_iff hn hsmall⟩

theorem versionWarnings_toJson (d : Document S) :
    versionWarnings (documentRecord d) = versionWarning d := by
  have hversion : present? (documentRecord d) "version" =
      some (.number (.int d.version.toNat)) :=
    present?_document (v := Json.uint32 d.version) (by simp [documentRecord]) rfl
  have hsmall : d.version.toNat < 2 ^ 53 := d.version.toNat_lt.trans (by decide)
  have hlow := (ofInt_bounds (S := S) (m := 1) (by decide) hsmall).1
  have hhigh := (ofInt_bounds (S := S) (m := 3) (by decide) hsmall).2
  rw [versionWarnings, hversion, versionWarning, findingIf, ite_not]
  exact if_congr (and_congr hlow hhigh) rfl rfl

/-- An opacity is never negative. -/
theorem checkOpacity_record (e : Element S) :
    checkOpacity (record e) = findingIf (100 < e.opacity.toNat)
      ⟨[.key "opacity"], .opacityOutside (Scalar.ofInt e.opacity.toNat)⟩ := by
  have hsmall : e.opacity.toNat < 2 ^ 53 := e.opacity.toNat_lt.trans (by decide)
  have hlow := (ofInt_bounds (S := S) (m := 0) (by decide) hsmall).1
  have hhigh := (ofInt_bounds (S := S) (m := 100) (by decide) hsmall).2
  rw [checkOpacity, scalar?_opacity, findingIf, ← ite_not]
  refine if_congr ?_ rfl rfl
  rw [not_lt]
  exact (and_congr hlow hhigh).trans (and_iff_right (Nat.zero_le _))

theorem recordWarnings_toJson {e : Element S} (h : Scalar.isFinite e.angle = true) :
    recordWarnings (record e) = rangeWarnings e := by
  rw [recordWarnings, checkOpacity_record, checkAngle, scalar?_angle h]
  rfl

/-- **Warnings.** The warnings in the wire form of a document with finite numbers are
those that can be told from the document. -/
theorem warnings_toJson_document {d : Document S} (hfinite : ∀ e ∈ d.elements, e.IsFinite) :
    (document d.toJson).warnings = documentWarnings d := by
  have hranges : (elementReports (d.elements.map Element.toJson)).flatMap Report.warnings =
      eachElement d.elements fun e _ => rangeWarnings e := by
    rw [elementReports, List.flatMap_map, List.zipIdx_map, List.flatMap_map]
    exact eachElement_congr fun e i hi =>
      recordWarnings_toJson (hfinite e (List.mem_of_getElem? hi)).angle
  show versionWarnings (documentRecord d) ++ elementsWarnings (documentRecord d) = _
  rw [versionWarnings_toJson, elementsWarnings, present?_elements]
  show _ ++ ((elementReports (d.elements.map Element.toJson)).flatMap Report.warnings ++
    referenceWarnings (d.elements.map Element.toJson)) = _
  rw [hranges, referenceWarnings_toJson, documentWarnings]
  simp only [List.append_assoc]

/-- **The report on a document.** The audit of the wire form of a document whose numbers
are finite says nothing but what can be told from the document: one error if the format
is foreign, and the warnings about version, ranges, ids and references. -/
theorem document_toJson {d : Document S} (hfinite : ∀ e ∈ d.elements, e.IsFinite) :
    document d.toJson = ⟨formatError d, documentWarnings d⟩ := by
  rw [← errors_toJson_document hfinite, ← warnings_toJson_document hfinite]

end Warnings

/-- An element with every field that a warning may be about out of order. -/
def strayElement : Element Float where
  id := "a"
  shape := .arrow ⟨[⟨0.0, 0.0⟩, ⟨1.5, 2.0⟩], none, some ⟨"b", 0.0, 1.0⟩, some ⟨"a", 0.0, 1.0⟩,
    none, none⟩
  x := 0.0
  y := -0.5
  width := 1.5
  height := 2.0
  angle := -7.0
  strokeColor := "#000000"
  backgroundColor := "transparent"
  fillStyle := .solid
  strokeWidth := 1.0
  strokeStyle := .solid
  roughness := 1
  opacity := 101
  roundness := none
  seed := 1
  version := 1
  versionNonce := 1
  isDeleted := false
  groupIds := []
  frameId := none
  boundElements := some [⟨"a", .arrow⟩, ⟨"c", .line⟩]
  updated := 0
  link := none
  locked := false

theorem isFinite_strayElement : strayElement.IsFinite := by
  refine ⟨⟨?_, ?_, ?_, ?_⟩, rfl, rfl, rfl, rfl, rfl, rfl, ?_⟩
  · intro p hp
    simp only [List.mem_cons, List.not_mem_nil, or_false] at hp
    rcases hp with rfl | rfl <;> exact ⟨rfl, rfl⟩
  · intro p hp
    cases hp
  · rintro b ⟨⟩
    exact ⟨rfl, rfl⟩
  · rintro b ⟨⟩
    exact ⟨rfl, rfl⟩
  · intro r hr
    cases hr

/-- A foreign format, an unknown version, and the same stray element twice. -/
theorem document_toJson_of_stray :
    let d : Document Float := ⟨"other", 4, "", [strayElement, strayElement], .blank, []⟩
    (∀ e ∈ d.elements, e.IsFinite) ∧ document d.toJson = ⟨formatError d, documentWarnings d⟩ ∧
      (formatError d).map (·.path) = [[.key "type"]] ∧
      (documentWarnings d).map (pathText ·.path) = ["version",
        "elements[0].opacity", "elements[0].angle", "elements[1].opacity", "elements[1].angle",
        "elements[1].id",
        "elements[0].startBinding.elementId", "elements[0].boundElements[1].id",
        "elements[1].startBinding.elementId", "elements[1].boundElements[1].id"] := by
  intro d
  have hfinite : ∀ e ∈ d.elements, e.IsFinite := by
    intro e he
    simp only [d, List.mem_cons, List.not_mem_nil, or_false, or_self] at he
    rw [he]
    exact isFinite_strayElement
  exact ⟨hfinite, document_toJson hfinite, by decide +kernel, by decide +kernel⟩

/-! ## No warnings about references -/

/-- A problem with an id or with a reference to one. -/
def Problem.isReference : Problem S → Bool
  | .duplicateId .. | .unknownBindingTarget .. | .unknownBoundElement .. => true
  | _ => false

/-- **References.** Where ids are distinct and all references are resolved, no warning is
about an id or a reference, whatever the numbers. -/
theorem isReference_of_mem_warnings {d : Document S} (hnodup : (d.elements.map Element.id).Nodup)
    (hresolved : Resolved d.elements) :
    ∀ f ∈ (document d.toJson).warnings, f.problem.isReference = false := by
  have hversion : ∀ f ∈ versionWarnings (documentRecord d), f.problem.isReference = false := by
    intro f hf
    unfold versionWarnings at hf
    split at hf
    · split at hf
      · cases hf
      · rw [List.mem_singleton.mp hf]
        rfl
    · cases hf
  have hranges : ∀ e : Element S, ∀ f ∈ recordWarnings (record e),
      f.problem.isReference = false := by
    intro e f hf
    rcases List.mem_append.mp hf with hf | hf
    · unfold checkOpacity at hf
      split at hf
      · split at hf
        · cases hf
        · rw [List.mem_singleton.mp hf]
          rfl
      · cases hf
    · unfold checkAngle at hf
      split at hf
      · split at hf
        · rw [List.mem_singleton.mp hf]
          rfl
        · cases hf
      · cases hf
  have hnone : referenceWarnings (d.elements.map Element.toJson) = [] := by
    rw [referenceWarnings_toJson,
      eachElement_eq_nil fun e i hi => duplicateWarning_eq_nil hnodup hi,
      eachElement_eq_nil fun e i hi => danglingWarnings_eq_nil hresolved (List.mem_of_getElem? hi)]
    rfl
  have helements : elementsWarnings (documentRecord d) =
      (elementReports (d.elements.map Element.toJson)).flatMap Report.warnings := by
    rw [elementsWarnings, present?_elements]
    show (elementReports (d.elements.map Element.toJson)).flatMap Report.warnings ++
      referenceWarnings (d.elements.map Element.toJson) = _
    rw [hnone, List.append_nil]
  intro f hf
  rcases List.mem_append.mp hf with hf | hf
  · exact hversion f hf
  · -- what is said of an element is about its opacity or its angle
    change f ∈ elementsWarnings (documentRecord d) at hf
    rw [helements] at hf
    obtain ⟨report, hreport, hf⟩ := List.mem_flatMap.mp hf
    obtain ⟨e, -, i, rfl⟩ := mem_elementReports hreport
    obtain ⟨g, hg, rfl⟩ := List.mem_map.mp hf
    exact hranges e g hg

/-! ## Clean audits in exact arithmetic -/

/-- An element that keeps to the ranges of opacity and angle. -/
structure InRange (e : Element Rat) : Prop where
  opacity : e.opacity.toNat ≤ 100
  angle : Scalar.abs e.angle ≤ Scalar.turn

theorem rangeWarnings_eq_nil {e : Element Rat} (h : InRange e) : rangeWarnings e = [] := by
  rw [rangeWarnings, findingIf_of_not (not_lt.mpr h.opacity), findingIf_of_not (not_lt.mpr h.angle)]
  rfl

/-- **A clean audit.** A document in the known format, of a known version, with all
elements in range, distinct ids and all references resolved has neither errors nor
warnings. -/
theorem document_eq_nil {d : Document Rat} (hformat : d.format = Drawing.formatTag)
    (hlow : 1 ≤ d.version.toNat) (hhigh : d.version.toNat ≤ 3)
    (hrange : ∀ e ∈ d.elements, InRange e) (hnodup : (d.elements.map Element.id).Nodup)
    (hresolved : Resolved d.elements) : document d.toJson = ⟨[], []⟩ := by
  have hfinite : ∀ e ∈ d.elements, e.IsFinite := fun e _ => e.isFinite_rat
  have herrors : (document d.toJson).errors = [] := by
    rw [errors_toJson_document hfinite]
    exact findingIf_of_not (not_not_intro hformat)
  have hwarnings : (document d.toJson).warnings = [] := by
    rw [warnings_toJson_document hfinite, documentWarnings, versionWarning,
      findingIf_of_not (not_not_intro ⟨hlow, hhigh⟩),
      eachElement_eq_nil fun e i hi => rangeWarnings_eq_nil (hrange e (List.mem_of_getElem? hi)),
      eachElement_eq_nil fun e i hi => duplicateWarning_eq_nil hnodup hi,
      eachElement_eq_nil fun e i hi => danglingWarnings_eq_nil hresolved (List.mem_of_getElem? hi)]
    rfl
  calc document d.toJson = ⟨(document d.toJson).errors, (document d.toJson).warnings⟩ := rfl
    _ = ⟨[], []⟩ := by rw [herrors, hwarnings]

end Whiteboard.Audit
