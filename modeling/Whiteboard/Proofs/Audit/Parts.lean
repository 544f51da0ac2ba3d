import Mathlib.Data.List.Forall2
import Whiteboard.Proofs.Audit.Restated

/-!
# Whiteboard — the parts of a report

The report on a document is put together from parts. Those about its elements are the reports
on the elements, one after the other, each as it is for the element alone; around them is what
is said of the fields of the document, whatever its elements are. What is said of an element
does not depend on its place, which shows in the texts of the paths only, at their start.

Main results:

* `placed_frame` — what is said of the fields of a document, and where it stands.
* `report_eq_around`, `frame_eq_of_sameBesides` — the report is this and the elements' reports.
* `movedTo_elementAt` — the same element at two places.
* `report_parts` — all together.
-/

namespace Whiteboard.Audit

open scoped List

variable {S : Type}

/-! ## What is said around the elements -/

/-- What is said of the fields of a document but for its elements. -/
structure Frame (S : Type) where
  format : List (Finding S)
  version : List (Finding S)
  source : List (Finding S)
  canvas : List (Finding S)
  files : List (Finding S)
  /-- The warning about a version that is not known. -/
  unknown : List (Finding S)

/-- Where the findings of a list stand. -/
def paths (fs : List (Finding S)) : List Path := fs.map Finding.path

/-- At most one thing is said of each field, and it stands there; only of the state of a viewer
two fields are looked at. -/
structure Frame.Placed (frame : Frame S) : Prop where
  format : paths frame.format <+ [[.key "type"]]
  version : paths frame.version <+ [[.key "version"]]
  source : paths frame.source <+ [[.key "source"]]
  canvas : paths frame.canvas <+ [[.key "appState"]] ∨ paths frame.canvas <+
    [[.key "appState", .key "viewBackgroundColor"], [.key "appState", .key "gridSize"]]
  files : paths frame.files <+ [[.key "files"]]
  unknown : paths frame.unknown <+ [[.key "version"]]

theorem paths_checkType (el : Record S) (test : Json S → Bool) (expected : Expected)
    (name : String) : paths (checkType el test expected name) <+ [[.key name]] := by
  unfold checkType
  split
  · split
    · exact List.nil_sublist _
    · exact List.Sublist.refl _
  · exact List.nil_sublist _

theorem paths_under (p : Path) (fs : List (Finding S)) :
    paths (fs.map (.under p)) = (paths fs).map (p ++ ·) := by
  rw [paths, paths, List.map_map, List.map_map]
  rfl

theorem paths_checkFormat (doc : Record S) : paths (checkFormat doc) <+ [[.key "type"]] := by
  unfold checkFormat
  split
  · exact List.Sublist.refl _
  · split
    · exact List.nil_sublist _
    · exact List.Sublist.refl _

theorem paths_checkVersion (doc : Record S) : paths (checkVersion doc) <+ [[.key "version"]] := by
  unfold checkVersion
  split
  · exact List.Sublist.refl _
  · split
    · exact List.nil_sublist _
    · exact List.Sublist.refl _

theorem paths_checkAppState (doc : Record S) :
    paths (checkAppState doc) <+ [[.key "appState"]] ∨ paths (checkAppState doc) <+
      [[.key "appState", .key "viewBackgroundColor"], [.key "appState", .key "gridSize"]] := by
  unfold checkAppState
  split
  · exact Or.inl (List.nil_sublist _)
  · split
    · exact Or.inl (List.Sublist.refl _)
    · rename_i state _
      have hcolor := paths_checkType state Json.isString .colorString "viewBackgroundColor"
      have hgrid := paths_checkType state Json.isNumber .numberOrNull "gridSize"
      refine Or.inr ?_
      rw [paths_under]
      have hboth := (hcolor.append hgrid).map ([Step.key "appState"] ++ ·)
      rw [paths, paths, ← List.map_append] at hboth
      exact hboth

variable [Scalar S]

theorem paths_versionWarnings (doc : Record S) :
    paths (versionWarnings doc) <+ [[.key "version"]] := by
  unfold versionWarnings
  split
  · split
    · exact List.nil_sublist _
    · exact List.Sublist.refl _
  · exact List.nil_sublist _

/-- What is said of a document around its elements. -/
def frame (doc : Record S) : Frame S where
  format := checkFormat doc
  version := checkVersion doc
  source := checkType doc Json.isString .string "source"
  canvas := checkAppState doc
  files := checkType doc isObject .object "files"
  unknown := versionWarnings doc

theorem placed_frame (doc : Record S) : (frame doc).Placed where
  format := paths_checkFormat doc
  version := paths_checkVersion doc
  source := paths_checkType doc _ _ _
  canvas := paths_checkAppState doc
  files := paths_checkType doc _ _ _
  unknown := paths_versionWarnings doc

/-- The records have the same fields, those of one name excepted. -/
def SameBesides (name : String) (doc doc' : Record S) : Prop :=
  ∀ other, other ≠ name → Json.field? other doc' = Json.field? other doc

/-- What is said around the elements does not depend on them. -/
theorem frame_eq_of_sameBesides {doc doc' : Record S} (h : SameBesides "elements" doc doc') :
    frame doc' = frame doc := by
  have hpresent : ∀ other, other ≠ "elements" → present? doc' other = present? doc other := by
    intro other hother
    rw [present?, present?, h other hother]
  have htype := hpresent "type" (by decide)
  have hversion := hpresent "version" (by decide)
  have hsource := hpresent "source" (by decide)
  have hcanvas := hpresent "appState" (by decide)
  have hfiles := hpresent "files" (by decide)
  rw [frame, frame, checkFormat, checkFormat, htype, checkVersion, checkVersion, hversion,
    checkType_congr hsource, checkAppState, checkAppState, hcanvas, checkType_congr hfiles,
    versionWarnings, versionWarnings, hversion]

/-! ## The elements in the frame -/

/-- The reports on elements, one after the other. -/
def inTurn (elements : List (Json S)) (part : Report S → List (Finding S)) : List (Finding S) :=
  elements.zipIdx.flatMap fun (v, i) => part (elementAt i v)

/-- The report on a document with these elements: what is said of its header, of each of the
elements in turn, and of what follows them; then the warnings in the same order, and last those
about references. -/
def Frame.around (frame : Frame S) (elements : List (Json S)) : Report S where
  errors := frame.format ++ frame.version ++ frame.source ++ inTurn elements Report.errors ++
    frame.canvas ++ frame.files
  warnings := frame.unknown ++ inTurn elements Report.warnings ++ referenceWarnings elements

theorem report_eq_around {doc : Record S} {elements : List (Json S)}
    (h : Json.field? "elements" doc = some (.array elements)) :
    document (.object doc) = (frame doc).around elements := by
  have hpresent : present? doc "elements" = some (.array elements) := by
    rw [present?, h]
    rfl
  have hreports : ∀ part : Report S → List (Finding S),
      (elementReports elements).flatMap part = inTurn elements part :=
    fun part => List.flatMap_map ..
  have herrors : elementsErrors doc = inTurn elements Report.errors := by
    rw [elementsErrors, hpresent]
    exact hreports Report.errors
  have hwarnings : elementsWarnings doc =
      inTurn elements Report.warnings ++ referenceWarnings elements := by
    rw [elementsWarnings, hpresent, ← hreports]
    rfl
  show Report.mk (headerErrors doc ++ elementsErrors doc ++ trailerErrors doc)
    (versionWarnings doc ++ elementsWarnings doc) = _
  rw [herrors, hwarnings, headerErrors, trailerErrors, ← List.append_assoc, ← List.append_assoc]
  rfl

/-! ## One element at two places -/

/-- The same is said of the same part, seen from two places. -/
def Finding.MovedTo (start start' : String) (f f' : Finding S) : Prop :=
  f'.problem = f.problem ∧
    ∃ rest, pathText f.path = start ++ rest ∧ pathText f'.path = start' ++ rest

/-- The reports say the same in the same order, seen from two places. -/
structure Report.MovedTo (start start' : String) (r r' : Report S) : Prop where
  errors : List.Forall₂ (Finding.MovedTo start start') r.errors r'.errors
  warnings : List.Forall₂ (Finding.MovedTo start start') r.warnings r'.warnings

/-- The text of the path to an element. -/
def elementText (index : Nat) : String := "elements[" ++ toString index ++ "]"

omit [Scalar S] in
theorem pathText_elementPath (index : Nat) (rest : Path) :
    pathText (elementPath index ++ rest) = elementText index ++ stepsText rest := by
  show "elements" ++ ("[" ++ toString index ++ "]" ++ stepsText rest) = _
  rw [elementText, ← String.append_assoc, ← String.append_assoc, ← String.append_assoc]
  rfl

omit [Scalar S] in
theorem forall₂_movedTo_under (i j : Nat) (fs : List (Finding S)) :
    List.Forall₂ (Finding.MovedTo (elementText i) (elementText j))
      (fs.map (.under (elementPath i))) (fs.map (.under (elementPath j))) := by
  rw [List.forall₂_map_left_iff, List.forall₂_map_right_iff, List.forall₂_same]
  intro f _
  exact ⟨rfl, stepsText f.path, pathText_elementPath i f.path, pathText_elementPath j f.path⟩

theorem movedTo_elementAt (v : Json S) (i j : Nat) :
    (elementAt i v).MovedTo (elementText i) (elementText j) (elementAt j v) :=
  ⟨forall₂_movedTo_under i j _, forall₂_movedTo_under i j _⟩

/-! ## The report -/

/-- **The parts of a report.** Around the elements of a document the same is said whatever they
are, of one field at a time and at its place; between stand the reports on the elements in their
order, each as on the element alone. And the report on an element is the same at any place, but
that all paths start with another number. -/
theorem report_parts (doc : Record S) :
    (frame doc).Placed ∧
    (∀ doc' : Record S, SameBesides "elements" doc doc' → ∀ elements,
      Json.field? "elements" doc' = some (.array elements) →
      document (.object doc') = (frame doc).around elements) ∧
    ∀ (v : Json S) (i j : Nat),
      (elementAt i v).MovedTo (elementText i) (elementText j) (elementAt j v) := by
  refine ⟨placed_frame doc, ?_, movedTo_elementAt⟩
  intro doc' hsame elements helements
  rw [report_eq_around helements, frame_eq_of_sameBesides hsame]

/-- A document of an unknown format with one element and with two, neither of which is one. -/
theorem report_parts_of_board :
    let doc : Record Rat := [("type", .string "board"), ("elements", .array [.null])]
    let doc' : Record Rat := [("elements", .array [.null, .bool true]), ("type", .string "board")]
    SameBesides "elements" doc doc' ∧
    Json.field? "elements" doc' = some (.array [.null, .bool true]) ∧
    document (.object doc') = (frame doc).around [.null, .bool true] ∧
    (document (.object doc')).errors.map (fun f => pathText f.path) =
      ["type", "version", "elements[0]", "elements[1]"] ∧
    (elementAt 3 (.null : Json Rat)).MovedTo "elements[3]" "elements[10]" (elementAt 10 .null) := by
  intro doc doc'
  have hsame : SameBesides "elements" doc doc' := by
    intro other hother
    simp [doc, doc', Json.field?, List.find?_cons, hother.symm]
  obtain ⟨-, haround, hmoved⟩ := report_parts doc
  have hreport := haround doc' hsame [.null, .bool true] rfl
  refine ⟨hsame, rfl, hreport, ?_, hmoved .null 3 10⟩
  rw [hreport]
  rfl

end Whiteboard.Audit
