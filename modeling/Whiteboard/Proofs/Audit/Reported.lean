import Mathlib.Algebra.Order.Group.Multiset
import Mathlib.Tactic.Abel
import Whiteboard.Audit.Document
import Whiteboard.Proofs.Audit.Notes

/-!
# Whiteboard — reports without repetitions

A reader of a report sees of each finding the text of its path and a message. No text of a
path comes twice in a report, so nothing that is an error is a warning as well, and nothing
that is missing is also said to be of the wrong type.

A document is audited in several rounds: all elements, then all ids, then all references.
For the places of the findings the rounds do not matter, and what is said of one element in
all of them is about different parts of it.

Main results:

* `distinct_document` — the findings about a document are about different places.
* `reported_once` — in the reports on documents and elements no path text is repeated.
-/

namespace Whiteboard.Audit

variable {S : Type}

/-! ## Reports -/

/-- A reader is told of no place twice. -/
structure Report.Once (r : Report S) : Prop where
  /-- All path texts are different, those of errors and warnings taken together. -/
  nodup : ((r.errors ++ r.warnings).map fun f => pathText f.path).Nodup
  /-- What is an error is not a warning as well. -/
  error_ne_warning : ∀ e ∈ r.errors, ∀ w ∈ r.warnings, pathText e.path ≠ pathText w.path
  /-- What is missing is not of the wrong type as well. -/
  missing_ne_wrongType : ∀ e ∈ r.errors, ∀ e' ∈ r.errors, ∀ name name' expected,
    e.problem = .missingField name → e'.problem = .wrongType name' expected →
    pathText e.path ≠ pathText e'.path

theorem Report.Once.of_nodup {r : Report S}
    (h : ((r.errors ++ r.warnings).map fun f => pathText f.path).Nodup) : r.Once where
  nodup := h
  error_ne_warning := by
    have happend := h
    rw [List.map_append, List.nodup_append] at happend
    simpa only [List.forall_mem_map] using happend.2.2
  missing_ne_wrongType := by
    intro e he e' he' name name' expected hmissing hwrong heq
    -- one text is one finding, which has one problem
    have hsame : e = e' := List.inj_on_of_nodup_map h (List.mem_append_left _ he)
      (List.mem_append_left _ he') heq
    rw [← hsame, hmissing] at hwrong
    cases hwrong

/-- Findings at distinct places have distinct path texts if their paths start with keys. -/
theorem Distinct.nodup_pathText {fs : List (Finding S)} (h : Distinct fs)
    (hkeys : ∀ f ∈ fs, ∃ name rest, f.path = .key name :: rest) :
    (fs.map fun f => pathText f.path).Nodup := by
  have htexts : (fs.map fun f => pathText f.path) = (fs.map Finding.path).map pathText := by
    rw [List.map_map]
    rfl
  rw [htexts]
  refine List.Nodup.map_on ?_ h.nodup
  simp only [List.forall_mem_map]
  intro f hf g hg heq
  obtain ⟨name, rest, hpath⟩ := hkeys f hf
  obtain ⟨name', rest', hpath'⟩ := hkeys g hg
  have hplain := h.plain f hf
  have hplain' := h.plain g hg
  rw [hpath] at heq hplain ⊢
  rw [hpath'] at heq hplain' ⊢
  exact pathText_inj hplain hplain' heq

theorem About.perm {name : String} {fs gs : List (Finding S)} (h : About name fs)
    (hperm : fs.Perm gs) : About name gs :=
  ⟨fun g hg => h.within g (hperm.mem_iff.mpr hg), h.distinct.perm hperm⟩

/-! ## The elements of a document -/

theorem map_numbered (elements : List (Json S)) (about : Json S → Nat → List (Finding S)) :
    (numbered elements about).map (Finding.under [.key "elements"]) =
      elements.zipIdx.flatMap fun (v, i) => (about v i).map (Finding.under (elementPath i)) := by
  rw [numbered, List.map_flatMap]
  refine List.flatMap_congr fun item _ => ?_
  rw [List.map_map]
  exact List.map_congr_left fun f _ => under_under _ _ f

variable [Scalar S]

/-- The rounds of an audit over the elements say what can be said of them in one. -/
theorem elements_perm {doc : Record S} {elements : List (Json S)}
    (h : present? doc "elements" = some (.array elements)) :
    ((numbered elements (allFindings elements)).map (.under [.key "elements"])).Perm
      (elementsErrors doc ++ elementsWarnings doc) := by
  have herrors : elementsErrors doc =
      (numbered elements fun v _ => (element v).errors).map (.under [.key "elements"]) := by
    rw [elementsErrors, h, map_numbered]
    exact List.flatMap_map ..
  have hwarnings : elementsWarnings doc =
      (numbered elements fun v _ => (element v).warnings).map (.under [.key "elements"]) ++
      ((numbered elements (checkDuplicate elements)).map (.under [.key "elements"]) ++
        (numbered elements fun v _ => checkTargets elements v).map
          (.under [.key "elements"])) := by
    rw [elementsWarnings, h, map_numbered, map_numbered, map_numbered]
    exact congrArg (· ++ referenceWarnings elements) (List.flatMap_map ..)
  rw [herrors, hwarnings, ← List.map_append, ← List.map_append, ← List.map_append]
  refine List.Perm.map _ (List.Perm.symm ?_)
  -- the last two rounds in one, then the last three, then all
  have hreferences := numbered_append_perm elements (checkDuplicate elements)
    fun v _ => checkTargets elements v
  have hnotes := (hreferences.append_left
    (numbered elements fun v _ => (element v).warnings)).trans (numbered_append_perm elements _ _)
  exact (hnotes.append_left _).trans (numbered_append_perm elements _ _)

theorem about_elements (doc : Record S) :
    About "elements" (elementsErrors doc ++ elementsWarnings doc) := by
  have hname : (Step.key "elements").Plain := by decide
  cases h : present? doc "elements" with
  | none =>
    rw [elementsErrors, elementsWarnings, h]
    exact about_atField hname _
  | some v =>
    cases v with
    | array elements =>
      exact (about_under hname (distinct_numbered fun v _ i =>
        distinct_allFindings elements v i)).perm (elements_perm h)
    | _ =>
      rw [elementsErrors, elementsWarnings, h]
      exact about_atField hname _

/-! ## The document -/

omit [Scalar S] in
theorem about_checkFormat (doc : Record S) : About "type" (checkFormat doc) := by
  have hname : (Step.key "type").Plain := by decide
  unfold checkFormat
  split
  · exact about_atField hname _
  · split
    · exact about_nil _
    · exact about_atField hname _

/-- A version that is outside the known ones is a number. -/
theorem about_version (doc : Record S) :
    About "version" (checkVersion doc ++ versionWarnings doc) := by
  have hname : (Step.key "version").Plain := by decide
  rw [checkVersion, versionWarnings]
  cases present? doc "version" with
  | none => exact about_atField hname _
  | some v =>
    cases v with
    | number n =>
      show About "version" ([] ++ if _ then [] else _)
      split
      · exact about_nil _
      · exact about_atField hname _
    | _ => exact about_atField hname _

omit [Scalar S] in
theorem about_checkAppState (doc : Record S) : About "appState" (checkAppState doc) := by
  have hname : (Step.key "appState").Plain := by decide
  unfold checkAppState
  split
  · exact about_nil _
  · split
    · exact about_atField hname _
    · rename_i state _
      have hstate : ByField
          [("viewBackgroundColor", checkType state Json.isString .colorString
            "viewBackgroundColor"),
          ("gridSize", checkType state Json.isNumber .numberOrNull "gridSize")] := by
        refine ⟨by simp, ?_⟩
        simp only [List.forall_mem_cons, List.not_mem_nil, false_imp_iff, implies_true, and_true]
        exact ⟨about_checkType (by decide), about_checkType (by decide)⟩
      have hdistinct := hstate.distinct
      rw [List.flatMap_cons, List.flatMap_singleton] at hdistinct
      exact about_under hname hdistinct

/-- What is said of the fields of a document. -/
def documentParts (doc : Record S) : List (String × List (Finding S)) :=
  [("type", checkFormat doc),
    ("version", checkVersion doc ++ versionWarnings doc),
    ("source", checkType doc Json.isString .string "source"),
    ("elements", elementsErrors doc ++ elementsWarnings doc),
    ("appState", checkAppState doc),
    ("files", checkType doc isObject .object "files")]

theorem byField_documentParts (doc : Record S) : ByField (documentParts doc) := by
  refine ⟨by simp [documentParts], ?_⟩
  simp only [documentParts, List.forall_mem_cons, List.not_mem_nil, false_imp_iff, implies_true,
    and_true]
  exact ⟨about_checkFormat doc, about_version doc, about_checkType (by decide),
    about_elements doc, about_checkAppState doc, about_checkType (by decide)⟩

/-- The report on a document says what is said of its fields, errors first. -/
theorem documentParts_perm (doc : Record S) :
    ((documentParts doc).flatMap Prod.snd).Perm
      ((document (.object doc)).errors ++ (document (.object doc)).warnings) := by
  have herrors : (document (.object doc)).errors =
      headerErrors doc ++ elementsErrors doc ++ trailerErrors doc := rfl
  have hwarnings : (document (.object doc)).warnings =
      versionWarnings doc ++ elementsWarnings doc := rfl
  rw [herrors, hwarnings, headerErrors, trailerErrors]
  simp only [documentParts, List.flatMap_cons, List.flatMap_nil]
  simp only [← Multiset.coe_eq_coe, ← Multiset.coe_add]
  abel

/-- **Documents.** No two findings about a document are about one place. -/
theorem distinct_document (doc : Record S) :
    Distinct ((document (.object doc)).errors ++ (document (.object doc)).warnings) :=
  (byField_documentParts doc).distinct.perm (documentParts_perm doc)

theorem once_document (v : Json S) : (document v).Once := by
  refine .of_nodup ?_
  cases v with
  | object doc =>
    refine (distinct_document doc).nodup_pathText fun f hf => ?_
    have hpart := (documentParts_perm doc).mem_iff.mpr hf
    obtain ⟨part, hmem, hf⟩ := List.mem_flatMap.mp hpart
    exact ⟨part.1, ((byField_documentParts doc).about part hmem).within f hf⟩
  | _ => exact List.nodup_singleton _

theorem once_elementAt (index : Nat) (v : Json S) : (elementAt index v).Once := by
  have hall := distinct_allFindings [] v index
  rw [allFindings, ← List.append_assoc, distinct_append_iff] at hall
  have hunder : (elementAt index v).errors ++ (elementAt index v).warnings =
      ((element v).errors ++ (element v).warnings).map (.under (elementPath index)) :=
    List.map_append.symm
  refine .of_nodup ?_
  rw [hunder]
  have hplain : ∀ step ∈ elementPath index, step.Plain :=
    List.forall_mem_cons.mpr ⟨by decide, List.forall_mem_singleton.mpr trivial⟩
  refine (hall.1.under hplain).nodup_pathText ?_
  rw [List.forall_mem_map]
  exact fun f _ => ⟨"elements", .index index :: f.path, rfl⟩

/-- **No repetitions.** In the report on a value as a document, and in the one on it as the
element at any place, no path text comes twice. -/
theorem reported_once (v : Json S) : (document v).Once ∧ ∀ index, (elementAt index v).Once :=
  ⟨once_document v, fun index => once_elementAt index v⟩

end Whiteboard.Audit
