import Whiteboard.Audit.Report
import Whiteboard.Proofs.Audit.Quoted
import Whiteboard.Proofs.Json.OneLine

/-!
# Whiteboard — the lines of a report

A report is written for readers line by line: one line for each error, then one for each warning,
and one that closes it. A message may quote a string of the audited value as it is, and a line
break in this string ends the line of the finding early. What follows of the string stands on
lines of its own, and these may look like the lines of findings that were not made, or like one
that closes another report. Nothing else can bring a line break into the text: paths and the
fixed parts of messages have none, and values and numbers are written on one line.

So how many lines there are is known exactly, and the lines are those of the findings exactly if no
quoted text has a line break.

Main results:

* `breaks_message` — a message has the line breaks of the text that it quotes.
* `text_eq` — the text of a report, line by line.
* `report_lines` — the lines that are read in the text of a report.
* `not_rows_of_forged` — lines that no finding has made.
-/

namespace Whiteboard.Audit

open Text (OneLine breaks lines written)

/-! ## Paths -/

/-- A path whose keys have no line break is shown on one line. -/
theorem oneLine_pathText {path : Path} (h : ∀ name, Step.key name ∈ path → OneLine name) :
    OneLine (pathText path) := by
  have hstep : ∀ step ∈ path, OneLine step.text := by
    intro step hstep
    cases step with
    | key name =>
      rw [Step.text, Text.oneLine_append]
      exact ⟨by decide, h name hstep⟩
    | index n =>
      rw [Step.text, Text.oneLine_append, Text.oneLine_append]
      exact ⟨⟨by decide, oneLine_nat n⟩, by decide⟩
  have hsteps : ∀ rest : Path, (∀ step ∈ rest, OneLine step.text) → OneLine (stepsText rest) := by
    intro rest
    induction rest with
    | nil => exact fun _ => by decide
    | cons step rest ih =>
      intro hrest
      rw [stepsText, Text.oneLine_append]
      exact ⟨hrest step List.mem_cons_self, ih fun other hother =>
        hrest other (List.mem_cons_of_mem _ hother)⟩
  -- the first key has no dot before it
  cases path with
  | nil => decide
  | cons step rest =>
    cases step with
    | key name =>
      rw [pathText, Text.oneLine_append]
      exact ⟨h name List.mem_cons_self, hsteps rest fun step hrest =>
        hstep step (List.mem_cons_of_mem _ hrest)⟩
    | index n => exact hsteps _ hstep

/-! ## Messages -/

theorem breaks_of_oneLine {s : String} (h : OneLine s) : breaks s = 0 :=
  Text.breaks_eq_zero_iff.mpr h

theorem oneLine_ticked {name : String} (h : OneLine name) : OneLine (ticked name) := by
  rw [ticked, Text.oneLine_append, Text.oneLine_append]
  exact ⟨⟨by decide, h⟩, by decide⟩

@[simp] theorem breaks_doubleQuoted (text : String) : breaks (doubleQuoted text) = breaks text := by
  have hmark : breaks "\"" = 0 := by decide
  rw [doubleQuoted, Text.breaks_append, Text.breaks_append, hmark, Nat.zero_add, Nat.add_zero]

theorem oneLine_expected (expected : Expected) : OneLine expected.text := by
  cases expected <;> decide

/-- How many line breaks the text brings along that a message quotes. -/
def Problem.breaks {S : Type} (p : Problem S) : Nat := (p.quoted?.map Text.breaks).getD 0

theorem Problem.breaks_eq_zero_iff {S : Type} (p : Problem S) :
    p.breaks = 0 ↔ ∀ text, p.quoted? = some text → OneLine text := by
  rw [Problem.breaks]
  cases p.quoted? with
  | none => simp
  | some text =>
    rw [Option.map_some, Option.getD_some, Text.breaks_eq_zero_iff]
    constructor
    · intro h other hother
      obtain rfl := Option.some.inj hother
      exact h
    · exact fun h => h text rfl

/-- **Messages.** The line breaks of a message are those of the text that it quotes. -/
theorem breaks_message {p : Problem Float} (h : ∀ name ∈ p.names, OneLine name) :
    breaks p.message = p.breaks := by
  cases p with
  | missingField name =>
    have hname := oneLine_ticked (h name List.mem_cons_self)
    show breaks ("missing required field " ++ ticked name) = 0
    rw [Text.breaks_eq_zero_iff, Text.oneLine_append]
    exact ⟨by decide, hname⟩
  | wrongType name expected =>
    have hname := oneLine_ticked (h name List.mem_cons_self)
    show breaks (ticked name ++ " must be " ++ expected.text) = 0
    rw [Text.breaks_eq_zero_iff, Text.oneLine_append, Text.oneLine_append]
    exact ⟨⟨hname, by decide⟩, oneLine_expected expected⟩
  | wrongFormat expected found =>
    have hexpected := breaks_of_oneLine (h expected List.mem_cons_self)
    show breaks ("expected " ++ doubleQuoted expected ++ ", found " ++ found.compact) = 0
    rw [Text.breaks_eq_zero_iff, Text.oneLine_append, Text.oneLine_append, Text.oneLine_append]
    refine ⟨⟨⟨by decide, ?_⟩, by decide⟩, found.oneLine_compact⟩
    rw [← Text.breaks_eq_zero_iff, breaks_doubleQuoted, hexpected]
  | unknownVersion version =>
    show breaks ("format version " ++ String.ofList (Json.numberText version) ++
      " is outside the known range 1-3") = 0
    rw [Text.breaks_eq_zero_iff, Text.oneLine_append, Text.oneLine_append]
    refine ⟨⟨by decide, ?_⟩, by decide⟩
    rw [OneLine, String.toList_ofList]
    exact Json.not_mem_numberText version
  | opacityOutside value =>
    show breaks ("opacity " ++ floatText .plain value ++ " is outside 0-100") = 0
    rw [Text.breaks_eq_zero_iff, Text.oneLine_append, Text.oneLine_append]
    exact ⟨⟨by decide, oneLine_floatText .plain value⟩, by decide⟩
  | angleOutside value =>
    show breaks ("angle " ++ floatText .plain value ++ " is outside ±2π") = 0
    rw [Text.breaks_eq_zero_iff, Text.oneLine_append, Text.oneLine_append]
    exact ⟨⟨by decide, oneLine_floatText .plain value⟩, by decide⟩
  -- what follows quotes a text
  | unknownKind name =>
    show breaks ("unknown element type " ++ doubleQuoted name) = breaks name
    rw [Text.breaks_append, breaks_doubleQuoted]
    exact Nat.zero_add _
  | invalidName field name =>
    have hfield : OneLine ("invalid " ++ ticked field ++ " value ") := by
      rw [Text.oneLine_append, Text.oneLine_append]
      exact ⟨⟨by decide, oneLine_ticked (h field List.mem_cons_self)⟩, by decide⟩
    show breaks ("invalid " ++ ticked field ++ " value " ++ doubleQuoted name) = breaks name
    rw [Text.breaks_append, breaks_doubleQuoted, breaks_of_oneLine hfield, Nat.zero_add]
  | duplicateId id first =>
    have hfixed : breaks "duplicate id " = 0 ∧ breaks " (first used by elements[" = 0 ∧
        breaks "])" = 0 := by decide
    show breaks ("duplicate id " ++ doubleQuoted id ++ " (first used by elements[" ++
      toString first ++ "])") = breaks id
    simp only [Text.breaks_append, breaks_doubleQuoted, breaks_of_oneLine (oneLine_nat first)]
    omega
  | unknownBindingTarget id =>
    show breaks ("binding targets unknown element " ++ doubleQuoted id) = breaks id
    rw [Text.breaks_append, breaks_doubleQuoted]
    exact Nat.zero_add _
  | unknownBoundElement id =>
    show breaks ("bound element references unknown element " ++ doubleQuoted id) = breaks id
    rw [Text.breaks_append, breaks_doubleQuoted]
    exact Nat.zero_add _
  | documentNotObject | elementNotObject | groupIdNotString | boundElementNotObject
  | boundElementWithoutId | boundElementWithoutKind | textWithoutText | pointNotPair
  | pressuresNotNumbers | bindingWithoutElement => decide +kernel

/-! ## The text -/

/-- The line that is written for a finding. -/
def Finding.row (weight : String) (f : Finding Float) : String :=
  weight ++ pathText f.path ++ ": " ++ f.problem.message

namespace Report

/-- The line that closes a report: what was audited, the verdict and the counts. -/
def closing (path : String) (r : Report Float) : String :=
  path ++ ": " ++ (if r.valid then "valid" else "invalid") ++ " (" ++
    toString r.errors.length ++ " errors, " ++ toString r.warnings.length ++ " warnings)"

/-- The lines that are written: one for each error, one for each warning, and the closing one. -/
def rows (path : String) (r : Report Float) : List String :=
  r.errors.map (Finding.row "error   ") ++ r.warnings.map (Finding.row "warning ") ++
    [r.closing path]

theorem length_rows (path : String) (r : Report Float) :
    (r.rows path).length = r.errors.length + r.warnings.length + 1 := by
  rw [rows, List.length_append, List.length_append, List.length_map, List.length_map,
    List.length_singleton]

theorem text_eq (path : String) (r : Report Float) : r.text path = written (r.rows path) := by
  have hline : ∀ weight, line weight = (fun f : Finding Float => f.row weight ++ "\n") :=
    fun _ => rfl
  have hverdict : r.verdict path = r.closing path ++ "\n" := by
    have hend : (" warnings)\n" : String) = " warnings)" ++ "\n" := by decide
    rw [verdict, closing, hend, ← String.append_assoc]
  rw [text, written, rows, List.map_append, List.map_append, List.map_map, List.map_map,
    String.join_append, String.join_append, List.map_singleton, hverdict, hline, hline]
  rfl

/-- The line of a finding has the line breaks of the text that the finding quotes. -/
theorem breaks_row {v : Json Float} {f : Finding Float} (h : f.Tells v) {weight : String}
    (hweight : OneLine weight) : breaks (f.row weight) = f.problem.breaks := by
  have hcolon : breaks ": " = 0 := by decide
  rw [Finding.row, Text.breaks_append, Text.breaks_append, Text.breaks_append,
    breaks_of_oneLine hweight, breaks_of_oneLine (oneLine_pathText h.path), hcolon,
    breaks_message h.names]
  omega

theorem oneLine_closing {path : String} (hpath : OneLine path) (r : Report Float) :
    OneLine (r.closing path) := by
  have hverdict : OneLine (if r.valid then "valid" else "invalid") := by
    split <;> decide
  simp only [closing, Text.oneLine_append]
  exact ⟨⟨⟨⟨⟨⟨⟨hpath, by decide⟩, hverdict⟩, by decide⟩, oneLine_nat _⟩, by decide⟩, oneLine_nat _⟩,
    by decide⟩

/-- What is read in the text of a report on a value: a line for each finding, the closing line,
and one line more for each line break in a text that a finding quotes. The lines are those that
were written, in their order, exactly if no quoted text has a line break. What is quoted is a
string of the value, so they are if the value holds no string with a line break. -/
structure Reads (path : String) (v : Json Float) (r : Report Float) : Prop where
  count : (lines (r.text path)).length = r.errors.length + r.warnings.length + 1 +
    ((r.errors ++ r.warnings).map fun f => f.problem.breaks).sum
  rows_iff : lines (r.text path) = r.rows path ↔
    ∀ f ∈ r.errors ++ r.warnings, ∀ text, f.problem.quoted? = some text → OneLine text
  quoted : ∀ f ∈ r.errors ++ r.warnings, ∀ text, f.problem.quoted? = some text → v.Says text
  plain : (∀ text, v.Says text → OneLine text) → lines (r.text path) = r.rows path

theorem reads_of_faithful {v : Json Float} {r : Report Float}
    (h : Faithful v (r.errors ++ r.warnings)) {path : String} (hpath : OneLine path) :
    r.Reads path v := by
  obtain ⟨herrors, hwarnings⟩ := faithful_append.mp h
  have hclosing := oneLine_closing hpath r
  have hfindings : ∀ {fs : List (Finding Float)} {weight : String}, Faithful v fs →
      OneLine weight →
      (fs.map (Finding.row weight)).map breaks = fs.map fun f => f.problem.breaks := by
    intro fs weight hfs hweight
    rw [List.map_map]
    exact List.map_congr_left fun f hf => breaks_row (hfs f hf) hweight
  have hrows : (r.rows path).map breaks =
      ((r.errors ++ r.warnings).map fun f => f.problem.breaks) ++ [0] := by
    rw [rows, List.map_append, List.map_append, List.map_append, hfindings herrors (by decide),
      hfindings hwarnings (by decide), List.map_singleton, breaks_of_oneLine hclosing]
  have hquoted : ∀ f ∈ r.errors ++ r.warnings, ∀ text, f.problem.quoted? = some text →
      v.Says text := fun f hf => (h f hf).quoted
  have hiff : lines (r.text path) = r.rows path ↔
      ∀ f ∈ r.errors ++ r.warnings, ∀ text, f.problem.quoted? = some text → OneLine text := by
    calc lines (r.text path) = r.rows path
      _ ↔ ∀ row ∈ r.rows path, OneLine row := by rw [text_eq, Text.lines_written_iff]
      _ ↔ ∀ n ∈ (r.rows path).map breaks, n = 0 := by
        simp only [List.forall_mem_map, Text.breaks_eq_zero_iff]
      _ ↔ ∀ f ∈ r.errors ++ r.warnings, f.problem.breaks = 0 := by
        rw [hrows, List.forall_mem_append, List.forall_mem_map, List.forall_mem_singleton]
        exact and_iff_left rfl
      _ ↔ _ := forall₂_congr fun f _ => f.problem.breaks_eq_zero_iff
  refine ⟨?_, hiff, hquoted, fun hplain => hiff.mpr fun f hf text htext =>
    hplain text (hquoted f hf text htext)⟩
  rw [text_eq, Text.length_lines_written, length_rows, hrows, List.sum_append]
  rfl

end Report

/-! ## Reports on a value -/

/-- The reports that are made on a value: on a document or on an element at some place, and
either of them in the strict form. -/
inductive ReportOn (v : Json Float) : Report Float → Prop where
  | document : ReportOn v (document v)
  | elementAt (index : Nat) : ReportOn v (elementAt index v)
  | strict {r : Report Float} (h : ReportOn v r) : ReportOn v r.strict

theorem ReportOn.faithful {v : Json Float} {r : Report Float} (h : ReportOn v r) :
    Faithful v (r.errors ++ r.warnings) := by
  induction h with
  | document => exact faithful_document v
  | elementAt index => exact faithful_elementAt index v
  | strict _ ih => exact faithful_append.mpr ⟨ih, faithful_nil v⟩

/-- **The lines of a report.** Whatever the value is that was audited, and however strictly, the
text of the report has a line for each finding and one that closes it, and further ones only where
a finding quotes a string of the value with line breaks, as many as there are. Without these the
lines are those of the errors in order, those of the warnings in order and the closing one. -/
theorem report_lines {v : Json Float} {r : Report Float} (hr : ReportOn v r) {path : String}
    (hpath : OneLine path) : r.Reads path v :=
  Report.reads_of_faithful hr.faithful hpath

/-- A document without a version whose only element is of a kind of this name. -/
def documentOf (kind : String) : Json Float :=
  let zero : Json Float := .nat 0
  .object [("type", .string Drawing.formatTag), ("elements", .array [.object [("id", .string "e"),
    ("type", .string kind), ("x", zero), ("y", zero), ("width", zero), ("height", zero),
    ("version", zero), ("seed", zero)]])]

/-- The name of the kind is quoted, and it has no line break: the strict report has a line for each
of its two errors and the closing one. -/
theorem report_lines_of_box :
    let r := (document (documentOf "box")).strict
    OneLine "a.json" ∧ (r.errors.length, r.warnings.length) = (2, 0) ∧
    lines (r.text "a.json") = r.rows "a.json" ∧ (lines (r.text "a.json")).length = 3 := by
  intro r
  have hpath : OneLine "a.json" := by decide
  have hcounts : (r.errors.length, r.warnings.length) = (2, 0) := by decide +kernel
  have hbox : (r.errors ++ r.warnings).map (fun f => f.problem.quoted?) = [none, some "box"] := by
    decide +kernel
  have hread := report_lines (ReportOn.strict (.document (v := documentOf "box"))) hpath
  have hrows : lines (r.text "a.json") = r.rows "a.json" := by
    refine hread.rows_iff.mpr fun f hf text htext => ?_
    have hmem := List.mem_map_of_mem (f := fun f => f.problem.quoted?) hf
    rw [hbox, htext] at hmem
    obtain rfl : text = "box" := by simpa using hmem
    decide
  refine ⟨hpath, hcounts, hrows, ?_⟩
  obtain ⟨herrors, hwarnings⟩ := Prod.mk.inj hcounts
  rw [hrows, Report.length_rows, herrors, hwarnings]

/-- **Lines that no finding has made.** The report on a document may have a line that looks like
the closing line of another report, if the document has it in a string. -/
theorem not_rows_of_forged :
    let r := document (documentOf "x\na: valid (0 errors, 0 warnings)\n")
    OneLine "a" ∧ r.valid = false ∧
    (lines (r.text "a")).length ≠ r.errors.length + r.warnings.length + 1 ∧
    "a: valid (0 errors, 0 warnings)" ∈ lines (r.text "a") := by
  decide +kernel

end Whiteboard.Audit
