import Whiteboard.Audit.Finding

/-!
# Whiteboard — reports for readers

A report is presented as JSON, with its counts, or as text, a line for each
finding and a verdict at the end.
-/

namespace Whiteboard.Audit

variable {S : Type} [Numeral S]

def Finding.toJson (f : Finding S) : Json S :=
  .object [("path", .string (pathText f.path)), ("message", .string f.problem.message)]

namespace Report

/-- The report with its verdict and its counts. -/
def toJson (r : Report S) : Json S :=
  .object [("valid", .bool r.valid),
    ("errorCount", .nat r.errors.length),
    ("warningCount", .nat r.warnings.length),
    ("errors", .array (r.errors.map Finding.toJson)),
    ("warnings", .array (r.warnings.map Finding.toJson))]

/-- A line for a finding, after a word for its weight. -/
def line (weight : String) (f : Finding S) : String :=
  weight ++ pathText f.path ++ ": " ++ f.problem.message ++ "\n"

/-- The closing line: what was audited, the verdict and the counts. -/
def verdict (path : String) (r : Report S) : String :=
  path ++ ": " ++ (if r.valid then "valid" else "invalid") ++ " (" ++
    toString r.errors.length ++ " errors, " ++ toString r.warnings.length ++ " warnings)\n"

/-- The report as text. -/
def text (path : String) (r : Report S) : String :=
  String.join (r.errors.map (line "error   ")) ++
  String.join (r.warnings.map (line "warning ")) ++
  verdict path r

end Report

end Whiteboard.Audit
