import Whiteboard.Audit.Element
import Whiteboard.Drawing.Document

/-!
# Whiteboard — the audit of a document

A document is audited in parts: its header, its elements one by one, the
references between them, and what follows the elements. The report is the parts
in order; references are never worse than a warning.
-/

namespace Whiteboard.Audit

variable {S : Type}

/-! ## Header and trailer -/

def checkFormat (doc : Record S) : List (Finding S) :=
  match present? doc "type" with
  | none => [atField "type" (.missingField "type")]
  | some found =>
    if found.string? = some Drawing.formatTag then []
    else [atField "type" (.wrongFormat Drawing.formatTag found)]

def checkVersion (doc : Record S) : List (Finding S) :=
  match present? doc "version" with
  | none => [atField "version" (.missingField "version")]
  | some v => if v.isNumber then [] else [atField "version" (.wrongType "version" .number)]

/-- The errors before those of the elements. -/
def headerErrors (doc : Record S) : List (Finding S) :=
  checkFormat doc ++ checkVersion doc ++ checkType doc Json.isString .string "source"

/-- The state that a viewer keeps. -/
def checkAppState (doc : Record S) : List (Finding S) :=
  match present? doc "appState" with
  | none => []
  | some v =>
    match v.object? with
    | none => [atField "appState" (.wrongType "appState" .object)]
    | some state =>
      (checkType state Json.isString .colorString "viewBackgroundColor" ++
        checkType state Json.isNumber .numberOrNull "gridSize").map (.under [.key "appState"])

/-- Whether a value is an object. -/
def isObject (v : Json S) : Bool := v.object?.isSome

/-- The errors after those of the elements. -/
def trailerErrors (doc : Record S) : List (Finding S) :=
  checkAppState doc ++ checkType doc isObject .object "files"

/-! ## References -/

/-- The id of an element, if it is a string. -/
def idOf (v : Json S) : Option String := (v.get? "id").bind Json.string?

/-- The places of elements by their ids. -/
def firstWithId (elements : List (Json S)) (id : String) : Option Nat :=
  elements.findIdx? fun v => idOf v == some id

/-- A warning for an element whose id an earlier one has. -/
def checkDuplicate (elements : List (Json S)) (v : Json S) (index : Nat) : List (Finding S) :=
  match idOf v with
  | none => []
  | some id =>
    match firstWithId elements id with
    | some first => if first < index then [atField "id" (.duplicateId id first)] else []
    | none => []

/-- A warning for a reference to an id that no element has. -/
def checkTarget (elements : List (Json S)) (target : Option String)
    (problem : String → Problem S) (name : String) : List (Finding S) :=
  match target with
  | none => []
  | some id => if (firstWithId elements id).isSome then [] else [atField name (problem id)]

def checkBindingTarget (elements : List (Json S)) (v : Json S) (name : String) :
    List (Finding S) :=
  let target := (v.get? name).bind fun b => (b.get? "elementId").bind Json.string?
  (checkTarget elements target .unknownBindingTarget "elementId").map (.under [.key name])

def checkBoundTargets (elements : List (Json S)) (v : Json S) : List (Finding S) :=
  match (v.get? "boundElements").bind Json.array? with
  | none => []
  | some entries =>
    (eachItem entries fun entry =>
      checkTarget elements (idOf entry) .unknownBoundElement "id").map
        (.under [.key "boundElements"])

/-- The warnings about the references of an element. -/
def checkTargets (elements : List (Json S)) (v : Json S) : List (Finding S) :=
  ["startBinding", "endBinding"].flatMap (checkBindingTarget elements v) ++
  checkBoundTargets elements v

/-- The warnings about ids and references, all duplicates first. -/
def referenceWarnings (elements : List (Json S)) : List (Finding S) :=
  (elements.zipIdx.flatMap fun (v, i) =>
    (checkDuplicate elements v i).map (.under (elementPath i))) ++
  (elements.zipIdx.flatMap fun (v, i) =>
    (checkTargets elements v).map (.under (elementPath i)))

/-! ## The document -/

variable [Scalar S]

/-- A warning for a version that is a number outside the known ones. -/
def versionWarnings (doc : Record S) : List (Finding S) :=
  match present? doc "version" with
  | some (.number n) =>
    if 1.0 ≤ scalarOf n ∧ scalarOf n ≤ 3.0 then [] else [atField "version" (.unknownVersion n)]
  | _ => []

/-- The reports on all elements in order. -/
def elementReports (elements : List (Json S)) : List (Report S) :=
  elements.zipIdx.map fun (v, i) => elementAt i v

/-- The errors about the elements of a document. -/
def elementsErrors (doc : Record S) : List (Finding S) :=
  match present? doc "elements" with
  | none => [atField "elements" (.missingField "elements")]
  | some v =>
    match v.array? with
    | none => [atField "elements" (.wrongType "elements" .array)]
    | some elements => (elementReports elements).flatMap Report.errors

/-- The warnings about the elements of a document and their references. -/
def elementsWarnings (doc : Record S) : List (Finding S) :=
  match (present? doc "elements").bind Json.array? with
  | none => []
  | some elements =>
    (elementReports elements).flatMap Report.warnings ++ referenceWarnings elements

/-- The report on a document. -/
def document (v : Json S) : Report S :=
  match v.object? with
  | none => ⟨[⟨[], .documentNotObject⟩], []⟩
  | some doc =>
    ⟨headerErrors doc ++ elementsErrors doc ++ trailerErrors doc,
     versionWarnings doc ++ elementsWarnings doc⟩

end Whiteboard.Audit
