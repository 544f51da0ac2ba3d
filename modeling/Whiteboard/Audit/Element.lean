import Whiteboard.Audit.Finding
import Whiteboard.Drawing.Kind
import Whiteboard.Number.Scalar

/-!
# Whiteboard — the audit of an element

An element is audited as JSON, so that one which cannot be decoded can still be
described. A field that is `null` counts as missing. The rules come in the order
of the errors they report: fields that must be there, closed sets of names, types
of the other fields, and what the kind of the element asks for. Two fields have a
range whose violation is only a warning.
-/

namespace Whiteboard.Audit

variable {S : Type}

/-- The fields of an object. -/
abbrev Record (S : Type) := List (String × Json S)

/-- A field that is there and not `null`. -/
def present? (el : Record S) (name : String) : Option (Json S) :=
  (Json.field? name el).filter fun v => !v.isNull

/-- A finding about a field of the audited record. -/
def atField (name : String) (problem : Problem S) : Finding S := ⟨[.key name], problem⟩

/-- A field, if present, must pass a test. -/
def checkType (el : Record S) (test : Json S → Bool) (expected : Expected) (name : String) :
    List (Finding S) :=
  match present? el name with
  | some v => if test v then [] else [atField name (.wrongType name expected)]
  | none => []

/-- Numbers the findings about the items of a list by their places. -/
def eachItem {α : Type} (items : List α) (check : α → List (Finding S)) : List (Finding S) :=
  items.zipIdx.flatMap fun (item, i) => (check item).map (.under [.index i])

/-! ## Fields that must be there -/

def requiredFields : List String :=
  ["id", "type", "x", "y", "width", "height", "version", "seed"]

def checkRequired (el : Record S) (name : String) : List (Finding S) :=
  match present? el name with
  | some _ => []
  | none => [atField name (.missingField name)]

/-! ## Closed sets -/

/-- The kind that an element names, if there is one of that name. -/
def kindOf (el : Record S) : Option Drawing.Kind :=
  (present? el "type").bind fun v => v.string?.bind Named.ofName?

def checkKind (el : Record S) : List (Finding S) :=
  match present? el "type" with
  | none => []
  | some v =>
    match v.string? with
    | none => [atField "type" (.wrongType "type" .string)]
    | some name =>
      match (Named.ofName? name : Option Drawing.Kind) with
      | some _ => []
      | none => [atField "type" (.unknownKind name)]

/-- A field, if present, must name a member of a closed set. -/
def checkNamed (α : Type) [Named α] (el : Record S) (name : String) : List (Finding S) :=
  match present? el name with
  | none => []
  | some v =>
    match v.string? with
    | none => [atField name (.wrongType name .string)]
    | some s =>
      match (Named.ofName? s : Option α) with
      | some _ => []
      | none => [atField name (.invalidName name s)]

/-! ## Types -/

def numericFields : List String :=
  ["x", "y", "width", "height", "angle", "strokeWidth", "roughness", "opacity", "seed",
   "version", "versionNonce", "updated", "fontSize", "fontFamily", "lineHeight"]

def colorFields : List String := ["strokeColor", "backgroundColor"]

def booleanFields : List String := ["isDeleted", "locked"]

def textFields : List String := ["frameId", "link"]

def checkGroupIds (el : Record S) : List (Finding S) :=
  match present? el "groupIds" with
  | none => []
  | some v =>
    match v.array? with
    | none => [atField "groupIds" (.wrongType "groupIds" .array)]
    | some groups =>
      (eachItem groups fun g => if g.isString then [] else [⟨[], .groupIdNotString⟩]).map
        (.under [.key "groupIds"])

/-- An entry of the connectors attached to an element. -/
def checkBoundElement (v : Json S) : List (Finding S) :=
  match v.object? with
  | none => [⟨[], .boundElementNotObject⟩]
  | some entry =>
    (if ((present? entry "id").map Json.isString).getD false then []
      else [atField "id" .boundElementWithoutId]) ++
    (if (kindOf entry).isSome then [] else [atField "type" .boundElementWithoutKind])

def checkBoundElements (el : Record S) : List (Finding S) :=
  match present? el "boundElements" with
  | none => []
  | some v =>
    match v.array? with
    | none => [atField "boundElements" (.wrongType "boundElements" .arrayOrNull)]
    | some entries => (eachItem entries checkBoundElement).map (.under [.key "boundElements"])

/-! ## What the kind asks for -/

def checkText (el : Record S) : List (Finding S) :=
  if ((present? el "text").map Json.isString).getD false then []
  else [atField "text" .textWithoutText]

/-- A point is an array of two numbers. -/
def isPoint : Json S → Bool
  | .array [x, y] => x.isNumber && y.isNumber
  | _ => false

/-- Points must be an array; in a line or an arrow, of points. -/
def checkPoints (el : Record S) (pairs : Bool) : List (Finding S) :=
  match (present? el "points").bind Json.array? with
  | none => [atField "points" (.wrongType "points" .array)]
  | some points =>
    if pairs then
      (eachItem points fun p => if isPoint p then [] else [⟨[], .pointNotPair⟩]).map
        (.under [.key "points"])
    else []

def checkBinding (el : Record S) (name : String) : List (Finding S) :=
  match present? el name with
  | none => []
  | some v =>
    match v.object? with
    | none => [atField name (.wrongType name .objectOrNull)]
    | some binding =>
      ((if ((present? binding "elementId").map Json.isString).getD false then []
        else [atField "elementId" .bindingWithoutElement]) ++
      ["focus", "gap"].flatMap (checkType binding Json.isNumber .number)).map
        (.under [.key name])

def checkPressures (el : Record S) : List (Finding S) :=
  match present? el "pressures" with
  | none => []
  | some v =>
    match v.array? with
    | none => [atField "pressures" (.wrongType "pressures" .array)]
    | some values =>
      if values.all Json.isNumber then [] else [atField "pressures" .pressuresNotNumbers]

/-- The rules of the kind; a kind without payload has none. -/
def checkPayload (el : Record S) : Option Drawing.Kind → List (Finding S)
  | some .text => checkText el
  | some .line | some .arrow =>
    checkPoints el true ++
    ["startArrowhead", "endArrowhead"].flatMap (checkNamed Drawing.Arrowhead el) ++
    ["startBinding", "endBinding"].flatMap (checkBinding el)
  | some .freedraw => checkPoints el false ++ checkPressures el
  | _ => []

/-! ## The element -/

/-- The errors of an element that is an object. -/
def recordErrors (el : Record S) : List (Finding S) :=
  requiredFields.flatMap (checkRequired el) ++
  checkKind el ++
  checkNamed Drawing.FillStyle el "fillStyle" ++
  checkNamed Drawing.StrokeStyle el "strokeStyle" ++
  checkNamed Drawing.TextAlign el "textAlign" ++
  checkNamed Drawing.VerticalAlign el "verticalAlign" ++
  checkType el Json.isString .string "id" ++
  numericFields.flatMap (checkType el Json.isNumber .number) ++
  colorFields.flatMap (checkType el Json.isString .colorString) ++
  booleanFields.flatMap (checkType el Json.isBool .boolean) ++
  checkGroupIds el ++
  textFields.flatMap (checkType el Json.isString .stringOrNull) ++
  checkBoundElements el ++
  checkPayload el (kindOf el)

variable [Scalar S]

/-- A number as a scalar. -/
def scalarOf : Number S → S
  | .int n => Scalar.ofInt n
  | .real x => x

/-- The scalar that a field holds, if it is a number. -/
def scalar? (el : Record S) (name : String) : Option S :=
  (present? el name).bind fun
    | .number n => some (scalarOf n)
    | _ => none

def checkOpacity (el : Record S) : List (Finding S) :=
  match scalar? el "opacity" with
  | some v => if 0.0 ≤ v ∧ v ≤ 100.0 then [] else [atField "opacity" (.opacityOutside v)]
  | none => []

def checkAngle (el : Record S) : List (Finding S) :=
  match scalar? el "angle" with
  | some v => if Scalar.turn < Scalar.abs v then [atField "angle" (.angleOutside v)] else []
  | none => []

/-- The warnings of an element that is an object. -/
def recordWarnings (el : Record S) : List (Finding S) := checkOpacity el ++ checkAngle el

/-- The report on an element, with paths from the element. -/
def element (v : Json S) : Report S :=
  match v.object? with
  | none => ⟨[⟨[], .elementNotObject⟩], []⟩
  | some el => ⟨recordErrors el, recordWarnings el⟩

/-- The path to an element of a document. -/
def elementPath (index : Nat) : Path := [.key "elements", .index index]

/-- The report on an element that stands at a place of a document. -/
def elementAt (index : Nat) (v : Json S) : Report S := (element v).under (elementPath index)

end Whiteboard.Audit
