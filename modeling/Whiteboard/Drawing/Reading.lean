import Whiteboard.Drawing.Document
import Whiteboard.Drawing.Draft
import Whiteboard.Drawing.Revision
import Whiteboard.Json.Decode
import Whiteboard.Json.Reader

/-!
# Whiteboard — reading documents, elements, drafts and revisions

The typed decoders of the library. An element is stricter than other records: it
must be an object, and whatever stands in fields that are not common to all kinds
is judged as JSON — numbers in range, strings that are texts, no deeper nesting
than a reader follows — even if the kind has no such field.
-/

namespace Whiteboard.Drawing

open Decode

variable {S : Type} [Scalar S] [Numeral S]

/-! ## Parts of elements -/

def Roundness.decode? (t : Tree) : Option (Roundness S) := do
  let fs ← record? ["type", "value"] 1 t
  return {
    algorithm := ← fs.required? "type" uint8?
    value := ← fs.optional? "value" scalar? }

def Binding.decode? (t : Tree) : Option (Binding S) := do
  let fs ← record? ["elementId", "focus", "gap"] 3 t
  return {
    elementId := ← fs.required? "elementId" text?
    focus := ← fs.required? "focus" scalar?
    gap := ← fs.required? "gap" scalar? }

def BoundElement.decode? (t : Tree) : Option BoundElement := do
  let fs ← record? ["id", "type"] 2 t
  return {
    id := ← fs.required? "id" text?
    kind := ← fs.required? "type" (named? isNull) }

/-- The names of the fields that only texts have. -/
def TextBody.fieldNames : List String :=
  ["text", "fontSize", "fontFamily", "textAlign", "verticalAlign", "containerId",
   "originalText", "lineHeight", "autoResize"]

def TextBody.decode? (fields : List (Option String × Tree)) : Option (TextBody S) := do
  let fs ← known? TextBody.fieldNames fields
  return {
    text := ← fs.required? "text" text?
    fontSize := ← fs.required? "fontSize" scalar?
    fontFamily := ← fs.required? "fontFamily" uint8?
    textAlign := ← fs.required? "textAlign" (named? isEmpty)
    verticalAlign := ← fs.required? "verticalAlign" (named? isEmpty)
    containerId := ← fs.optional? "containerId" text?
    originalText := ← fs.required? "originalText" text?
    lineHeight := ← fs.required? "lineHeight" scalar?
    autoResize := ← fs.defaulted? "autoResize" false bool? }

/-- The names of the fields that only lines and arrows have. -/
def Polyline.fieldNames : List String :=
  ["points", "lastCommittedPoint", "startBinding", "endBinding", "startArrowhead",
   "endArrowhead"]

def Polyline.decode? (fields : List (Option String × Tree)) : Option (Polyline S) := do
  let fs ← known? Polyline.fieldNames fields
  return {
    points := ← fs.required? "points" (list? point?)
    lastCommittedPoint := ← fs.optional? "lastCommittedPoint" point?
    startBinding := ← fs.optional? "startBinding" Binding.decode?
    endBinding := ← fs.optional? "endBinding" Binding.decode?
    startArrowhead := ← fs.optional? "startArrowhead" (named? isEmpty)
    endArrowhead := ← fs.optional? "endArrowhead" (named? isEmpty) }

/-- The names of the fields that only freehand strokes have. -/
def Freehand.fieldNames : List String :=
  ["points", "pressures", "simulatePressure", "lastCommittedPoint"]

def Freehand.decode? (fields : List (Option String × Tree)) : Option (Freehand S) := do
  let fs ← known? Freehand.fieldNames fields
  return {
    points := ← fs.required? "points" (list? point?)
    pressures := ← fs.defaulted? "pressures" [] (list? scalar?)
    simulatePressure := ← fs.required? "simulatePressure" bool?
    lastCommittedPoint := ← fs.optional? "lastCommittedPoint" point? }

/-- The kinds that elements of a document can have, in the order of their numbers. -/
def drawnKinds : List Kind := [.rectangle, .ellipse, .diamond, .text, .line, .arrow, .freedraw]

/-- A kind by its name or by its number. -/
def drawnKind? : Tree → Option Kind
  | .string (some s) => (Named.ofName? s).filter drawnKinds.contains
  | .number l => l.int?.bind fun n => if n < 0 then none else drawnKinds[n.toNat]?
  | _ => none

/-- A shape from its kind and the fields that are not common to all kinds. -/
def Shape.decode? (fields : List (Option String × Tree)) : Kind → Option (Shape S)
  | .rectangle => some .rectangle
  | .ellipse => some .ellipse
  | .diamond => some .diamond
  | .text => (TextBody.decode? fields).map .text
  | .line => (Polyline.decode? fields).map .line
  | .arrow => (Polyline.decode? fields).map .arrow
  | .freedraw => (Freehand.decode? fields).map .freedraw
  | _ => none

/-! ## Elements -/

/-- The names of the fields that every element has, its kind apart. -/
def Element.fieldNames : List String :=
  ["id", "x", "y", "width", "height", "angle", "strokeColor", "backgroundColor", "fillStyle",
   "strokeWidth", "strokeStyle", "roughness", "opacity", "roundness", "seed", "version",
   "versionNonce", "isDeleted", "groupIds", "frameId", "boundElements", "updated", "link",
   "locked"]

/-- Whether a field is common to all elements. -/
def isCommonField (f : Option String × Tree) : Bool :=
  (f.1.map Element.fieldNames.contains).getD false

/-- An element whose parts may nest at most `room` levels deep. -/
def Element.decode? (room : Nat) : Tree → Option (Element S)
  | .object fields => do
    let fs ← known? Element.fieldNames fields
    -- the fields of the shape and unknown ones are judged before the kind is known
    let others := fields.filter fun f => !isCommonField f
    let _ ← others.mapM fun (f : Option String × Tree) => (f.2.value? room : Option (Json S))
    let tag ← known? ["type"] others
    let kind ← tag.required? "type" drawnKind?
    return {
      id := ← fs.required? "id" text?
      shape := ← Shape.decode? others kind
      x := ← fs.required? "x" scalar?
      y := ← fs.required? "y" scalar?
      width := ← fs.required? "width" scalar?
      height := ← fs.required? "height" scalar?
      angle := ← fs.required? "angle" scalar?
      strokeColor := ← fs.required? "strokeColor" text?
      backgroundColor := ← fs.required? "backgroundColor" text?
      fillStyle := ← fs.required? "fillStyle" (named? isNull)
      strokeWidth := ← fs.required? "strokeWidth" scalar?
      strokeStyle := ← fs.required? "strokeStyle" (named? isNull)
      roughness := ← fs.required? "roughness" uint8?
      opacity := ← fs.required? "opacity" uint8?
      roundness := ← fs.optional? "roundness" Roundness.decode?
      seed := ← fs.required? "seed" uint32?
      version := ← fs.required? "version" uint32?
      versionNonce := ← fs.required? "versionNonce" uint32?
      isDeleted := ← fs.required? "isDeleted" bool?
      groupIds := ← fs.defaulted? "groupIds" [] (list? text?)
      frameId := ← fs.optional? "frameId" text?
      boundElements := ← fs.optional? "boundElements" (list? BoundElement.decode?)
      updated := ← fs.required? "updated" int64?
      link := ← fs.optional? "link" text?
      locked := ← fs.required? "locked" bool? }
  | _ => none

/-! ## Documents -/

def Canvas.decode? (t : Tree) : Option (Canvas S) := do
  let fs ← record? ["viewBackgroundColor", "gridSize"] 2 t
  return {
    background := ← fs.required? "viewBackgroundColor" text?
    gridSize := ← fs.optional? "gridSize" scalar? }

/-- Attached files are an object of any JSON values. -/
def files? (room : Nat) (t : Tree) : Option (List (String × Json S)) :=
  (t.value? room).bind Json.object?

/-- A document that may nest at most `room` levels deep. -/
def Document.decode? (room : Nat) (t : Tree) : Option (Document S) := do
  let fs ← record? ["type", "version", "source", "elements", "appState", "files"] 4 t
  return {
    format := ← fs.required? "type" text?
    version := ← fs.required? "version" uint32?
    source := ← fs.defaulted? "source" "" text?
    -- the document, the list and the element take a level each
    elements := ← fs.required? "elements" (list? (Element.decode? (room - 3)))
    canvas := ← fs.defaulted? "appState" Canvas.blank Canvas.decode?
    files := ← fs.defaulted? "files" [] (files? (room - 1)) }

/-! ## Drafts and revisions -/

/-- The names of the fields of a draft. -/
def Draft.fieldNames : List String :=
  ["type", "id", "x", "y", "width", "height", "angle", "strokeColor", "backgroundColor",
   "fillStyle", "strokeWidth", "strokeStyle", "roughness", "opacity", "roundness", "groupIds",
   "frameId", "link", "locked", "text", "fontSize", "fontFamily", "textAlign", "verticalAlign",
   "points", "startArrowhead", "endArrowhead", "pressures"]

def Draft.decode? (t : Tree) : Option (Draft S) := do
  let fs ← record? Draft.fieldNames 0 t
  return {
    kind := ← fs.defaulted? "type" "" text?
    id := ← fs.optional? "id" text?
    x := ← fs.defaulted? "x" 0.0 scalar?
    y := ← fs.defaulted? "y" 0.0 scalar?
    width := ← fs.optional? "width" scalar?
    height := ← fs.optional? "height" scalar?
    angle := ← fs.optional? "angle" scalar?
    strokeColor := ← fs.optional? "strokeColor" text?
    backgroundColor := ← fs.optional? "backgroundColor" text?
    fillStyle := ← fs.optional? "fillStyle" (named? isNull)
    strokeWidth := ← fs.optional? "strokeWidth" scalar?
    strokeStyle := ← fs.optional? "strokeStyle" (named? isNull)
    roughness := ← fs.optional? "roughness" uint8?
    opacity := ← fs.optional? "opacity" uint8?
    roundness := ← fs.nullable? "roundness" Roundness.decode?
    groupIds := ← fs.optional? "groupIds" (list? text?)
    frameId := ← fs.optional? "frameId" text?
    link := ← fs.optional? "link" text?
    locked := ← fs.optional? "locked" bool?
    text := ← fs.optional? "text" text?
    fontSize := ← fs.optional? "fontSize" scalar?
    fontFamily := ← fs.optional? "fontFamily" uint8?
    textAlign := ← fs.optional? "textAlign" (named? isNull)
    verticalAlign := ← fs.optional? "verticalAlign" (named? isNull)
    points := ← fs.optional? "points" (list? point?)
    startArrowhead := ← fs.nullable? "startArrowhead" (named? isNull)
    endArrowhead := ← fs.nullable? "endArrowhead" (named? isNull)
    pressures := ← fs.optional? "pressures" (list? scalar?) }

/-- The names of the fields of a revision. -/
def Revision.fieldNames : List String :=
  ["x", "y", "width", "height", "angle", "strokeColor", "backgroundColor", "fillStyle",
   "strokeWidth", "strokeStyle", "roughness", "opacity", "roundness", "groupIds", "frameId",
   "link", "locked", "isDeleted", "text", "fontSize", "fontFamily", "textAlign",
   "verticalAlign", "points", "startBinding", "endBinding", "startArrowhead", "endArrowhead",
   "pressures"]

def Revision.decode? (t : Tree) : Option (Revision S) := do
  let fs ← record? Revision.fieldNames 0 t
  return {
    x := ← fs.optional? "x" scalar?
    y := ← fs.optional? "y" scalar?
    width := ← fs.optional? "width" scalar?
    height := ← fs.optional? "height" scalar?
    angle := ← fs.optional? "angle" scalar?
    strokeColor := ← fs.optional? "strokeColor" text?
    backgroundColor := ← fs.optional? "backgroundColor" text?
    fillStyle := ← fs.optional? "fillStyle" (named? isNull)
    strokeWidth := ← fs.optional? "strokeWidth" scalar?
    strokeStyle := ← fs.optional? "strokeStyle" (named? isNull)
    roughness := ← fs.optional? "roughness" uint8?
    opacity := ← fs.optional? "opacity" uint8?
    roundness := ← fs.nullable? "roundness" Roundness.decode?
    groupIds := ← fs.optional? "groupIds" (list? text?)
    frameId := ← fs.nullable? "frameId" text?
    link := ← fs.nullable? "link" text?
    locked := ← fs.optional? "locked" bool?
    isDeleted := ← fs.optional? "isDeleted" bool?
    text := ← fs.optional? "text" text?
    fontSize := ← fs.optional? "fontSize" scalar?
    fontFamily := ← fs.optional? "fontFamily" uint8?
    textAlign := ← fs.optional? "textAlign" (named? isNull)
    verticalAlign := ← fs.optional? "verticalAlign" (named? isNull)
    points := ← fs.optional? "points" (list? point?)
    startBinding := ← fs.nullable? "startBinding" Binding.decode?
    endBinding := ← fs.nullable? "endBinding" Binding.decode?
    startArrowhead := ← fs.nullable? "startArrowhead" (named? isNull)
    endArrowhead := ← fs.nullable? "endArrowhead" (named? isNull)
    pressures := ← fs.optional? "pressures" (list? scalar?) }

/-! ## Texts -/

/-- The element that a text spells. -/
def Element.read? (text : String) : Option (Element S) :=
  (Tree.read? text).bind (Element.decode? (Tree.nestingLimit - 1))

/-- The document that a text spells. -/
def Document.read? (text : String) : Option (Document S) :=
  (Tree.read? text).bind (Document.decode? Tree.nestingLimit)

/-- The draft that a text spells. -/
def Draft.read? (text : String) : Option (Draft S) := (Tree.read? text).bind Draft.decode?

/-- The revision that a text spells. -/
def Revision.read? (text : String) : Option (Revision S) :=
  (Tree.read? text).bind Revision.decode?

end Whiteboard.Drawing
