import Whiteboard.Drawing.Document
import Whiteboard.Number.Scalar

/-!
# Whiteboard — the form of a document in JSON

Every record is an object with its fields in a fixed order. An element's object
begins with its id and its kind and then has what the kind carries. A number that
is not finite has no JSON form and becomes `null`.
-/

namespace Whiteboard

variable {S : Type}

namespace Json

/-- A scalar, or `null` for one that is not finite. -/
def scalar [Scalar S] (x : S) : Json S := if Scalar.isFinite x then .number (.real x) else .null

/-- A member of a closed set by its name. -/
def named {α : Type} [Named α] (a : α) : Json S := .string (Named.name a)

/-- A value, or `null` for none. -/
def option {α : Type} (form : α → Json S) : Option α → Json S
  | some a => form a
  | none => .null

/-- The items of a list in their forms. -/
def list {α : Type} (form : α → Json S) (items : List α) : Json S := .array (items.map form)

/-- A word of eight bits. -/
def uint8 (n : UInt8) : Json S := .number (.int n.toNat)

/-- A word of 32 bits. -/
def uint32 (n : UInt32) : Json S := .number (.int n.toNat)

/-- A signed word of 64 bits. -/
def int64 (n : Int64) : Json S := .number (.int n.toInt)

/-- A point as an array of its coordinates. -/
def point [Scalar S] (p : Point S) : Json S := .array [scalar p.x, scalar p.y]

end Json

namespace Drawing

open Json (scalar named option list uint8 uint32 int64 point)

variable [Scalar S]

/-- A rounding without a value has no field for it. -/
def Roundness.toJson (r : Roundness S) : Json S :=
  .object (("type", uint8 r.algorithm) ::
    match r.value with
    | some v => [("value", scalar v)]
    | none => [])

def Binding.toJson (b : Binding S) : Json S :=
  .object [("elementId", .string b.elementId), ("focus", scalar b.focus), ("gap", scalar b.gap)]

omit [Scalar S] in
def BoundElement.toJson (b : BoundElement) : Json S :=
  .object [("id", .string b.id), ("type", named b.kind)]

def TextBody.fields (t : TextBody S) : List (String × Json S) :=
  [("text", .string t.text),
   ("fontSize", scalar t.fontSize),
   ("fontFamily", uint8 t.fontFamily),
   ("textAlign", named t.textAlign),
   ("verticalAlign", named t.verticalAlign),
   ("containerId", option .string t.containerId),
   ("originalText", .string t.originalText),
   ("lineHeight", scalar t.lineHeight),
   ("autoResize", .bool t.autoResize)]

def Polyline.fields (p : Polyline S) : List (String × Json S) :=
  [("points", list point p.points),
   ("lastCommittedPoint", option point p.lastCommittedPoint),
   ("startBinding", option Binding.toJson p.startBinding),
   ("endBinding", option Binding.toJson p.endBinding),
   ("startArrowhead", option named p.startArrowhead),
   ("endArrowhead", option named p.endArrowhead)]

def Freehand.fields (f : Freehand S) : List (String × Json S) :=
  [("points", list point f.points),
   ("pressures", list scalar f.pressures),
   ("simulatePressure", .bool f.simulatePressure),
   ("lastCommittedPoint", option point f.lastCommittedPoint)]

/-- The fields that only some kinds have. -/
def Shape.fields : Shape S → List (String × Json S)
  | .rectangle | .ellipse | .diamond => []
  | .text body => body.fields
  | .line path | .arrow path => path.fields
  | .freedraw stroke => stroke.fields

/-- The fields that every kind has, after those of the kind. -/
def Element.commonFields (e : Element S) : List (String × Json S) :=
  [("x", scalar e.x),
   ("y", scalar e.y),
   ("width", scalar e.width),
   ("height", scalar e.height),
   ("angle", scalar e.angle),
   ("strokeColor", .string e.strokeColor),
   ("backgroundColor", .string e.backgroundColor),
   ("fillStyle", named e.fillStyle),
   ("strokeWidth", scalar e.strokeWidth),
   ("strokeStyle", named e.strokeStyle),
   ("roughness", uint8 e.roughness),
   ("opacity", uint8 e.opacity),
   ("roundness", option Roundness.toJson e.roundness),
   ("seed", uint32 e.seed),
   ("version", uint32 e.version),
   ("versionNonce", uint32 e.versionNonce),
   ("isDeleted", .bool e.isDeleted),
   ("groupIds", list .string e.groupIds),
   ("frameId", option .string e.frameId),
   ("boundElements", option (list BoundElement.toJson) e.boundElements),
   ("updated", int64 e.updated),
   ("link", option .string e.link),
   ("locked", .bool e.locked)]

def Element.toJson (e : Element S) : Json S :=
  .object (("id", .string e.id) :: ("type", named e.kind) :: (e.shape.fields ++ e.commonFields))

def Canvas.toJson (c : Canvas S) : Json S :=
  .object [("viewBackgroundColor", .string c.background), ("gridSize", option scalar c.gridSize)]

def Document.toJson (d : Document S) : Json S :=
  .object [("type", .string d.format),
    ("version", uint32 d.version),
    ("source", .string d.source),
    ("elements", list Element.toJson d.elements),
    ("appState", d.canvas.toJson),
    ("files", .object d.files)]

end Drawing

end Whiteboard
