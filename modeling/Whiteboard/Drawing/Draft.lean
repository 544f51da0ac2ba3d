import Whiteboard.Drawing.Element
import Whiteboard.Drawing.Identity
import Whiteboard.Drawing.TextSize

/-!
# Whiteboard — drafts

A draft says what an element shall be; whatever it leaves open takes a default,
which for some fields depends on the kind. `Draft.create` makes the element:

* it draws an id unless the draft names one, then a seed, then a nonce;
* lines, arrows and freehand strokes are as large as their points, and a text is
  measured where the draft does not give its size.
-/

namespace Whiteboard.Drawing

/-- A description of an element to create. `none` leaves a field open; for the
rounding and the arrowheads `some none` asks for none at all. -/
structure Draft (S : Type) where
  kind : String
  id : Option String := none
  x : S
  y : S
  width : Option S := none
  height : Option S := none
  angle : Option S := none
  strokeColor : Option String := none
  backgroundColor : Option String := none
  fillStyle : Option FillStyle := none
  strokeWidth : Option S := none
  strokeStyle : Option StrokeStyle := none
  roughness : Option UInt8 := none
  opacity : Option UInt8 := none
  roundness : Option (Option (Roundness S)) := none
  groupIds : Option (List String) := none
  frameId : Option String := none
  link : Option String := none
  locked : Option Bool := none
  text : Option String := none
  fontSize : Option S := none
  fontFamily : Option UInt8 := none
  textAlign : Option TextAlign := none
  verticalAlign : Option VerticalAlign := none
  points : Option (List (Point S)) := none
  startArrowhead : Option (Option Arrowhead) := none
  endArrowhead : Option (Option Arrowhead) := none
  pressures : Option (List S) := none
  deriving DecidableEq, Repr

variable {S : Type} [Scalar S]

/-! ## Defaults -/

def defaultStrokeColor : String := "#1e1e1e"

def defaultBackgroundColor : String := "transparent"

def defaultStrokeWidth : S := 2.0

def defaultRoughness : UInt8 := 1

def maxOpacity : UInt8 := 100

/-- Width and height of an outline. -/
def defaultSize : S := 100.0

/-- Length of a line or an arrow. -/
def defaultLength : S := 100.0

/-- Lines and strokes are at least this wide and high. -/
def minExtent : S := 1.0

def defaultFontSize : S := 20.0

/-- The hand-drawn face. -/
def defaultFontFamily : UInt8 := 1

/-- The rounding of the corners of each kind. -/
def defaultRoundness : Shape S → Option (Roundness S)
  | .rectangle | .diamond => some ⟨3, none⟩
  | .line _ | .arrow _ => some ⟨2, none⟩
  | _ => none

namespace Draft

/-! ## Shapes -/

/-- The text that a draft describes. -/
def textBody (d : Draft S) : TextBody S where
  text := d.text.getD ""
  fontSize := d.fontSize.getD defaultFontSize
  fontFamily := d.fontFamily.getD defaultFontFamily
  textAlign := d.textAlign.getD .left
  verticalAlign := d.verticalAlign.getD .top
  containerId := none
  originalText := d.text.getD ""
  lineHeight := lineHeight
  autoResize := true

/-- The polyline that a draft describes, with an arrowhead at its end by default
or without. -/
def polyline (d : Draft S) (endArrowhead : Option Arrowhead) : Polyline S where
  points := d.points.getD [⟨0.0, 0.0⟩, ⟨defaultLength, 0.0⟩]
  lastCommittedPoint := none
  startBinding := none
  endBinding := none
  startArrowhead := d.startArrowhead.getD none
  endArrowhead := d.endArrowhead.getD endArrowhead

/-- The freehand stroke that a draft describes; pressure is simulated where none
is given. -/
def freehand (d : Draft S) : Freehand S where
  points := d.points.getD [⟨0.0, 0.0⟩]
  pressures := d.pressures.getD []
  simulatePressure := (d.pressures.getD []).isEmpty
  lastCommittedPoint := none

/-- The shape that a draft describes, if its kind can be drafted. -/
def shape? (d : Draft S) : Option (Shape S) :=
  match (Named.ofName? d.kind : Option Kind) with
  | some .rectangle => some .rectangle
  | some .ellipse => some .ellipse
  | some .diamond => some .diamond
  | some .text => some (.text d.textBody)
  | some .line => some (.line (d.polyline none))
  | some .arrow => some (.arrow (d.polyline (some .arrow)))
  | some .freedraw => some (.freedraw d.freehand)
  | some .image | some .frame | some .magicFrame | some .embeddable | some .iframe
  | some .selection | none => none

/-! ## Sizes -/

/-- The extent of points, which never collapses. -/
def extent (points : List (Point S)) : S × S :=
  let box := Box.around points
  (Scalar.max box.width minExtent, Scalar.max box.height minExtent)

/-- The size of a shape; explicit sizes count for outlines and texts only. -/
def size (d : Draft S) : Shape S → S × S
  | .rectangle | .ellipse | .diamond => (d.width.getD defaultSize, d.height.getD defaultSize)
  | .text body =>
    let measured := textSize body.text body.fontSize
    (d.width.getD measured.1, d.height.getD measured.2)
  | .line path | .arrow path => extent path.points
  | .freedraw stroke => extent stroke.points

/-! ## Creation -/

/-- The element that a draft describes, with its identity and the time. -/
def element (d : Draft S) (shape : Shape S) (id : String) (seed nonce : UInt32) (now : Int64) :
    Element S where
  id := id
  shape := shape
  x := d.x
  y := d.y
  width := (d.size shape).1
  height := (d.size shape).2
  angle := d.angle.getD 0.0
  strokeColor := d.strokeColor.getD defaultStrokeColor
  backgroundColor := d.backgroundColor.getD defaultBackgroundColor
  fillStyle := d.fillStyle.getD .solid
  strokeWidth := d.strokeWidth.getD defaultStrokeWidth
  strokeStyle := d.strokeStyle.getD .solid
  roughness := d.roughness.getD defaultRoughness
  opacity := min (d.opacity.getD maxOpacity) maxOpacity
  roundness := d.roundness.getD (defaultRoundness shape)
  seed := seed
  version := 1
  versionNonce := nonce
  isDeleted := false
  groupIds := d.groupIds.getD []
  frameId := d.frameId
  boundElements := none
  updated := now
  link := d.link
  locked := d.locked.getD false

/-- The draft's own id, or a fresh one. -/
def drawId {G : Type} [IdSource G] (d : Draft S) : StateM G String :=
  match d.id with
  | some id => pure id
  | none => IdSource.nextId

/-- The element that a draft describes. A draft of no known kind draws nothing. -/
def create {G : Type} [IdSource G] (now : Int64) (d : Draft S) :
    Draws G (Element S) :=
  match d.shape? with
  | none => throw (.unknownKind d.kind)
  | some shape => do
    let id ← draw d.drawId
    let seed ← draw IdSource.nextSeed
    let nonce ← draw IdSource.nextNonce
    return d.element shape id seed nonce now

end Draft

end Whiteboard.Drawing
