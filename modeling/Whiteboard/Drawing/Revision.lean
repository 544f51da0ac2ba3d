import Whiteboard.Drawing.Element
import Whiteboard.Drawing.Identity

/-!
# Whiteboard — revisions

A revision names new values for some fields of an element and leaves the others.
Fields that the element's kind does not carry are ignored. Every change of an
element, by a revision or otherwise, ends in `Element.bump`: one version more, a
nonce different from the last, and the time.
-/

namespace Whiteboard.Drawing

/-- New values for fields of an element. `none` leaves a field as it is; where a
field may be empty, `some none` empties it. -/
structure Revision (S : Type) where
  x : Option S := none
  y : Option S := none
  width : Option S := none
  height : Option S := none
  angle : Option S := none
  strokeColor : Option String := none
  backgroundColor : Option String := none
  fillStyle : Option FillStyle := none
  strokeWidth : Option S := none
  strokeStyle : Option StrokeStyle := none
  roughness : Option UInt8 := none
  opacity : Option UInt8 := none
  roundness : Option (Option (Roundness S)) := none
  groupIds : Option (List String) := none
  frameId : Option (Option String) := none
  link : Option (Option String) := none
  locked : Option Bool := none
  isDeleted : Option Bool := none
  text : Option String := none
  fontSize : Option S := none
  fontFamily : Option UInt8 := none
  textAlign : Option TextAlign := none
  verticalAlign : Option VerticalAlign := none
  points : Option (List (Point S)) := none
  startBinding : Option (Option (Binding S)) := none
  endBinding : Option (Option (Binding S)) := none
  startArrowhead : Option (Option Arrowhead) := none
  endArrowhead : Option (Option Arrowhead) := none
  pressures : Option (List S) := none
  deriving DecidableEq, Repr

variable {S : Type}

namespace Revision

/-- A new text is also the text before it was wrapped. -/
def onText (u : Revision S) (body : TextBody S) : TextBody S :=
  { body with
    text := u.text.getD body.text
    originalText := u.text.getD body.originalText
    fontSize := u.fontSize.getD body.fontSize
    fontFamily := u.fontFamily.getD body.fontFamily
    textAlign := u.textAlign.getD body.textAlign
    verticalAlign := u.verticalAlign.getD body.verticalAlign }

def onPolyline (u : Revision S) (path : Polyline S) : Polyline S :=
  { path with
    points := u.points.getD path.points
    startBinding := u.startBinding.getD path.startBinding
    endBinding := u.endBinding.getD path.endBinding
    startArrowhead := u.startArrowhead.getD path.startArrowhead
    endArrowhead := u.endArrowhead.getD path.endArrowhead }

/-- New pressures decide whether pressure is simulated. -/
def onFreehand (u : Revision S) (stroke : Freehand S) : Freehand S :=
  { stroke with
    points := u.points.getD stroke.points
    pressures := u.pressures.getD stroke.pressures
    simulatePressure := (u.pressures.map List.isEmpty).getD stroke.simulatePressure }

def onShape (u : Revision S) : Shape S → Shape S
  | .text body => .text (u.onText body)
  | .line path => .line (u.onPolyline path)
  | .arrow path => .arrow (u.onPolyline path)
  | .freedraw stroke => .freedraw (u.onFreehand stroke)
  | outline => outline

end Revision

namespace Element

/-- The element with the new values of a revision, its history unchanged. -/
def revise (e : Element S) (u : Revision S) : Element S :=
  { e with
    shape := u.onShape e.shape
    x := u.x.getD e.x
    y := u.y.getD e.y
    width := u.width.getD e.width
    height := u.height.getD e.height
    angle := u.angle.getD e.angle
    strokeColor := u.strokeColor.getD e.strokeColor
    backgroundColor := u.backgroundColor.getD e.backgroundColor
    fillStyle := u.fillStyle.getD e.fillStyle
    strokeWidth := u.strokeWidth.getD e.strokeWidth
    strokeStyle := u.strokeStyle.getD e.strokeStyle
    roughness := u.roughness.getD e.roughness
    opacity := u.opacity.getD e.opacity
    roundness := u.roundness.getD e.roundness
    groupIds := u.groupIds.getD e.groupIds
    frameId := u.frameId.getD e.frameId
    link := u.link.getD e.link
    locked := u.locked.getD e.locked
    isDeleted := u.isDeleted.getD e.isDeleted }

/-- The version after a version; the largest one stays. -/
def versionAfter (version : UInt32) : UInt32 :=
  if version = 0xFFFFFFFF then version else version + 1

variable {G : Type} [IdSource G]

/-- A nonce; if the first drawn is the old one, the next. -/
def drawNonce (old : UInt32) : StateM G UInt32 := do
  let nonce ← IdSource.nextNonce
  -- the second draw is taken as it comes
  if nonce = old then IdSource.nextNonce else pure nonce

/-- Marks a change: one version more, another nonce, the time. -/
def bump (now : Int64) (e : Element S) : StateM G (Element S) := do
  let nonce ← drawNonce e.versionNonce
  return { e with version := versionAfter e.version, versionNonce := nonce, updated := now }

/-- The element after a revision. -/
def update (now : Int64) (e : Element S) (u : Revision S) : StateM G (Element S) :=
  (e.revise u).bump now

end Element

end Whiteboard.Drawing
