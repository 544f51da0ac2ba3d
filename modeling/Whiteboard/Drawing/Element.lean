import Whiteboard.Drawing.Kind
import Whiteboard.Geometry.Box

/-!
# Whiteboard — elements

An element is a shape with a place, an appearance and a history. What only some
kinds carry — the text of a text, the points of a line — is in its `Shape`, so an
element cannot hold the parts of another kind.
-/

namespace Whiteboard.Drawing

/-- How the corners of an outline are rounded. -/
structure Roundness (S : Type) where
  algorithm : UInt8
  value : Option S
  deriving DecidableEq, Repr

/-- One end of a connector, attached to an element. -/
structure Binding (S : Type) where
  elementId : String
  focus : S
  gap : S
  deriving DecidableEq, Repr

/-- The way back from an element to a connector attached to it. -/
structure BoundElement where
  id : String
  kind : Kind
  deriving DecidableEq, Repr

/-- What a text carries. -/
structure TextBody (S : Type) where
  text : String
  fontSize : S
  fontFamily : UInt8
  textAlign : TextAlign
  verticalAlign : VerticalAlign
  containerId : Option String
  originalText : String
  lineHeight : S
  autoResize : Bool
  deriving DecidableEq, Repr

/-- What lines and arrows carry. Points are relative to the element's place. -/
structure Polyline (S : Type) where
  points : List (Point S)
  lastCommittedPoint : Option (Point S)
  startBinding : Option (Binding S)
  endBinding : Option (Binding S)
  startArrowhead : Option Arrowhead
  endArrowhead : Option Arrowhead
  deriving DecidableEq, Repr

/-- What a freehand stroke carries. -/
structure Freehand (S : Type) where
  points : List (Point S)
  pressures : List S
  simulatePressure : Bool
  lastCommittedPoint : Option (Point S)
  deriving DecidableEq, Repr

/-- A kind of element with what it carries. -/
inductive Shape (S : Type) where
  | rectangle
  | ellipse
  | diamond
  | text (body : TextBody S)
  | line (path : Polyline S)
  | arrow (path : Polyline S)
  | freedraw (stroke : Freehand S)
  deriving DecidableEq, Repr

namespace Shape

variable {S : Type}

def kind : Shape S → Kind
  | .rectangle => .rectangle
  | .ellipse => .ellipse
  | .diamond => .diamond
  | .text _ => .text
  | .line _ => .line
  | .arrow _ => .arrow
  | .freedraw _ => .freedraw

def text? : Shape S → Option (TextBody S)
  | .text body => some body
  | _ => none

def polyline? : Shape S → Option (Polyline S)
  | .line path | .arrow path => some path
  | _ => none

/-- Changes the polyline of a line or an arrow. -/
def mapPolyline (f : Polyline S → Polyline S) : Shape S → Shape S
  | .line path => .line (f path)
  | .arrow path => .arrow (f path)
  | other => other

end Shape

structure Element (S : Type) where
  id : String
  shape : Shape S
  x : S
  y : S
  width : S
  height : S
  /-- Clockwise rotation around the center, in radians. -/
  angle : S
  strokeColor : String
  backgroundColor : String
  fillStyle : FillStyle
  strokeWidth : S
  strokeStyle : StrokeStyle
  roughness : UInt8
  /-- From 0, invisible, to 100, opaque. -/
  opacity : UInt8
  roundness : Option (Roundness S)
  /-- Seed of the hand-drawn look; never changes. -/
  seed : UInt32
  /-- 1 for a new element, and one more after every change. -/
  version : UInt32
  /-- Drawn anew at every change; tells equal versions apart. -/
  versionNonce : UInt32
  isDeleted : Bool
  groupIds : List String
  frameId : Option String
  /-- Connectors attached to the element; `none` until the first one. -/
  boundElements : Option (List BoundElement)
  /-- Time of the last change, in milliseconds since 1970. -/
  updated : Int64
  link : Option String
  locked : Bool
  deriving DecidableEq, Repr

namespace Element

variable {S : Type}

def kind (e : Element S) : Kind := e.shape.kind

def box (e : Element S) : Box S := ⟨e.x, e.y, e.width, e.height⟩

def center [Scalar S] (e : Element S) : Point S := e.box.center

/-- Whether a connector is among those attached to the element. -/
def isBoundTo (e : Element S) (connectorId : String) : Bool :=
  (e.boundElements.getD []).any fun b => b.id == connectorId

/-- Notes a connector as attached, once. -/
def addBoundElement (e : Element S) (connectorId : String) (kind : Kind) : Element S :=
  if e.isBoundTo connectorId then e
  else { e with boundElements := some (e.boundElements.getD [] ++ [⟨connectorId, kind⟩]) }

end Element

end Whiteboard.Drawing
