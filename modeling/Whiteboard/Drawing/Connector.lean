import Whiteboard.Drawing.Document
import Whiteboard.Drawing.Draft
import Whiteboard.Drawing.Revision

/-!
# Whiteboard — connectors

A connector is a line or an arrow between two elements. It is one straight
segment along the axis on which the centers are farther apart, from the middle of
an edge of the one box to the middle of the facing edge of the other. Connector
and elements know of each other: the connector is bound to both at its ends, and
each of them lists it.
-/

namespace Whiteboard.Drawing

/-- The axis along which a connector runs. -/
inductive Axis where
  | horizontal | vertical
  deriving DecidableEq, Repr

instance : Named Axis where
  members := [.horizontal, .vertical]
  name
    | .horizontal => "horizontal"
    | .vertical => "vertical"

/-- Where a connector runs and what it is bound to. -/
structure Route (S : Type) where
  start : Point S
  finish : Point S
  axis : Axis
  startBinding : Binding S
  endBinding : Binding S
  deriving DecidableEq, Repr

variable {S : Type} [Scalar S]

/-- A binding to the middle of an element, with the usual gap. -/
def bindingTo (elementId : String) : Binding S := ⟨elementId, 0.0, 1.0⟩

/-- The ends and the axis of a connector between two boxes. The horizontal axis
needs the larger distance; coinciding centers join a top to a bottom edge. -/
def anchors (a b : Box S) : Point S × Point S × Axis :=
  let ca := a.center
  let cb := b.center
  let dx := cb.x - ca.x
  let dy := cb.y - ca.y
  if Scalar.abs dy < Scalar.abs dx then
    if 0.0 < dx then (⟨a.right, ca.y⟩, ⟨b.left, cb.y⟩, .horizontal)
    else (⟨a.left, ca.y⟩, ⟨b.right, cb.y⟩, .horizontal)
  else if 0.0 < dy then (⟨ca.x, a.bottom⟩, ⟨cb.x, b.top⟩, .vertical)
  else (⟨ca.x, a.top⟩, ⟨cb.x, b.bottom⟩, .vertical)

/-- The route of a connector from one element to another. -/
def Route.plan (source target : Element S) : Route S :=
  let ends := anchors source.box target.box
  ⟨ends.1, ends.2.1, ends.2.2, bindingTo source.id, bindingTo target.id⟩

/-- How a connector looks. -/
structure ConnectorLook where
  /-- A plain line instead of an arrow. -/
  plain : Bool := false
  dashed : Bool := false
  strokeColor : Option String := none
  deriving DecidableEq, Repr

/-- The kind of element that a connector is. -/
def ConnectorLook.kind (look : ConnectorLook) : Kind := if look.plain then .line else .arrow

/-- The draft of a connector along a route. -/
def Route.draft (route : Route S) (look : ConnectorLook) : Draft S where
  kind := Named.name look.kind
  x := route.start.x
  y := route.start.y
  strokeColor := look.strokeColor
  strokeStyle := if look.dashed then some .dashed else none
  points := some [⟨0.0, 0.0⟩, ⟨route.finish.x - route.start.x, route.finish.y - route.start.y⟩]

variable {G : Type} [IdSource G]

/-- A connector and the two elements that it joins. -/
structure Joined (S : Type) where
  connector : Element S
  source : Element S
  target : Element S
  deriving DecidableEq, Repr

/-- An element with a connector noted, as a change. -/
def Element.noteConnector (now : Int64) (e : Element S) (connectorId : String) (kind : Kind) :
    StateM G (Element S) :=
  (e.addBoundElement connectorId kind).bump now

/-- Binds a line or an arrow to two elements and notes it in both, first in the
source. -/
def bind (now : Int64) (connector source target : Element S) :
    Draws G (Joined S) :=
  if connector.kind.isLinear then do
    let bound := { connector with
      shape := connector.shape.mapPolyline fun path => { path with
        startBinding := some (bindingTo source.id)
        endBinding := some (bindingTo target.id) } }
    let source ← draw (source.noteConnector now connector.id connector.kind)
    let target ← draw (target.noteConnector now connector.id connector.kind)
    return ⟨bound, source, target⟩
  else throw (.notConnector connector.id connector.kind)

/-- A new connector between two elements. -/
def join (now : Int64) (source target : Element S) (look : ConnectorLook) :
    Draws G (Joined S) := do
  let connector ← ((Route.plan source target).draft look).create now
  bind now connector source target

namespace Document

/-- Puts a new connector between two elements on top of a document. -/
def connect (now : Int64) (d : Document S) (source target : String) (look : ConnectorLook) :
    Draws G (String × Document S) :=
  match d.pair source target with
  | .error e => throw e
  | .ok p => do
    let joined ← join now p.firstElement p.secondElement look
    return (joined.connector.id, (p.put joined.source joined.target).push joined.connector)

/-- Binds a connector of the document to two other elements of it. -/
def rebind (now : Int64) (d : Document S) (connector source target : String) :
    Draws G (Element S × Document S) := do
  -- the connector is bound as it was before its ends were changed
  let held ← settle (d.get connector)
  let p ← settle (d.pair source target)
  let joined ← bind now held p.firstElement p.secondElement
  let (_, written) ← settle ((p.put joined.source joined.target).replace joined.connector)
  return (joined.connector, written)

/-- Revises the first element with an id. -/
def revise (now : Int64) (d : Document S) (id : String) (u : Revision S) :
    Draws G (Element S × Document S) := do
  let old ← settle (d.get id)
  let next ← draw (old.update now u)
  let (_, written) ← settle (d.replace next)
  return (next, written)

end Document

end Whiteboard.Drawing
