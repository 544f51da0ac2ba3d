import Whiteboard.Chain.Placement
import Whiteboard.Chain.Reading
import Whiteboard.Chain.Theme
import Whiteboard.Drawing.Connector

/-!
# Whiteboard — chain diagrams as documents

`compile` draws a chain diagram. In the order of the source, every node becomes
an outline with its label as a text over it, or a text alone; then every edge
becomes a connector, with its label as a text over its middle. Labels are placed
by their measured size and are not tied to what they label.
-/

namespace Whiteboard.Chain

open Drawing (Canvas ConnectorLook Document Draft Element IdSource defaultFontSize textSize)

/-- What a caller chooses about a drawing. -/
structure Options where
  direction : Direction := .horizontal
  spacing : UInt32 := defaultSpacing
  theme : Theme := .default
  deriving DecidableEq, Repr

variable {S : Type} [Scalar S]

/-! ## Drafts -/

/-- A text of its measured size around a point. -/
def centredText (label : String) (center : Point S) (stroke : String) : Draft S :=
  let size := textSize label (defaultFontSize : S)
  { kind := Named.name Drawing.Kind.text
    x := center.x - size.1 / 2.0
    y := center.y - size.2 / 2.0
    width := some size.1
    height := some size.2
    strokeColor := some stroke
    text := some label
    textAlign := some .center
    verticalAlign := some .middle }

/-- The text that stands for a node without an outline. -/
def bareText (placed : Placed S) (theme : Theme) : Draft S where
  kind := Named.name placed.node.kind.elementKind
  x := placed.x
  y := placed.y
  strokeColor := some theme.stroke
  text := some placed.node.label

/-- The outline of a node with its size. -/
def outline (placed : Placed S) (size : S × S) (theme : Theme) : Draft S where
  kind := Named.name placed.node.kind.elementKind
  x := placed.x
  y := placed.y
  width := some size.1
  height := some size.2
  strokeColor := some theme.stroke
  backgroundColor := some (theme.fill placed.index)

/-- How the connector of an edge looks. -/
def Edge.look (edge : Edge) (theme : Theme) : ConnectorLook where
  plain := edge.style == .line
  dashed := edge.style.isDashed
  strokeColor := some theme.stroke

/-- The middle of a connector, between its place and its last point. -/
def middle? (connector : Element S) : Option (Point S) := do
  let path ← connector.shape.polyline?
  let last ← path.points.getLast?
  return Point.midpoint ⟨connector.x, connector.y⟩ ⟨connector.x + last.x, connector.y + last.y⟩

/-! ## Drawing -/

/-- Work on a document that draws identities and may fail. -/
abbrev Work (G : Type) (α : Type) := ExceptT Error (StateM G) α

variable {G : Type} [IdSource G]

/-- Work of the drawing library. -/
def onDrawing {α : Type} (act : Drawing.Draws G α) : Work G α :=
  ExceptT.mk do
    match ← act.run with
    | .ok a => return .ok a
    | .error e => return .error (.drawing e)

/-- Puts the elements of a node on top. The id is the one that edges attach to. -/
def addNode (now : Int64) (theme : Theme) (d : Document S) (placed : Placed S) :
    Work G (String × Document S) :=
  match (placed.node.kind.size? : Option (S × S)) with
  | none => do
    let text ← onDrawing ((bareText placed theme).create now)
    return (text.id, d.push text)
  | some size => do
    let shape ← onDrawing ((outline placed size theme).create now)
    let label ← onDrawing ((centredText placed.node.label shape.center theme.stroke).create now)
    return (shape.id, (d.push shape).push label)

/-- Puts the elements of every node on top, and lists the ids that edges attach to. -/
def addNodes (now : Int64) (theme : Theme) (d : Document S) :
    List (Placed S) → Work G (List String × Document S)
  | [] => return ([], d)
  | placed :: rest => do
    let (id, d) ← addNode now theme d placed
    let (ids, d) ← addNodes now theme d rest
    return (id :: ids, d)

/-- Puts the label of a connector over its middle. -/
def addLabel (now : Int64) (theme : Theme) (d : Document S) (connectorId label : String) :
    Work G (Document S) :=
  match (d.get? connectorId).bind middle? with
  | none => throw (.drawing (.elementNotFound connectorId))
  | some center => do
    let text ← onDrawing ((centredText label center theme.stroke).create now)
    return d.push text

/-- Puts the elements of an edge on top. -/
def addEdge (now : Int64) (theme : Theme) (ids : List String) (d : Document S) (edge : Edge) :
    Work G (Document S) :=
  match ids[edge.source]?, ids[edge.target]? with
  | some source, some target => do
    let (connectorId, d) ← onDrawing (d.connect now source target (edge.look theme))
    match edge.label with
    | none => return d
    | some label => addLabel now theme d connectorId label
  | _, _ => throw (.missingNode edge.source edge.target)

/-- A document without elements on the canvas of a theme. -/
def emptyDocument (theme : Theme) : Document S :=
  match theme.background? with
  | none => .empty
  | some background => { Document.empty with canvas := { Canvas.blank with background } }

/-- Draws a diagram. -/
def draw (now : Int64) (options : Options) (diagram : Diagram) : Work G (Document S) := do
  let placed := layout options.direction options.spacing diagram.nodes
  let (ids, d) ← addNodes now options.theme (emptyDocument options.theme) placed
  diagram.edges.foldlM (addEdge now options.theme ids) d

/-- Draws the diagram that a source describes. -/
def compile (now : Int64) (options : Options) (source : String) : Work G (Document S) :=
  match Diagram.read source with
  | .error e => throw e
  | .ok diagram => draw now options diagram

end Whiteboard.Chain
