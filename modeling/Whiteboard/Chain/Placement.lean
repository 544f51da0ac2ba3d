import Whiteboard.Chain.Diagram
import Whiteboard.Chain.Error
import Whiteboard.Number.Scalar
import Whiteboard.Text.Blank

/-!
# Whiteboard — placement of nodes

The nodes of a chain stand in order along one axis, at a fixed pitch plus the
spacing that the caller asks for. The pitch is at least the extent of every
outlined node, so they never overlap.
-/

namespace Whiteboard.Chain

/-- The axis along which a chain runs. -/
inductive Direction where
  | horizontal | vertical
  deriving DecidableEq, Repr

instance : Named Direction where
  members := [.horizontal, .vertical]
  name
    | .horizontal => "horizontal"
    | .vertical => "vertical"

/-- A direction by a name that a user gives. -/
def Direction.ofUserName (s : String) : Except Error Direction :=
  if ["horizontal", "h", "lr"].contains (Text.folded s) then .ok .horizontal
  else if ["vertical", "v", "tb"].contains (Text.folded s) then .ok .vertical
  else .error (.unknownDirection (Text.folded s))

/-- Spacing between nodes where none is asked for. -/
def defaultSpacing : UInt32 := 50

variable {S : Type} [Scalar S]

/-- Where the first node stands, on either axis. -/
def origin : S := 100.0

/-- Distance between the origins of neighbours, without the spacing. -/
def Direction.pitch : Direction → S
  | .horizontal => 150.0
  | .vertical => 80.0

/-- Width and height of the outline of a node; a bare label has none of its own. -/
def NodeKind.size? : NodeKind → Option (S × S)
  | .rectangle | .ellipse => some (150.0, 60.0)
  | .diamond => some (120.0, 80.0)
  | .textOnly => none

/-- A node with its place in the row and its top-left corner. -/
structure Placed (S : Type) where
  index : Nat
  node : Node
  x : S
  y : S

/-- How far along the axis the node at `index` stands. -/
def offset (direction : Direction) (spacing : UInt32) (index : Nat) : S :=
  Scalar.ofNat index * (direction.pitch + Scalar.ofNat spacing.toNat)

/-- The node at `index` of a row. -/
def place (direction : Direction) (spacing : UInt32) (node : Node) (index : Nat) : Placed S :=
  match direction with
  | .horizontal => ⟨index, node, origin + offset direction spacing index, origin⟩
  | .vertical => ⟨index, node, origin, origin + offset direction spacing index⟩

/-- Every node of a row at its place. -/
def layout (direction : Direction) (spacing : UInt32) (nodes : List Node) : List (Placed S) :=
  nodes.zipIdx.map fun (node, index) => place direction spacing node index

end Whiteboard.Chain
