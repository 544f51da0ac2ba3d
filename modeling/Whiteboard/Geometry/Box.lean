import Whiteboard.Number.Scalar

/-!
# Whiteboard — points and boxes

Points of the plane, with the vertical axis running down, and boxes with sides
along the axes. `Box.around` is the smallest box that holds a list of points.
-/

namespace Whiteboard

structure Point (S : Type) where
  x : S
  y : S
  deriving DecidableEq, Repr

/-- A box with its top-left corner at `x`, `y`. -/
structure Box (S : Type) where
  x : S
  y : S
  width : S
  height : S
  deriving DecidableEq, Repr

variable {S : Type} [Scalar S]

/-- The point halfway between two points. -/
def Point.midpoint (p q : Point S) : Point S :=
  ⟨Scalar.midpoint p.x q.x, Scalar.midpoint p.y q.y⟩

namespace Box

def left (b : Box S) : S := b.x

def right (b : Box S) : S := b.x + b.width

def top (b : Box S) : S := b.y

def bottom (b : Box S) : S := b.y + b.height

def center (b : Box S) : Point S := ⟨b.x + b.width / 2.0, b.y + b.height / 2.0⟩

/-- The smallest box that holds the points; an empty box at the origin for none. -/
def around : List (Point S) → Box S
  | [] => ⟨0.0, 0.0, 0.0, 0.0⟩
  | p :: ps =>
    let minX := ps.foldl (fun m q => Scalar.min m q.x) p.x
    let minY := ps.foldl (fun m q => Scalar.min m q.y) p.y
    let maxX := ps.foldl (fun m q => Scalar.max m q.x) p.x
    let maxY := ps.foldl (fun m q => Scalar.max m q.y) p.y
    ⟨minX, minY, maxX - minX, maxY - minY⟩

end Box

end Whiteboard
