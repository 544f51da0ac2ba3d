import Whiteboard.Chain.Error
import Whiteboard.Text.Blank

/-!
# Whiteboard — colour themes

A theme colours the drawing of a diagram: a palette of fills that the nodes take
in turn, one stroke colour for everything, and for one theme a canvas colour.
-/

namespace Whiteboard.Chain

/-- The themes that a diagram can be drawn in. -/
inductive Theme where
  | default | pastel | monochrome | blueprint
  deriving DecidableEq, Repr

instance : Named Theme where
  members := [.default, .pastel, .monochrome, .blueprint]
  name
    | .default => "default"
    | .pastel => "pastel"
    | .monochrome => "monochrome"
    | .blueprint => "blueprint"

namespace Theme

/-- A theme by the name that a user gives. -/
def ofUserName (s : String) : Except Error Theme :=
  match Named.ofName? (Text.folded s) with
  | some theme => .ok theme
  | none => .error (.unknownTheme (Text.folded s))

/-- The first fill of the palette. -/
def firstFill : Theme → String
  | .default => "#a5d8ff"
  | .pastel => "#fce4ec"
  | .monochrome => "#ffffff"
  | .blueprint => "#1c7ed6"

/-- The other fills of the palette. -/
def otherFills : Theme → List String
  | .default => ["#b2f2bb", "#ffec99", "#ffc9c9", "#d0bfff"]
  | .pastel => ["#e3f2fd", "#e8f5e9", "#fff3e0", "#f3e5f5"]
  | .monochrome => ["#e9ecef", "#ced4da"]
  | .blueprint => ["#1971c2", "#1864ab"]

/-- The fills, of which there is always one. -/
def palette (t : Theme) : List String := t.firstFill :: t.otherFills

/-- The colour of outlines, labels and connectors. -/
def stroke : Theme → String
  | .default => "#1e1e1e"
  | .pastel => "#495057"
  | .monochrome => "#000000"
  | .blueprint => "#ffffff"

/-- The colour of the canvas, where the theme sets one. -/
def background? : Theme → Option String
  | .blueprint => some "#0b3d91"
  | _ => none

theorem index_lt_length (t : Theme) (index : Nat) :
    index % t.palette.length < t.palette.length :=
  Nat.mod_lt _ (by simp [palette])

/-- The fill of the node at `index`; the palette starts over at its end. -/
def fill (t : Theme) (index : Nat) : String :=
  t.palette.get ⟨index % t.palette.length, t.index_lt_length index⟩

end Theme

end Whiteboard.Chain
