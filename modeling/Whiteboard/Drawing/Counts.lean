import Whiteboard.Drawing.Document

/-!
# Whiteboard — what a document holds, in numbers
-/

namespace Whiteboard.Drawing

/-- How many elements a document has, of all kinds and of three groups. -/
structure Counts where
  elements : Nat
  /-- Rectangles, ellipses and diamonds. -/
  shapes : Nat
  texts : Nat
  /-- Lines and arrows. -/
  connectors : Nat
  deriving DecidableEq, Repr

/-- Rectangles, ellipses and diamonds, the kinds that outline a node. -/
def Kind.isOutline : Kind → Bool
  | .rectangle | .ellipse | .diamond => true
  | _ => false

/-- The counts of a document. -/
def Document.counts {S : Type} (d : Document S) : Counts where
  elements := d.size
  shapes := d.elements.countP fun e => e.kind.isOutline
  texts := d.elements.countP fun e => e.kind == .text
  connectors := d.elements.countP fun e => e.kind.isLinear

end Whiteboard.Drawing
