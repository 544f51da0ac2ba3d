/-!
# Whiteboard — closed sets of names

A document spells the kinds of elements, their fills, strokes, alignments and
arrowheads by fixed names. Each such set is an inductive type with an instance
of `Named`, which lists its members and their names; `Named.ofName?` finds a
member by its exact name.
-/

namespace Whiteboard

/-- A closed set whose members have names. -/
class Named (α : Type) where
  /-- Every member, in the order in which names are looked up. -/
  members : List α
  name : α → String

/-- The member with exactly this name. -/
def Named.ofName? {α : Type} [Named α] (s : String) : Option α :=
  (Named.members (α := α)).find? fun a => Named.name a == s

namespace Drawing

/-- Every kind of element that a document may hold. Drafts exist for the first
seven; the others occur in documents from elsewhere. -/
inductive Kind where
  | rectangle | ellipse | diamond | text | line | arrow | freedraw
  | image | frame | magicFrame | embeddable | iframe | selection
  deriving DecidableEq, Repr

instance : Named Kind where
  members := [.rectangle, .ellipse, .diamond, .text, .line, .arrow, .freedraw, .image,
    .frame, .magicFrame, .embeddable, .iframe, .selection]
  name
    | .rectangle => "rectangle"
    | .ellipse => "ellipse"
    | .diamond => "diamond"
    | .text => "text"
    | .line => "line"
    | .arrow => "arrow"
    | .freedraw => "freedraw"
    | .image => "image"
    | .frame => "frame"
    | .magicFrame => "magicframe"
    | .embeddable => "embeddable"
    | .iframe => "iframe"
    | .selection => "selection"

/-- Lines and arrows, the kinds that connect elements. -/
def Kind.isLinear : Kind → Bool
  | .line | .arrow => true
  | _ => false

/-- How the inside of a shape is filled. -/
inductive FillStyle where
  | hachure | crossHatch | solid | zigzag
  deriving DecidableEq, Repr

instance : Named FillStyle where
  members := [.hachure, .crossHatch, .solid, .zigzag]
  name
    | .hachure => "hachure"
    | .crossHatch => "cross-hatch"
    | .solid => "solid"
    | .zigzag => "zigzag"

/-- How an outline is drawn. -/
inductive StrokeStyle where
  | solid | dashed | dotted
  deriving DecidableEq, Repr

instance : Named StrokeStyle where
  members := [.solid, .dashed, .dotted]
  name
    | .solid => "solid"
    | .dashed => "dashed"
    | .dotted => "dotted"

/-- Horizontal alignment of text. -/
inductive TextAlign where
  | left | center | right
  deriving DecidableEq, Repr

instance : Named TextAlign where
  members := [.left, .center, .right]
  name
    | .left => "left"
    | .center => "center"
    | .right => "right"

/-- Vertical alignment of text. -/
inductive VerticalAlign where
  | top | middle | bottom
  deriving DecidableEq, Repr

instance : Named VerticalAlign where
  members := [.top, .middle, .bottom]
  name
    | .top => "top"
    | .middle => "middle"
    | .bottom => "bottom"

/-- Decoration at an end of a line or an arrow. -/
inductive Arrowhead where
  | arrow | bar | dot | triangle | circle | circleOutline | triangleOutline
  | diamond | diamondOutline
  deriving DecidableEq, Repr

instance : Named Arrowhead where
  members := [.arrow, .bar, .dot, .triangle, .circle, .circleOutline, .triangleOutline,
    .diamond, .diamondOutline]
  name
    | .arrow => "arrow"
    | .bar => "bar"
    | .dot => "dot"
    | .triangle => "triangle"
    | .circle => "circle"
    | .circleOutline => "circle_outline"
    | .triangleOutline => "triangle_outline"
    | .diamond => "diamond"
    | .diamondOutline => "diamond_outline"

end Drawing

end Whiteboard
