import Whiteboard.Drawing.Revision

/-!
# Whiteboard — the aspects of an element

A revision has a field for everything that it may say of an element: its *aspects*. All that
a revision does with one of them it does with each, so that it is told once, for any aspect:
which elements have it, what it is in an element, and what a revision says of it.

Main results:

* `Revision.ext_get` — a revision is what it says of every aspect.
* `Element.get?_revise` — of an aspect that an element has, a revision decides if it says
  anything; all others stay as they are.
-/

namespace Whiteboard.Drawing

/-- What a revision may say something of. -/
inductive Aspect where
  | x | y | width | height | angle | strokeColor | backgroundColor | fillStyle | strokeWidth
  | strokeStyle | roughness | opacity | roundness | groupIds | frameId | link | locked
  | isDeleted | text | fontSize | fontFamily | textAlign | verticalAlign | points
  | startBinding | endBinding | startArrowhead | endArrowhead | pressures
  deriving DecidableEq, Repr

/-- What an aspect of an element can be; an option, where it may be nothing. -/
@[reducible]
def Aspect.Value (S : Type) : Aspect → Type
  | .x | .y | .width | .height | .angle | .strokeWidth | .fontSize => S
  | .strokeColor | .backgroundColor | .text => String
  | .fillStyle => FillStyle
  | .strokeStyle => StrokeStyle
  | .roughness | .opacity | .fontFamily => UInt8
  | .roundness => Option (Roundness S)
  | .groupIds => List String
  | .frameId | .link => Option String
  | .locked | .isDeleted => Bool
  | .textAlign => TextAlign
  | .verticalAlign => VerticalAlign
  | .points => List (Point S)
  | .startBinding | .endBinding => Option (Binding S)
  | .startArrowhead | .endArrowhead => Option Arrowhead
  | .pressures => List S

/-- Which kinds of elements have an aspect. -/
def Kind.has (kind : Kind) : Aspect → Bool
  | .text | .fontSize | .fontFamily | .textAlign | .verticalAlign => kind = .text
  | .points => kind.isLinear || kind = .freedraw
  | .startBinding | .endBinding | .startArrowhead | .endArrowhead => kind.isLinear
  | .pressures => kind = .freedraw
  | _ => true

variable {S : Type}

/-! ## Aspects of revisions -/

namespace Revision

/-- What a revision says of an aspect, if anything. -/
def get (u : Revision S) : (a : Aspect) → Option (a.Value S)
  | .x => u.x
  | .y => u.y
  | .width => u.width
  | .height => u.height
  | .angle => u.angle
  | .strokeColor => u.strokeColor
  | .backgroundColor => u.backgroundColor
  | .fillStyle => u.fillStyle
  | .strokeWidth => u.strokeWidth
  | .strokeStyle => u.strokeStyle
  | .roughness => u.roughness
  | .opacity => u.opacity
  | .roundness => u.roundness
  | .groupIds => u.groupIds
  | .frameId => u.frameId
  | .link => u.link
  | .locked => u.locked
  | .isDeleted => u.isDeleted
  | .text => u.text
  | .fontSize => u.fontSize
  | .fontFamily => u.fontFamily
  | .textAlign => u.textAlign
  | .verticalAlign => u.verticalAlign
  | .points => u.points
  | .startBinding => u.startBinding
  | .endBinding => u.endBinding
  | .startArrowhead => u.startArrowhead
  | .endArrowhead => u.endArrowhead
  | .pressures => u.pressures

/-- The revision that says this of every aspect. -/
def of (value? : (a : Aspect) → Option (a.Value S)) : Revision S where
  x := value? .x
  y := value? .y
  width := value? .width
  height := value? .height
  angle := value? .angle
  strokeColor := value? .strokeColor
  backgroundColor := value? .backgroundColor
  fillStyle := value? .fillStyle
  strokeWidth := value? .strokeWidth
  strokeStyle := value? .strokeStyle
  roughness := value? .roughness
  opacity := value? .opacity
  roundness := value? .roundness
  groupIds := value? .groupIds
  frameId := value? .frameId
  link := value? .link
  locked := value? .locked
  isDeleted := value? .isDeleted
  text := value? .text
  fontSize := value? .fontSize
  fontFamily := value? .fontFamily
  textAlign := value? .textAlign
  verticalAlign := value? .verticalAlign
  points := value? .points
  startBinding := value? .startBinding
  endBinding := value? .endBinding
  startArrowhead := value? .startArrowhead
  endArrowhead := value? .endArrowhead
  pressures := value? .pressures

theorem of_get (u : Revision S) : of u.get = u := rfl

@[simp] theorem get_of (value? : (a : Aspect) → Option (a.Value S)) (a : Aspect) :
    (of value?).get a = value? a := by
  cases a <;> rfl

/-- A revision is what it says of every aspect. -/
theorem ext_get {u v : Revision S} (h : ∀ a, u.get a = v.get a) : u = v := by
  rw [← of_get u, ← of_get v, funext h]

end Revision

/-! ## Aspects of elements -/

/-- What only a freehand stroke carries. -/
def Shape.freehand? : Shape S → Option (Freehand S)
  | .freedraw stroke => some stroke
  | _ => none

/-- The points of lines, arrows and freehand strokes. -/
def Shape.points? : Shape S → Option (List (Point S))
  | .line path | .arrow path => some path.points
  | .freedraw stroke => some stroke.points
  | _ => none

namespace Element

/-- What an aspect of an element is, if the element has it. -/
def get? (e : Element S) : (a : Aspect) → Option (a.Value S)
  | .x => some e.x
  | .y => some e.y
  | .width => some e.width
  | .height => some e.height
  | .angle => some e.angle
  | .strokeColor => some e.strokeColor
  | .backgroundColor => some e.backgroundColor
  | .fillStyle => some e.fillStyle
  | .strokeWidth => some e.strokeWidth
  | .strokeStyle => some e.strokeStyle
  | .roughness => some e.roughness
  | .opacity => some e.opacity
  | .roundness => some e.roundness
  | .groupIds => some e.groupIds
  | .frameId => some e.frameId
  | .link => some e.link
  | .locked => some e.locked
  | .isDeleted => some e.isDeleted
  | .text => e.shape.text?.map TextBody.text
  | .fontSize => e.shape.text?.map TextBody.fontSize
  | .fontFamily => e.shape.text?.map TextBody.fontFamily
  | .textAlign => e.shape.text?.map TextBody.textAlign
  | .verticalAlign => e.shape.text?.map TextBody.verticalAlign
  | .points => e.shape.points?
  | .startBinding => e.shape.polyline?.map Polyline.startBinding
  | .endBinding => e.shape.polyline?.map Polyline.endBinding
  | .startArrowhead => e.shape.polyline?.map Polyline.startArrowhead
  | .endArrowhead => e.shape.polyline?.map Polyline.endArrowhead
  | .pressures => e.shape.freehand?.map Freehand.pressures

theorem revise_empty (e : Element S) : e.revise {} = e := by
  have hshape : ({} : Revision S).onShape e.shape = e.shape := by cases e.shape <;> rfl
  rw [revise, hshape]
  rfl

/-- **A revision decides on every aspect that it says anything of**, if the element has it. -/
theorem get?_revise (e : Element S) (u : Revision S) (a : Aspect) :
    (e.revise u).get? a = (e.get? a).map fun old => (u.get a).getD old := by
  unfold revise
  cases a
  case text | fontSize | fontFamily | textAlign | verticalAlign | points | startBinding
      | endBinding | startArrowhead | endArrowhead | pressures =>
    unfold get?
    cases e.shape <;> rfl
  all_goals rfl

end Element

end Whiteboard.Drawing
