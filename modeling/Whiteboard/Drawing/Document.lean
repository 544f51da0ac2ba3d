import Whiteboard.Drawing.Element
import Whiteboard.Drawing.Error
import Whiteboard.Json.Value

/-!
# Whiteboard — documents

A document owns elements in stacking order, the lowest first. Ids are looked up
from the bottom: where two elements carry one id, the first counts.
-/

namespace Whiteboard.Drawing

/-- What a viewer keeps beside the elements. -/
structure Canvas (S : Type) where
  background : String
  gridSize : Option S
  deriving DecidableEq, Repr

/-- The canvas of a new document. -/
def Canvas.blank {S : Type} : Canvas S := ⟨"#ffffff", none⟩

structure Document (S : Type) where
  format : String
  version : UInt32
  source : String
  elements : List (Element S)
  canvas : Canvas S
  /-- Attached files by name, which are kept as they are. -/
  files : List (String × Json S)

/-- The format that documents are written in. -/
def formatTag : String := "excalidraw"

/-- The version of the format that documents are written in. -/
def formatVersion : UInt32 := 2

/-- The program that documents name as their source. -/
def programName : String := "sketchc"

namespace Document

variable {S : Type}

/-- A document without elements. -/
def empty : Document S := ⟨formatTag, formatVersion, programName, [], .blank, []⟩

/-- Puts an element on top. -/
def push (d : Document S) (e : Element S) : Document S :=
  { d with elements := d.elements ++ [e] }

/-- How many elements there are, those marked as deleted included. -/
def size (d : Document S) : Nat := d.elements.length

/-- The place of the first element with this id. -/
def place? (d : Document S) (id : String) : Option (Fin d.elements.length) :=
  d.elements.findFinIdx? fun e => e.id == id

/-- The first element with this id. -/
def get? (d : Document S) (id : String) : Option (Element S) :=
  d.elements.find? fun e => e.id == id

/-- The first element with this id, or the reason why there is none. -/
def get (d : Document S) (id : String) : Except Error (Element S) :=
  match d.get? id with
  | some e => .ok e
  | none => .error (.elementNotFound id)

/-- Puts an element into a place. -/
def setAt (d : Document S) (place : Fin d.elements.length) (e : Element S) : Document S :=
  { d with elements := d.elements.set place e }

/-- The element that `e` replaces, which is the first with its id, and the
document with `e` in its place. -/
def replace (d : Document S) (e : Element S) : Except Error (Element S × Document S) :=
  match d.place? e.id with
  | some place => .ok (d.elements.get place, d.setAt place e)
  | none => .error (.elementNotFound e.id)

/-- The first item with a property, and the list with another item in its stead. -/
def openFirst? {α : Type} (p : α → Bool) : List α → Option (α × (α → List α))
  | [] => none
  | a :: as =>
    if p a then some (a, fun new => new :: as)
    else (openFirst? p as).map fun (found, put) => (found, fun new => a :: put new)

/-- An element that is changed where it stands. -/
structure Slot (S : Type) where
  element : Element S
  /-- The document with another element in its stead. -/
  put : Element S → Document S

/-- The first element with this id, to be changed where it stands. -/
def slot? (d : Document S) (id : String) : Option (Slot S) :=
  (openFirst? (fun e => e.id == id) d.elements).map fun (e, put) =>
    ⟨e, fun new => { d with elements := put new }⟩

/-- Two different places of a document. -/
structure Pair (d : Document S) where
  first : Fin d.elements.length
  second : Fin d.elements.length
  distinct : first ≠ second

namespace Pair

variable {d : Document S}

def firstElement (p : d.Pair) : Element S := d.elements.get p.first

def secondElement (p : d.Pair) : Element S := d.elements.get p.second

/-- The document with two elements in the places of the pair. -/
def put (p : d.Pair) (first second : Element S) : Document S :=
  { d with elements := (d.elements.set p.first first).set p.second second }

end Pair

/-- The places of two ids, in the order asked for. -/
def pair (d : Document S) (first second : String) : Except Error d.Pair :=
  match d.place? first with
  | none => .error (.elementNotFound first)
  | some i =>
    match d.place? second with
    | none => .error (.elementNotFound second)
    | some j => if h : i = j then .error (.selfConnection first) else .ok ⟨i, j, h⟩

/-- Two elements that are changed where they stand. -/
structure Slots (S : Type) where
  first : Element S
  second : Element S
  /-- The document with two other elements in their stead. -/
  put : Element S → Element S → Document S

/-- The items at two places, the earlier one first, in a list that is cut before the later
one; and the list with two others in their stead. -/
def cutBefore {α : Type} (as : List α) (i j : Fin as.length) (h : i < j) :
    α × α × (α → α → List α) :=
  let lower := as.take j
  let upper := as.drop j
  have hlower : i < lower.length := by
    rw [List.length_take]
    exact Nat.lt_min.mpr ⟨h, i.isLt⟩
  have hupper : 0 < upper.length := by
    rw [List.length_drop]
    exact Nat.sub_pos_of_lt j.isLt
  (lower.get ⟨i, hlower⟩, upper.get ⟨0, hupper⟩, fun a b => lower.set i a ++ upper.set 0 b)

/-- The elements with two ids, in the order asked for, to be changed where they stand. -/
def slots (d : Document S) (first second : String) : Except Error (Slots S) :=
  match d.pair first second with
  | .error e => .error e
  | .ok p =>
    if h : p.first < p.second then
      let (a, b, put) := cutBefore d.elements p.first p.second h
      .ok ⟨a, b, fun a b => { d with elements := put a b }⟩
    else
      let (b, a, put) := cutBefore d.elements p.second p.first
        (Std.lt_of_le_of_ne (Std.not_lt.mp h) p.distinct.symm)
      .ok ⟨a, b, fun a b => { d with elements := put b a }⟩

/-- The elements that are not marked as deleted. -/
def live (d : Document S) : List (Element S) := d.elements.filter fun e => !e.isDeleted

end Document

end Whiteboard.Drawing
