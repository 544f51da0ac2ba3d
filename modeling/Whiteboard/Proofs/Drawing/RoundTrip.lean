import Mathlib
import Whiteboard.Proofs.Drawing.Decoded
import Whiteboard.Proofs.Drawing.Decoding
import Whiteboard.Proofs.Json.Reading
import Whiteboard.Proofs.Number.Tenths

/-!
# Whiteboard — documents survive being written and read

What is written is read back, in either layout, whatever the kinds of the elements and
whichever of their fields are missing: with its numbers read again, and so as it was if the
reader is exact. A text from elsewhere may be read to a document
that is written differently — as arrays, or with fields that no record has — but once
read, the document is the same from one writing to the next, and so are its texts.

Main results:

* `Element.read?_toJson`, `Document.read?_toJson` — what is written is read back.
* `Document.isFinite_of_read?` — what is read from any text can be written.
* `read?_written` — both together, and what follows for texts that are read and written
  over and over.
-/

namespace Whiteboard.Drawing

open Relation (TransGen)

variable {S : Type} [Scalar S] [Numeral S]

/-! ## Reading what was written -/

section

variable [LawfulNumeral S]

/-- What is decoded from the tree of an element is read from both of its texts. -/
theorem Element.read?_bind {α : Type} {decode? : Tree → Option α} {a : α} (e : Element S)
    (h : decode? e.toJson.tree = some a) :
    (Tree.read? e.toJson.compact).bind decode? = some a ∧
      (Tree.read? e.toJson.pretty).bind decode? = some a := by
  rw [Json.read?_compact e.inRange_toJson, Json.read?_pretty e.inRange_toJson]
  exact ⟨h, h⟩

/-- An element is read back from both of its texts, its numbers read again. -/
theorem Element.read?_toJson {e : Element S} (h : e.IsFinite) :
    Element.read? e.toJson.compact = some e.reread ∧
      Element.read? e.toJson.pretty = some e.reread :=
  e.read?_bind (Element.decode?_tree h (by decide))

/-- A document is read back from both of its texts, its numbers read again, if a reader follows
it to its deepest level. -/
theorem Document.read?_toJson {d : Document S} (h : d.IsFinite)
    (horder : (Json.object d.files).Ordered) (hdepth : d.toJson.depth ≤ Tree.nestingLimit) :
    Document.read? d.toJson.compact = some d.reread ∧
      Document.read? d.toJson.pretty = some d.reread := by
  have hdecode : Document.decode? (126 + 1) d.toJson.tree = some d.reread :=
    Document.decode?_tree h horder (by decide) hdepth
  have hrange := Document.inRange_toJson h.files
  constructor
  · rw [Document.read?, Json.read?_compact hrange, Option.bind_some, Tree.nestingLimit, hdecode]
  · rw [Document.read?, Json.read?_pretty hrange, Option.bind_some, Tree.nestingLimit, hdecode]

/-! ## Writing what was read -/

/-- What is read from a text has all that it takes to be read back. -/
theorem Document.isFinite_of_read? {text : String} {d : Document S}
    (h : Document.read? text = some d) :
    d.IsFinite ∧ (Json.object d.files).Ordered ∧ d.toJson.depth ≤ Tree.nestingLimit := by
  obtain ⟨t, -, ht⟩ := Option.bind_eq_some_iff.mp h
  have hdecode : Document.decode? (126 + 1) t = some d := ht
  obtain ⟨hfinite, hreadable⟩ := Document.isFinite_of_decode? hdecode (by decide)
  have hdepth : d.toJson.depth ≤ 126 + 1 :=
    (Document.depth_toJson_le_iff (by decide)).mpr hreadable.depth_le
  exact ⟨hfinite, hreadable.ordered, hdepth⟩

end

/-- A text is read, and the document is written in either layout. -/
def Rewrites (S : Type) [Scalar S] [Numeral S] (text text' : String) : Prop :=
  ∃ d : Document S, Document.read? text = some d ∧
    (text' = d.toJson.compact ∨ text' = d.toJson.pretty)

/-! ## Exact readers -/

variable [ExactNumeral S]

/-- Where reading is exact, what was read from a text is read back from both of its own. -/
theorem Document.read?_toJson_of_read? {text : String} {d : Document S}
    (h : Document.read? text = some d) :
    Document.read? d.toJson.compact = some d ∧ Document.read? d.toJson.pretty = some d := by
  obtain ⟨hfinite, horder, hdepth⟩ := Document.isFinite_of_read? h
  have hread := Document.read?_toJson hfinite horder hdepth
  rwa [Document.reread_eq hfinite] at hread

/-- Reading and writing any number of times leads to one of two texts. -/
theorem eq_of_transGen_rewrites {text text' : String} {d : Document S}
    (h : Document.read? text = some d) (hpath : TransGen (Rewrites S) text text') :
    text' = d.toJson.compact ∨ text' = d.toJson.pretty := by
  have hread := Document.read?_toJson_of_read? h
  -- every text on the way is one of the two, and both are read as the document
  induction hpath with
  | single hstep =>
    obtain ⟨d', hd', htext⟩ := hstep
    obtain rfl := Option.some.inj (h.symm.trans hd')
    exact htext
  | tail _ hstep ih =>
    obtain ⟨d', hd', htext⟩ := hstep
    have hmiddle : d' = d := by
      rcases ih with rfl | rfl
      · exact Option.some.inj (hd'.symm.trans hread.1)
      · exact Option.some.inj (hd'.symm.trans hread.2)
    rwa [hmiddle] at htext

/-- **Documents survive being written and read**, where numbers do. An element of finite numbers,
and a document of finite numbers whose files are in order and which nests no deeper than a
reader follows, are read back from both of their texts. Any text that is read as a
document at all is read as one of these, and however often the document is then written
and read again, its text is one of the same two. -/
theorem read?_written :
    (∀ e : Element S, e.IsFinite →
      Element.read? e.toJson.compact = some e ∧ Element.read? e.toJson.pretty = some e) ∧
    (∀ d : Document S, d.IsFinite → (Json.object d.files).Ordered →
      d.toJson.depth ≤ Tree.nestingLimit →
      Document.read? d.toJson.compact = some d ∧ Document.read? d.toJson.pretty = some d) ∧
    ∀ (text : String) (d : Document S), Document.read? text = some d →
      Document.read? d.toJson.compact = some d ∧ Document.read? d.toJson.pretty = some d ∧
      ∀ text', TransGen (Rewrites S) text text' →
        text' = d.toJson.compact ∨ text' = d.toJson.pretty := by
  refine ⟨fun e he => ?_, fun d hfinite horder hdepth => ?_, fun text d h => ?_⟩
  · have hread := Element.read?_toJson he
    rwa [Element.reread_eq he] at hread
  · have hread := Document.read?_toJson hfinite horder hdepth
    rwa [Document.reread_eq hfinite] at hread
  · obtain ⟨hcompact, hpretty⟩ := Document.read?_toJson_of_read? h
    exact ⟨hcompact, hpretty, fun text' hpath => eq_of_transGen_rewrites h hpath⟩

/-! ## In tenths -/

/-- An arrow with a bend that is bound at its start. -/
def bentArrow : Element Tenths where
  id := "a\"\n1"
  shape := .arrow {
    points := [⟨⟨0⟩, ⟨0⟩⟩, ⟨⟨-125⟩, ⟨305⟩⟩, ⟨⟨7⟩, ⟨400⟩⟩]
    lastCommittedPoint := some ⟨⟨7⟩, ⟨400⟩⟩
    startBinding := some ⟨"b", ⟨-1⟩, ⟨80⟩⟩
    endBinding := none
    startArrowhead := none
    endArrowhead := some .triangleOutline }
  x := ⟨1000⟩
  y := ⟨-3⟩
  width := ⟨132⟩
  height := ⟨400⟩
  angle := ⟨0⟩
  strokeColor := "#1e1e1e"
  backgroundColor := "transparent"
  fillStyle := .crossHatch
  strokeWidth := ⟨20⟩
  strokeStyle := .dashed
  roughness := 1
  opacity := 100
  roundness := some ⟨2, none⟩
  seed := 4294967295
  version := 3
  versionNonce := 0
  isDeleted := false
  groupIds := ["g", "é"]
  frameId := none
  boundElements := some [⟨"t", .text⟩]
  updated := -1
  link := some ""
  locked := true

/-- A document with an arrow, a grid and two files. -/
def sketch : Document Tenths where
  format := formatTag
  version := 2
  source := "elsewhere"
  elements := [bentArrow]
  canvas := ⟨"#ffffff", some ⟨200⟩⟩
  files := [("a", .array [.number (.int (-7)), .number (.real ⟨15⟩), .null]), ("b", .object [])]

/-- A text that says less than a document holds, and something that none does. -/
def looseText : String :=
  "\x7b\"version\":2,\"extra\":[-1],\"type\":\"excalidraw\"," ++
    "\"elements\":[],\"appState\":[\"#fff\",20]\x7d"

/-- What the loose text says. -/
def looseDocument : Document Tenths where
  format := formatTag
  version := 2
  source := ""
  elements := []
  canvas := ⟨"#fff", some ⟨200⟩⟩
  files := []

theorem read?_written_of_tenths :
    (bentArrow.IsFinite ∧ Element.read? bentArrow.toJson.compact = some bentArrow ∧
      Element.read? bentArrow.toJson.pretty = some bentArrow) ∧
    (sketch.IsFinite ∧ (Json.object sketch.files).Ordered ∧
      sketch.toJson.depth ≤ Tree.nestingLimit ∧
      Document.read? sketch.toJson.compact = some sketch ∧
      Document.read? sketch.toJson.pretty = some sketch) ∧
    Document.read? looseText = some looseDocument ∧
      Document.read? looseDocument.toJson.compact = some looseDocument ∧
      TransGen (Rewrites Tenths) looseText looseDocument.toJson.pretty ∧
      ∀ text', TransGen (Rewrites Tenths) looseText text' →
        text' = looseDocument.toJson.compact ∨ text' = looseDocument.toJson.pretty := by
  obtain ⟨helement, hdocument, htext⟩ := read?_written (S := Tenths)
  have hfinite : ∀ e : Element Tenths, e.IsFinite := Element.isFinite_of_forall fun _ => rfl
  have hfiles : (Json.object sketch.files).Readable 2 := by
    refine Json.readable_object_iff.mpr ⟨Json.ascending_iff_pairwise_keys.mpr ?_, ?_⟩
    · exact (by decide : ["a", "b"].Pairwise fun k l => k < l)
    simp only [sketch, List.forall_mem_cons]
    refine ⟨Json.readable_array_iff.mpr ?_,
      Json.readable_object_iff.mpr ⟨List.Pairwise.nil, List.forall_mem_nil _⟩,
      List.forall_mem_nil _⟩
    simp only [List.forall_mem_cons]
    exact ⟨Json.readable_number ⟨by decide, by decide⟩, Json.readable_number rfl,
      Json.readable_null, List.forall_mem_nil _⟩
  have hsketch : sketch.IsFinite := ⟨fun e _ => hfinite e, fun _ _ => rfl, hfiles.inRange⟩
  have hdepth : sketch.toJson.depth ≤ Tree.nestingLimit := by decide
  have hread : Document.read? looseText = some looseDocument := by cbv
  obtain ⟨hcompact, -, hpaths⟩ := htext looseText looseDocument hread
  exact ⟨⟨hfinite bentArrow, helement bentArrow (hfinite bentArrow)⟩,
    ⟨hsketch, hfiles.ordered, hdepth, hdocument sketch hsketch hfiles.ordered hdepth⟩, hread,
    hcompact,
    .single ⟨looseDocument, hread, Or.inr rfl⟩, hpaths⟩

end Whiteboard.Drawing
