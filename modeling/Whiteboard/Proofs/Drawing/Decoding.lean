import Whiteboard.Drawing.Reading
import Whiteboard.Proofs.Drawing.Encoded
import Whiteboard.Proofs.Json.Decoding

/-!
# Whiteboard — decoders undo the forms of documents

Encoders and decoders name the same fields, and so what is decoded from a form is what the form
was made of, with its numbers as the reader makes them of their digits. The fields that only
some kinds have are decoded from the record that holds them together with all others, so what is
shown of them is shown for any record that has them among fields of other names.

Main results:

* `Shape.decode?_fields` — a shape is found among the fields of an element.
* `filter_fieldTrees_record` — what is left of an element without its common fields.
* `Element.decode?_tree`, `Document.decode?_tree` — the tree of a form is decoded to
  what the form was made of, its numbers read again.
-/

namespace Whiteboard.Drawing

open Decode
open Audit (record keys_nodup)
open Json (fieldTrees fieldTrees_eq_map)

variable {S : Type} [Scalar S] [Numeral S] [LawfulNumeral S]

/-! ## Parts of elements -/

theorem Roundness.decode?_tree {r : Roundness S} (h : ∀ x ∈ r.value, Scalar.isFinite x = true) :
    Roundness.decode? r.toJson.tree = some r.reread := by
  obtain ⟨algorithm, value⟩ := r
  cases value with
  | none =>
    -- the value has no field, and so counts as missing
    show (uint8? (Json.uint8 algorithm : Json S).tree).bind _ = _
    rw [uint8?_tree]
    rfl
  | some x =>
    obtain ⟨fs, hknown, hfs⟩ : ∃ fs,
        record? ["type", "value"] 1 (Roundness.toJson ⟨algorithm, some x⟩).tree = some fs ∧
          fs.Holds [("type", Json.uint8 algorithm), ("value", Json.option Json.scalar (some x))] :=
      exists_known? _ (by simp) (List.Subset.refl _) (List.Subset.refl _)
    have htype : fs.required? "type" uint8? = some algorithm :=
      hfs.required? (by simp) (uint8?_tree (S := S) algorithm)
    have hvalue : fs.optional? "value" scalar? = some ((some x).map Numeral.reread) :=
      hfs.optional? (by simp) rfl fun y hy => scalar?_tree (h y hy)
    simp [Roundness.decode?, hknown, htype, hvalue, Roundness.reread]

theorem Binding.decode?_tree {b : Binding S} (h : b.IsFinite) :
    Binding.decode? b.toJson.tree = some b.reread := by
  obtain ⟨fs, hknown, hfs⟩ : ∃ fs, record? ["elementId", "focus", "gap"] 3 b.toJson.tree = some fs ∧
      fs.Holds [("elementId", .string b.elementId), ("focus", Json.scalar b.focus),
        ("gap", Json.scalar b.gap)] :=
    exists_known? _ (by simp) (List.Subset.refl _) (List.Subset.refl _)
  have helement : fs.required? "elementId" text? = some b.elementId :=
    hfs.required? (by simp) (text?_tree b.elementId)
  have hfocus : fs.required? "focus" scalar? = some (Numeral.reread b.focus) :=
    hfs.required? (by simp) (scalar?_tree h.1)
  have hgap : fs.required? "gap" scalar? = some (Numeral.reread b.gap) :=
    hfs.required? (by simp) (scalar?_tree h.2)
  simp [Binding.decode?, hknown, helement, hfocus, hgap, Binding.reread]

omit [Scalar S] [LawfulNumeral S] in
theorem BoundElement.decode?_tree (b : BoundElement) :
    BoundElement.decode? (b.toJson : Json S).tree = some b := by
  obtain ⟨fs, hknown, hfs⟩ : ∃ fs, record? ["id", "type"] 2 (b.toJson : Json S).tree = some fs ∧
      fs.Holds [("id", (.string b.id : Json S)), ("type", Json.named b.kind)] :=
    exists_known? _ (by simp) (List.Subset.refl _) (List.Subset.refl _)
  have hid : fs.required? "id" text? = some b.id :=
    hfs.required? (by simp) (text?_tree (S := S) b.id)
  have hkind : fs.required? "type" (named? isNull) = some b.kind :=
    hfs.required? (by simp) (named?_tree (S := S) isNull b.kind)
  simp [BoundElement.decode?, hknown, hid, hkind]

/-! ## Shapes -/

theorem TextBody.decode?_fields {t : TextBody S} (hsize : Scalar.isFinite t.fontSize = true)
    (hheight : Scalar.isFinite t.lineHeight = true) {fields : List (String × Json S)}
    (hkeys : (fields.map Prod.fst).Nodup) (hown : t.fields ⊆ fields) :
    TextBody.decode? (fieldTrees fields) = some t.reread := by
  obtain ⟨fs, hknown, hfs⟩ := exists_known? TextBody.fieldNames hkeys hown
    (List.Subset.refl _)
  have htext : fs.required? "text" text? = some t.text :=
    hfs.required? (by simp [TextBody.fields]) (text?_tree t.text)
  have hfontSize : fs.required? "fontSize" scalar? = some (Numeral.reread t.fontSize) :=
    hfs.required? (by simp [TextBody.fields]) (scalar?_tree hsize)
  have hfontFamily : fs.required? "fontFamily" uint8? = some t.fontFamily :=
    hfs.required? (by simp [TextBody.fields]) (uint8?_tree t.fontFamily)
  have htextAlign : fs.required? "textAlign" (named? isEmpty) = some t.textAlign :=
    hfs.required? (by simp [TextBody.fields]) (named?_tree isEmpty t.textAlign)
  have hverticalAlign : fs.required? "verticalAlign" (named? isEmpty) = some t.verticalAlign :=
    hfs.required? (by simp [TextBody.fields]) (named?_tree isEmpty t.verticalAlign)
  have hcontainer : fs.optional? "containerId" text? = some t.containerId :=
    hfs.optional?_self (by simp [TextBody.fields]) rfl fun id _ => text?_tree id
  have horiginal : fs.required? "originalText" text? = some t.originalText :=
    hfs.required? (by simp [TextBody.fields]) (text?_tree t.originalText)
  have hlineHeight : fs.required? "lineHeight" scalar? = some (Numeral.reread t.lineHeight) :=
    hfs.required? (by simp [TextBody.fields]) (scalar?_tree hheight)
  have hautoResize : fs.defaulted? "autoResize" false bool? = some t.autoResize :=
    hfs.defaulted? (by simp [TextBody.fields]) (bool?_tree t.autoResize) false
  simp [TextBody.decode?, hknown, htext, hfontSize, hfontFamily, htextAlign, hverticalAlign,
    hcontainer, horiginal, hlineHeight, hautoResize, TextBody.reread]

theorem Polyline.decode?_fields {path : Polyline S} (h : path.IsFinite)
    {fields : List (String × Json S)} (hkeys : (fields.map Prod.fst).Nodup)
    (hown : path.fields ⊆ fields) :
    Polyline.decode? (fieldTrees fields) = some path.reread := by
  obtain ⟨fs, hknown, hfs⟩ := exists_known? Polyline.fieldNames hkeys hown
    (List.Subset.refl _)
  have hpoints : fs.required? "points" (list? point?) = some (path.points.map Point.reread) :=
    hfs.required? (by simp [Polyline.fields]) (list?_tree fun p hp => point?_tree (h.points p hp))
  have hlast : fs.optional? "lastCommittedPoint" point? =
      some (path.lastCommittedPoint.map Point.reread) :=
    hfs.optional? (by simp [Polyline.fields]) rfl fun p hp =>
      point?_tree (h.lastCommittedPoint p hp)
  have hstart : fs.optional? "startBinding" Binding.decode? =
      some (path.startBinding.map Binding.reread) :=
    hfs.optional? (by simp [Polyline.fields]) rfl fun b hb =>
      Binding.decode?_tree (h.startBinding b hb)
  have hend : fs.optional? "endBinding" Binding.decode? =
      some (path.endBinding.map Binding.reread) :=
    hfs.optional? (by simp [Polyline.fields]) rfl fun b hb =>
      Binding.decode?_tree (h.endBinding b hb)
  have hstartHead : fs.optional? "startArrowhead" (named? isEmpty) = some path.startArrowhead :=
    hfs.optional?_self (by simp [Polyline.fields]) rfl fun head _ => named?_tree isEmpty head
  have hendHead : fs.optional? "endArrowhead" (named? isEmpty) = some path.endArrowhead :=
    hfs.optional?_self (by simp [Polyline.fields]) rfl fun head _ => named?_tree isEmpty head
  simp [Polyline.decode?, hknown, hpoints, hlast, hstart, hend, hstartHead, hendHead,
    Polyline.reread]

theorem Freehand.decode?_fields {stroke : Freehand S} (h : stroke.IsFinite)
    {fields : List (String × Json S)} (hkeys : (fields.map Prod.fst).Nodup)
    (hown : stroke.fields ⊆ fields) :
    Freehand.decode? (fieldTrees fields) = some stroke.reread := by
  obtain ⟨fs, hknown, hfs⟩ := exists_known? Freehand.fieldNames hkeys hown
    (List.Subset.refl _)
  have hpoints : fs.required? "points" (list? point?) =
      some (stroke.points.map Point.reread) :=
    hfs.required? (by simp [Freehand.fields]) (list?_tree fun p hp => point?_tree (h.points p hp))
  have hpressures : fs.defaulted? "pressures" [] (list? scalar?) =
      some (stroke.pressures.map Numeral.reread) :=
    hfs.defaulted? (by simp [Freehand.fields])
      (list?_tree fun x hx => scalar?_tree (h.pressures x hx)) []
  have hsimulate : fs.required? "simulatePressure" bool? = some stroke.simulatePressure :=
    hfs.required? (by simp [Freehand.fields]) (bool?_tree stroke.simulatePressure)
  have hlast : fs.optional? "lastCommittedPoint" point? =
      some (stroke.lastCommittedPoint.map Point.reread) :=
    hfs.optional? (by simp [Freehand.fields]) rfl fun p hp =>
      point?_tree (h.lastCommittedPoint p hp)
  simp [Freehand.decode?, hknown, hpoints, hpressures, hsimulate, hlast, Freehand.reread]

/-- **A shape is found among the fields of an element.** -/
theorem Shape.decode?_fields {s : Shape S} (h : s.IsFinite) {fields : List (String × Json S)}
    (hkeys : (fields.map Prod.fst).Nodup) (hown : s.fields ⊆ fields) :
    Shape.decode? (fieldTrees fields) s.kind = some s.reread := by
  cases s with
  | rectangle | ellipse | diamond => rfl
  | text body =>
    rw [Shape.kind, Shape.decode?, TextBody.decode?_fields h.1 h.2 hkeys hown, Option.map_some,
      Shape.reread]
  | line path | arrow path =>
    rw [Shape.kind, Shape.decode?, Polyline.decode?_fields h hkeys hown, Option.map_some,
      Shape.reread]
  | freedraw stroke =>
    rw [Shape.kind, Shape.decode?, Freehand.decode?_fields h hkeys hown, Option.map_some,
      Shape.reread]

omit [Scalar S] [LawfulNumeral S] in
theorem drawnKind?_tree (s : Shape S) :
    drawnKind? (Json.named s.kind : Json S).tree = some s.kind := by
  cases s <;> rfl

/-! ## Fields of one kind -/

/-- The fields of an element that depend on its kind. -/
def Element.kindFields (e : Element S) : List (String × Json S) :=
  ("type", Json.named e.kind) :: e.shape.fields

omit [Numeral S] [LawfulNumeral S] in
theorem kindFields_sublist (e : Element S) : e.kindFields.Sublist (record e) :=
  ((List.sublist_append_left _ _).cons_cons _).cons _

omit [Numeral S] [LawfulNumeral S] in
theorem kindFields_nodup (e : Element S) : (e.kindFields.map Prod.fst).Nodup :=
  (keys_nodup e).sublist ((kindFields_sublist e).map _)

omit [LawfulNumeral S] in
/-- Without its common fields a record is left with those of the kind. -/
theorem filter_fieldTrees_record (e : Element S) :
    (fieldTrees (record e)).filter (fun f => !isCommonField f) = fieldTrees e.kindFields := by
  have hcommon : e.commonFields.filter (fun f => !Element.fieldNames.contains f.1) = [] := by
    rw [List.filter_eq_nil_iff]
    intro f hf
    have hname : f.1 ∈ Element.fieldNames :=
      List.mem_cons_of_mem _ (List.mem_map_of_mem (f := Prod.fst) hf)
    simpa using hname
  -- no kind has a field with the name of a common one
  have hshape : e.shape.fields.filter (fun f => !Element.fieldNames.contains f.1) =
      e.shape.fields := by
    rw [List.filter_eq_self]
    cases e.shape <;>
      simp [Shape.fields, TextBody.fields, Polyline.fields, Freehand.fields, Element.fieldNames]
  have hrecord : (record e).filter (fun f => !Element.fieldNames.contains f.1) =
      e.kindFields := by
    rw [record, List.filter_cons_of_neg (by simp [Element.fieldNames]),
      List.filter_cons_of_pos (by simp [Element.fieldNames]), List.filter_append, hcommon, hshape,
      List.append_nil, Element.kindFields]
  rw [fieldTrees_eq_map, fieldTrees_eq_map, List.filter_map, ← hrecord]
  rfl

/-- The fields of the kind are judged as any JSON values, which they are. -/
theorem mapM_value?_kindFields (e : Element S) {room : Nat} (hroom : 2 ≤ room) :
    (fieldTrees e.kindFields).mapM (fun f => (f.2.value? room : Option (Json S))) =
      some (e.kindFields.map fun f => f.2.reread) := by
  rw [fieldTrees_eq_map]
  refine mapM_map_eq_some fun f hf => ?_
  have hreadable := Element.readable_of_mem ((kindFields_sublist e).subset hf)
  exact (hreadable.mono hroom).value?_tree

omit [LawfulNumeral S] in
/-- The kind is found among them. -/
theorem exists_kind_kindFields (e : Element S) :
    ∃ tag, known? ["type"] (fieldTrees e.kindFields) = some tag ∧
      tag.required? "type" drawnKind? = some e.kind := by
  obtain ⟨tag, htag, hholds⟩ : ∃ tag, known? ["type"] (fieldTrees e.kindFields) = some tag ∧
      tag.Holds [("type", (Json.named e.kind : Json S))] :=
    exists_known? _ (kindFields_nodup e) (by simp [Element.kindFields]) (List.Subset.refl _)
  exact ⟨tag, htag,
    hholds.required? (List.mem_singleton.mpr rfl) (drawnKind?_tree (S := S) e.shape)⟩

/-! ## Elements -/

/-- **The tree of an element is decoded to the element**, its numbers read again. -/
theorem Element.decode?_tree {e : Element S} (h : e.IsFinite) {room : Nat} (hroom : 2 ≤ room) :
    Element.decode? room e.toJson.tree = some e.reread := by
  have hjudged := mapM_value?_kindFields e hroom
  obtain ⟨tag, htag, hkind⟩ := exists_kind_kindFields e
  have hshape : Shape.decode? (fieldTrees e.kindFields) e.kind = some e.shape.reread :=
    Shape.decode?_fields h.shape (kindFields_nodup e) (List.subset_cons_self _ _)
  -- the common fields, one by one
  have hcommon : ("id", Json.string e.id) :: e.commonFields ⊆ record e :=
    List.cons_subset_cons _ (List.subset_cons_of_subset _ (List.subset_append_right _ _))
  obtain ⟨fs, hknown, hfs⟩ := exists_known? Element.fieldNames (keys_nodup e) hcommon
    (List.Subset.refl _)
  have hid : fs.required? "id" text? = some e.id :=
    hfs.required? List.mem_cons_self (text?_tree e.id)
  have hx : fs.required? "x" scalar? = some (Numeral.reread e.x) :=
    hfs.required? (by simp [Element.commonFields]) (scalar?_tree h.x)
  have hy : fs.required? "y" scalar? = some (Numeral.reread e.y) :=
    hfs.required? (by simp [Element.commonFields]) (scalar?_tree h.y)
  have hwidth : fs.required? "width" scalar? = some (Numeral.reread e.width) :=
    hfs.required? (by simp [Element.commonFields]) (scalar?_tree h.width)
  have hheight : fs.required? "height" scalar? = some (Numeral.reread e.height) :=
    hfs.required? (by simp [Element.commonFields]) (scalar?_tree h.height)
  have hangle : fs.required? "angle" scalar? = some (Numeral.reread e.angle) :=
    hfs.required? (by simp [Element.commonFields]) (scalar?_tree h.angle)
  have hstroke : fs.required? "strokeColor" text? = some e.strokeColor :=
    hfs.required? (by simp [Element.commonFields]) (text?_tree e.strokeColor)
  have hbackground : fs.required? "backgroundColor" text? = some e.backgroundColor :=
    hfs.required? (by simp [Element.commonFields]) (text?_tree e.backgroundColor)
  have hfill : fs.required? "fillStyle" (named? isNull) = some e.fillStyle :=
    hfs.required? (by simp [Element.commonFields]) (named?_tree isNull e.fillStyle)
  have hstrokeWidth : fs.required? "strokeWidth" scalar? = some (Numeral.reread e.strokeWidth) :=
    hfs.required? (by simp [Element.commonFields]) (scalar?_tree h.strokeWidth)
  have hstrokeStyle : fs.required? "strokeStyle" (named? isNull) = some e.strokeStyle :=
    hfs.required? (by simp [Element.commonFields]) (named?_tree isNull e.strokeStyle)
  have hroughness : fs.required? "roughness" uint8? = some e.roughness :=
    hfs.required? (by simp [Element.commonFields]) (uint8?_tree e.roughness)
  have hopacity : fs.required? "opacity" uint8? = some e.opacity :=
    hfs.required? (by simp [Element.commonFields]) (uint8?_tree e.opacity)
  have hroundness : fs.optional? "roundness" Roundness.decode? =
      some (e.roundness.map Roundness.reread) :=
    hfs.optional? (by simp [Element.commonFields]) rfl fun r hr =>
      Roundness.decode?_tree (h.roundness r hr)
  have hseed : fs.required? "seed" uint32? = some e.seed :=
    hfs.required? (by simp [Element.commonFields]) (uint32?_tree e.seed)
  have hversion : fs.required? "version" uint32? = some e.version :=
    hfs.required? (by simp [Element.commonFields]) (uint32?_tree e.version)
  have hnonce : fs.required? "versionNonce" uint32? = some e.versionNonce :=
    hfs.required? (by simp [Element.commonFields]) (uint32?_tree e.versionNonce)
  have hdeleted : fs.required? "isDeleted" bool? = some e.isDeleted :=
    hfs.required? (by simp [Element.commonFields]) (bool?_tree e.isDeleted)
  have hgroups : fs.defaulted? "groupIds" [] (list? text?) = some e.groupIds :=
    hfs.defaulted? (by simp [Element.commonFields]) (list?_tree_self fun id _ => text?_tree id) []
  have hframe : fs.optional? "frameId" text? = some e.frameId :=
    hfs.optional?_self (by simp [Element.commonFields]) rfl fun id _ => text?_tree id
  have hbound : fs.optional? "boundElements" (list? BoundElement.decode?) = some e.boundElements :=
    hfs.optional?_self (by simp [Element.commonFields]) rfl fun entries _ =>
      list?_tree_self fun b _ => BoundElement.decode?_tree b
  have hupdated : fs.required? "updated" int64? = some e.updated :=
    hfs.required? (by simp [Element.commonFields]) (int64?_tree e.updated)
  have hlink : fs.optional? "link" text? = some e.link :=
    hfs.optional?_self (by simp [Element.commonFields]) rfl fun link _ => text?_tree link
  have hlocked : fs.required? "locked" bool? = some e.locked :=
    hfs.required? (by simp [Element.commonFields]) (bool?_tree e.locked)
  show Element.decode? room (.object (fieldTrees (record e))) = some e.reread
  rw [Element.decode?, filter_fieldTrees_record]
  exact bind_eq_some_of hknown <| bind_eq_some_of hjudged <| bind_eq_some_of htag <|
    bind_eq_some_of hkind <| bind_eq_some_of hid <| bind_eq_some_of hshape <|
    bind_eq_some_of hx <| bind_eq_some_of hy <| bind_eq_some_of hwidth <|
    bind_eq_some_of hheight <| bind_eq_some_of hangle <| bind_eq_some_of hstroke <|
    bind_eq_some_of hbackground <| bind_eq_some_of hfill <| bind_eq_some_of hstrokeWidth <|
    bind_eq_some_of hstrokeStyle <| bind_eq_some_of hroughness <| bind_eq_some_of hopacity <|
    bind_eq_some_of hroundness <| bind_eq_some_of hseed <| bind_eq_some_of hversion <|
    bind_eq_some_of hnonce <| bind_eq_some_of hdeleted <| bind_eq_some_of hgroups <|
    bind_eq_some_of hframe <| bind_eq_some_of hbound <| bind_eq_some_of hupdated <|
    bind_eq_some_of hlink <| bind_eq_some_of hlocked rfl

/-! ## Documents -/

theorem Canvas.decode?_tree {c : Canvas S} (h : ∀ x ∈ c.gridSize, Scalar.isFinite x = true) :
    Canvas.decode? c.toJson.tree = some c.reread := by
  obtain ⟨fs, hknown, hfs⟩ : ∃ fs,
      record? ["viewBackgroundColor", "gridSize"] 2 c.toJson.tree = some fs ∧
        fs.Holds [("viewBackgroundColor", .string c.background),
          ("gridSize", Json.option Json.scalar c.gridSize)] :=
    exists_known? _ (by simp) (List.Subset.refl _) (List.Subset.refl _)
  have hbackground : fs.required? "viewBackgroundColor" text? = some c.background :=
    hfs.required? (by simp) (text?_tree (S := S) c.background)
  have hgrid : fs.optional? "gridSize" scalar? = some (c.gridSize.map Numeral.reread) :=
    hfs.optional? (by simp) rfl fun x hx => scalar?_tree (h x hx)
  simp [Canvas.decode?, hknown, hbackground, hgrid, Canvas.reread]

theorem files?_tree {files : List (String × Json S)} {room : Nat}
    (h : (Json.object files).Readable room) :
    files? room (Json.object files).tree = some (Json.rereadFields files) := by
  rw [files?, h.value?_tree, Json.reread]
  rfl

/-- **The tree of a document is decoded to the document**, its numbers read again. -/
theorem Document.decode?_tree {d : Document S} (h : d.IsFinite)
    (horder : (Json.object d.files).Ordered) {room : Nat} (hroom : 4 ≤ room)
    (hdepth : d.toJson.depth ≤ room + 1) :
    Document.decode? (room + 1) d.toJson.tree = some d.reread := by
  have hreadable : (Json.object d.files).Readable room :=
    ⟨h.files, horder, (Document.depth_toJson_le_iff hroom).mp hdepth⟩
  obtain ⟨fs, hknown, hfs⟩ : ∃ fs,
      record? ["type", "version", "source", "elements", "appState", "files"] 4 d.toJson.tree =
        some fs ∧
      fs.Holds [("type", .string d.format), ("version", Json.uint32 d.version),
        ("source", .string d.source), ("elements", Json.list Element.toJson d.elements),
        ("appState", d.canvas.toJson), ("files", .object d.files)] :=
    exists_known? _ (by simp) (List.Subset.refl _) (List.Subset.refl _)
  have hformat : fs.required? "type" text? = some d.format :=
    hfs.required? (by simp) (text?_tree (S := S) d.format)
  have hversion : fs.required? "version" uint32? = some d.version :=
    hfs.required? (by simp) (uint32?_tree (S := S) d.version)
  have hsource : fs.defaulted? "source" "" text? = some d.source :=
    hfs.defaulted? (by simp) (text?_tree (S := S) d.source) ""
  have helements : fs.required? "elements" (list? (Element.decode? (room - 2))) =
      some (d.elements.map Element.reread) :=
    hfs.required? (by simp) (list?_tree fun e he =>
      Element.decode?_tree (h.elements e he) (by omega))
  have hcanvas : fs.defaulted? "appState" Canvas.blank Canvas.decode? =
      some d.canvas.reread :=
    hfs.defaulted? (by simp) (Canvas.decode?_tree h.gridSize) _
  have hfiles : fs.defaulted? "files" [] (files? room) = some (Json.rereadFields d.files) :=
    hfs.defaulted? (by simp) (files?_tree hreadable) []
  simp [Document.decode?, hknown, hformat, hversion, hsource, helements, hcanvas, hfiles,
    Document.reread]

end Whiteboard.Drawing
