import Whiteboard.Proofs.Drawing.AspectForms
import Whiteboard.Proofs.Drawing.Overlay
import Whiteboard.Proofs.Drawing.RoundTrip

/-!
# Whiteboard — revisions overlay the forms of elements

A revision comes as a JSON object and what it leads to is seen in the form of an element, so
that a user of the whiteboard knows it as an overlay of JSON: what the object says under the
name of an aspect takes the place of what the form has there. `overlay` does this to the form
alone, knowing elements and revisions no more than by the names and values of their aspects.

Main results:

* `Element.toJson_revise` — the form of a revised element is the overlaid form.
* `Element.revise_snapshot` — revising with all that an element is makes any element of its
  kind into it, but for what no revision names.
* `update_overlays_json` — both, for objects and texts that are read as revisions.
-/

namespace Whiteboard.Drawing

open Decode
open Audit (record)
open Json (fieldTrees)

variable {S : Type} [Scalar S] [Numeral S]

/-! ## Overlays -/

/-- What is in the place of the old form of an aspect once something has been said of the
aspect: the old form if nothing was, `null` if the aspect was emptied, and else the value, which
is brought into a form of its own. -/
def Aspect.laidOver (a : Aspect) (form : a.Value S → Json S) (old : Json S) : Option Tree → Json S
  | none => old
  | some .null => if a.clears then .null else old
  | some t => ((a.value? t).map form).getD old

/-- What is under a key of a form once an object has been laid over it. Two keys follow what is
said under another one: the text before it was wrapped, and whether pressure is simulated. -/
def overlaid (fields : List (Option String × Tree)) (key : String) (old : Json S) : Json S :=
  if key = "originalText" then Aspect.text.laidOver .string old (said? fields "text")
  else if key = "simulatePressure" then
    Aspect.pressures.laidOver (fun pressures => .bool pressures.isEmpty) old
      (said? fields "pressures")
  else match (Named.ofName? key : Option Aspect) with
    | some a => a.laidOver a.form old (said? fields key)
    | none => old

/-- The form of an element with an object laid over it. -/
def overlay (fields : List (Option String × Tree)) : Json S → Json S
  | .object own => .object (own.map fun f => (f.1, overlaid fields f.1 f.2))
  | v => v

theorem overlaid_name (fields : List (Option String × Tree)) (a : Aspect) (old : Json S) :
    overlaid fields (Named.name a) old = a.laidOver a.form old (said? fields (Named.name a)) := by
  have horiginal : Named.name a ≠ "originalText" := by cases a <;> decide
  have hsimulate : Named.name a ≠ "simulatePressure" := by cases a <;> decide
  rw [overlaid, if_neg horiginal, if_neg hsimulate, LawfulNamed.ofName?_name]

/-- A value that is read takes the place of the old form. -/
theorem Aspect.laidOver_eq {a : Aspect} {said : Option Tree} {new? : Option (a.Value S)}
    (h : a.read? said = some new?) {form : a.Value S → Json S}
    (hform : ∀ v ∈ a.emptied?, form v = .null) (old : Json S) :
    a.laidOver form old said = (new?.map form).getD old := by
  cases said with
  | none =>
    cases h
    rfl
  | some t =>
    cases t with
    | null =>
      -- what is read is that the aspect is emptied, or that nothing is said of it
      have hnew : a.emptied? = new? := Option.some.inj h
      have hclears : a.clears = new?.isSome := by rw [← a.isSome_emptied? (S := S), hnew]
      rw [laidOver, hclears]
      cases new? with
      | none => rfl
      | some v => exact (hform v hnew).symm
    | bool | number | string | array | object =>
      obtain ⟨v, hv, rfl⟩ := Option.map_eq_some_iff.mp h
      exact congrArg (fun v? => (v?.map form).getD old) hv

/-- What an object says under the name of an aspect is its value, or `null`. -/
theorem Aspect.exists_value?_of_read? {a : Aspect} {t : Tree} {new? : Option (a.Value S)}
    (h : a.read? (some t) = some new?) (ht : t ≠ .null) :
    ∃ v : a.Value S, a.value? t = some v := by
  cases t with
  | null => exact absurd rfl ht
  | bool | number | string | array | object =>
    obtain ⟨v, hv, -⟩ := Option.map_eq_some_iff.mp h
    exact ⟨v, hv⟩

/-! ## Forms of revised elements -/

section

variable {fields : List (Option String × Tree)} {u : Revision S}

/-- An object says of every aspect what a revision says. -/
def Revision.SaidBy (u : Revision S) (fields : List (Option String × Tree)) : Prop :=
  ∀ a : Aspect, a.read? (said? fields (Named.name a)) = some (u.get a)

theorem Revision.saidBy_of_decode? (h : Revision.decode? (.object fields) = some u) :
    u.SaidBy fields := by
  obtain ⟨fs, hfs, hread⟩ := Revision.decode?_eq_some_iff.mp h
  intro a
  rw [← get?_of_known? hfs (name_mem_fieldNames a), hread a]

/-- Of every aspect the form is what the revision says of it, or the old one. -/
theorem overlaid_form (h : u.SaidBy fields) (a : Aspect) (old : a.Value S) :
    overlaid fields (Named.name a) (a.form old) = a.form ((u.get a).getD old) := by
  rw [overlaid_name, Aspect.laidOver_eq (h a) fun v hv => Aspect.form_of_mem_emptied? hv,
    Option.getD_map]

theorem Shape.fields_onShape (h : u.SaidBy fields) (s : Shape S) :
    (u.onShape s).fields = s.fields.map fun f => (f.1, overlaid fields f.1 f.2) := by
  have hform := overlaid_form h
  cases s with
  | rectangle | ellipse | diamond => rfl
  | text body =>
    have horiginal : overlaid fields "originalText" (.string body.originalText : Json S) =
        .string (u.text.getD body.originalText) := by
      rw [← Option.getD_map Json.string]
      exact Aspect.laidOver_eq (h .text) (fun v hv => by cases hv) _
    simp only [Revision.onShape, Revision.onText, Shape.fields, TextBody.fields, List.map_cons,
      List.map_nil, List.cons.injEq, Prod.mk.injEq, true_and, and_true]
    exact ⟨(hform .text _).symm, (hform .fontSize _).symm, (hform .fontFamily _).symm,
      (hform .textAlign _).symm, (hform .verticalAlign _).symm, rfl, horiginal.symm, rfl, rfl⟩
  | line path | arrow path =>
    simp only [Revision.onShape, Revision.onPolyline, Shape.fields, Polyline.fields, List.map_cons,
      List.map_nil, List.cons.injEq, Prod.mk.injEq, true_and, and_true]
    exact ⟨(hform .points _).symm, rfl, (hform .startBinding _).symm, (hform .endBinding _).symm,
      (hform .startArrowhead _).symm, (hform .endArrowhead _).symm⟩
  | freedraw stroke =>
    have hsimulate : overlaid fields "simulatePressure" (.bool stroke.simulatePressure : Json S) =
        .bool ((u.pressures.map List.isEmpty).getD stroke.simulatePressure) := by
      rw [← Option.getD_map Json.bool, Option.map_map]
      exact Aspect.laidOver_eq (h .pressures) (fun v hv => by cases hv) _
    simp only [Revision.onShape, Revision.onFreehand, Shape.fields, Freehand.fields, List.map_cons,
      List.map_nil, List.cons.injEq, Prod.mk.injEq, true_and, and_true]
    exact ⟨(hform .points _).symm, (hform .pressures _).symm, hsimulate.symm, rfl⟩

theorem Element.commonFields_revise (h : u.SaidBy fields) (e : Element S) :
    (e.revise u).commonFields = e.commonFields.map fun f => (f.1, overlaid fields f.1 f.2) := by
  have hform := overlaid_form h
  simp only [Element.revise, Element.commonFields, List.map_cons, List.map_nil,
    List.cons.injEq, Prod.mk.injEq, true_and, and_true]
  -- what is left of the history stays as it is
  exact ⟨(hform .x _).symm, (hform .y _).symm, (hform .width _).symm, (hform .height _).symm,
    (hform .angle _).symm, (hform .strokeColor _).symm, (hform .backgroundColor _).symm,
    (hform .fillStyle _).symm, (hform .strokeWidth _).symm, (hform .strokeStyle _).symm,
    (hform .roughness _).symm, (hform .opacity _).symm, (hform .roundness _).symm, rfl, rfl, rfl,
    (hform .isDeleted _).symm, (hform .groupIds _).symm, (hform .frameId _).symm, rfl, rfl,
    (hform .link _).symm, (hform .locked _).symm⟩

/-- **The form of a revised element is the overlaid form.** -/
theorem Element.toJson_revise (h : u.SaidBy fields) (e : Element S) :
    (e.revise u).toJson = overlay fields e.toJson := by
  -- the first two fields are no aspects, whatever the object says under their keys
  have hid : overlaid fields "id" (.string e.id : Json S) = .string e.id := rfl
  have hkind : overlaid fields "type" (Json.named e.kind : Json S) = Json.named e.kind := rfl
  have hshape : (e.revise u).shape.fields = _ := Shape.fields_onShape h e.shape
  rw [toJson, toJson, overlay, List.map_cons, List.map_cons, List.map_append, hid, hkind,
    ← hshape, ← commonFields_revise h, e.kind_revise]
  rfl

end

/-! ## All of an element -/

/-- The revision that says of every aspect of an element what it is. -/
def Element.snapshot (e : Element S) : Revision S := .of e.get?

/-- A shape with what no revision names as another shape of the kind has it, and what follows
from the rest as it follows. -/
def Shape.withUnnamed : Shape S → Shape S → Shape S
  | .text body, .text old => .text { body with
      containerId := old.containerId
      originalText := body.text
      lineHeight := old.lineHeight
      autoResize := old.autoResize }
  | .line path, .line old => .line { path with lastCommittedPoint := old.lastCommittedPoint }
  | .arrow path, .arrow old => .arrow { path with lastCommittedPoint := old.lastCommittedPoint }
  | .freedraw stroke, .freedraw old => .freedraw { stroke with
      simulatePressure := stroke.pressures.isEmpty
      lastCommittedPoint := old.lastCommittedPoint }
  | s, _ => s

omit [Scalar S] [Numeral S] in
/-- **Any element of the kind is made into the element**, but for what no revision names. -/
theorem Element.revise_snapshot {e old : Element S} (hkind : old.kind = e.kind) :
    old.revise e.snapshot = { e with
      shape := e.shape.withUnnamed old.shape
      id := old.id
      seed := old.seed
      version := old.version
      versionNonce := old.versionNonce
      boundElements := old.boundElements
      updated := old.updated } := by
  have hshape : e.snapshot.onShape old.shape = e.shape.withUnnamed old.shape := by
    revert hkind
    unfold kind snapshot Revision.of get?
    -- two shapes of one kind
    cases e.shape <;> cases old.shape <;> intro hkind <;> first | rfl | cases hkind
  rw [revise, hshape]
  rfl

/-- The tree of an element, read exactly as a revision, says of every aspect what it is. -/
theorem Element.decode?_snapshot [ExactNumeral S] {e : Element S} (h : e.IsFinite) :
    Revision.decode? e.toJson.tree = some e.snapshot := by
  obtain ⟨fs, hfs, -⟩ : ∃ fs, known? Revision.fieldNames (fieldTrees (record e)) = some fs ∧
      fs.Holds ([] : List (String × Json S)) :=
    exists_known? _ (Audit.keys_nodup e) (List.nil_subset _) (List.nil_subset _)
  refine Revision.decode?_eq_some_iff.mpr ⟨fs, hfs, fun a => ?_⟩
  rw [read?_record h hfs (name_mem_fieldNames a), snapshot, Revision.get_of]

/-- So do both of its texts. -/
theorem Element.read?_snapshot [ExactNumeral S] {e : Element S} (h : e.IsFinite) :
    Revision.read? e.toJson.compact = some e.snapshot ∧
      Revision.read? e.toJson.pretty = some e.snapshot :=
  e.read?_bind (decode?_snapshot h)

/-! ## The laws -/

/-- **Revisions are overlays of JSON.** Let an object be read as a revision. Then all that it
says under names of aspects can be read, and whatever else it says could as well be missing. The
form of the element that the revision leads to is the old form, its history refreshed, with the
object laid over it: where the element has an aspect of which the object says anything, the
form has what it says, in a form of its own; and `null` says something of those aspects only
that can be emptied.

In particular, where reading is exact, the form of a finite element, as a tree and in both
texts, can be read as a revision, which makes any element of its kind into it, but for the id,
the seed, the attached connectors, the history and what else no revision names. -/
theorem update_overlays_json {G : Type} [IdSource G] :
    (∀ (fields : List (Option String × Tree)) (u : Revision S),
      Revision.decode? (.object fields) = some u →
      (∀ (a : Aspect) (t : Tree), said? fields (Named.name a) = some t → t ≠ .null →
        ∃ v : a.Value S, a.value? t = some v) ∧
      Revision.decode? (.object (fields.filter fun f => f.1.any Revision.fieldNames.contains)) =
        some u ∧
      ∀ (e : Element S) (now : Int64) (g : G),
        (e.revised u now g).toJson = overlay fields ({ e with
          version := Element.versionAfter e.version
          versionNonce := ((Element.drawNonce e.versionNonce : StateM G UInt32).run g).1
          updated := now } : Element S).toJson) ∧
    ∀ [ExactNumeral S] (e : Element S), e.IsFinite → ∃ u : Revision S,
      Revision.decode? e.toJson.tree = some u ∧
      Revision.read? e.toJson.compact = some u ∧ Revision.read? e.toJson.pretty = some u ∧
      ∀ old : Element S, old.kind = e.kind → ∀ (now : Int64) (g : G),
        old.revised u now g = { e with
          shape := e.shape.withUnnamed old.shape
          id := old.id
          seed := old.seed
          boundElements := old.boundElements
          version := Element.versionAfter old.version
          versionNonce := ((Element.drawNonce old.versionNonce : StateM G UInt32).run g).1
          updated := now } := by
  constructor
  · intro fields u hu
    have hsaid := Revision.saidBy_of_decode? hu
    refine ⟨fun a t ht hnull => ?_, ?_, fun e now g => ?_⟩
    · exact Aspect.exists_value?_of_read? (ht ▸ hsaid a) hnull
    · obtain ⟨fs, hfs, hread⟩ := Revision.decode?_eq_some_iff.mp hu
      exact Revision.decode?_eq_some_iff.mpr ⟨fs, known?_filter hfs, hread⟩
    · -- the history is refreshed after the revision, and might as well be before it
      have hrevised : e.revised u now g = ({ e with
          version := Element.versionAfter e.version
          versionNonce := ((Element.drawNonce e.versionNonce : StateM G UInt32).run g).1
          updated := now } : Element S).revise u := rfl
      rw [hrevised, Element.toJson_revise hsaid]
  · intro _ e he
    obtain ⟨hcompact, hpretty⟩ := Element.read?_snapshot he
    refine ⟨e.snapshot, Element.decode?_snapshot he, hcompact, hpretty,
      fun old hkind now g => ?_⟩
    have hrevised : old.revised e.snapshot now g = { old.revise e.snapshot with
        version := Element.versionAfter old.version
        versionNonce := ((Element.drawNonce old.versionNonce : StateM G UInt32).run g).1
        updated := now } := rfl
    rw [hrevised, Element.revise_snapshot hkind]

/-- An object with a value, with `null` for an aspect that can be emptied and for one that
cannot, with an aspect of another kind, and with keys that no revision has. -/
def loosePatch : List (Option String × Tree) :=
  fieldTrees [("x", (.number (.int 5) : Json Tenths)), ("endArrowhead", .null), ("opacity", .null),
    ("text", .string "a"), ("seed", .number (.int 7)), ("id", .null)]

theorem update_overlays_json_of_tenths :
    let u : Revision Tenths := { x := some ⟨50⟩, endArrowhead := some none, text := some "a" }
    let old : Element Tenths := { bentArrow with x := ⟨7⟩, seed := 2, locked := false }
    let g := SequentialIds.fresh "a"
    Revision.decode? (.object loosePatch) = some u ∧
      (bentArrow.revised u 8 g).toJson = overlay loosePatch
        ({ bentArrow with version := 4, versionNonce := 1, updated := 8 } : Element Tenths).toJson ∧
      ((bentArrow.revised u 8 g).toJson.get? "x" = some (Json.scalar ⟨50⟩) ∧
        (bentArrow.revised u 8 g).toJson.get? "endArrowhead" = some .null ∧
        (bentArrow.revised u 8 g).toJson.get? "opacity" = some (Json.uint8 100) ∧
        (bentArrow.revised u 8 g).toJson.get? "seed" = some (Json.uint32 4294967295)) ∧
      bentArrow.IsFinite ∧ ∃ v : Revision Tenths,
        Revision.decode? bentArrow.toJson.tree = some v ∧
          Revision.read? bentArrow.toJson.compact = some v ∧
          old.revised v 8 g =
            { bentArrow with seed := 2, version := 4, versionNonce := 1, updated := 8 } := by
  intro u old g
  have hdecode : Revision.decode? (.object loosePatch) = some u := by cbv
  have hfinite : bentArrow.IsFinite := Element.isFinite_of_forall (fun _ => rfl) _
  obtain ⟨hobject, helement⟩ := update_overlays_json (S := Tenths) (G := SequentialIds)
  obtain ⟨v, htree, hv, -, hrevised⟩ := helement bentArrow hfinite
  exact ⟨hdecode, (hobject loosePatch u hdecode).2.2 bentArrow 8 g, ⟨rfl, rfl, rfl, rfl⟩, hfinite,
    v, htree, hv, hrevised old rfl 8 g⟩

end Whiteboard.Drawing
