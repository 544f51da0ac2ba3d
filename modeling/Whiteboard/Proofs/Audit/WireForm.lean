import Whiteboard.Proofs.Audit.Records
import Whiteboard.Proofs.Drawing.Finite

/-!
# Whiteboard — the wire form of an element passes its audit

The typed model cannot hold what an audit calls an error: the wire form of an
element has all the fields that an audit asks for, none twice, each of the type
that its name calls for. Only numbers that are not finite are left out.

Main results:

* `fits_record` — every field of a wire form is of the type that its name calls for.
* `errors_toJson` — the wire form of an element with finite numbers has no errors.
* `scalar?_opacity`, `scalar?_angle` — the two fields that a warning may be about.
-/

namespace Whiteboard

variable {S : Type}

/-! ## Types of JSON values -/

namespace Json

@[simp] theorem isNull_scalar [Scalar S] (x : S) : (scalar x).isNull = !Scalar.isFinite x := by
  rw [scalar]
  cases Scalar.isFinite x <;> rfl

@[simp] theorem isNumber_scalar [Scalar S] (x : S) :
    (scalar x).isNumber = Scalar.isFinite x := by
  rw [scalar]
  cases Scalar.isFinite x <;> rfl

@[simp] theorem isNumber_uint8 (n : UInt8) : (uint8 n : Json S).isNumber = true := rfl

@[simp] theorem isNumber_uint32 (n : UInt32) : (uint32 n : Json S).isNumber = true := rfl

@[simp] theorem isNumber_int64 (n : Int64) : (int64 n : Json S).isNumber = true := rfl

@[simp] theorem isBool_bool (b : Bool) : (bool b : Json S).isBool = true := rfl

@[simp] theorem isString_string (s : String) : (string s : Json S).isString = true := rfl

@[simp] theorem isNull_option_string (s? : Option String) :
    (option string s? : Json S).isNull = !s?.isSome := by
  cases s? <;> rfl

@[simp] theorem isString_option_string (s? : Option String) :
    (option string s? : Json S).isString = s?.isSome := by
  cases s? <;> rfl

end Json

namespace Audit

open Drawing (BoundElement Element Freehand Polyline Shape TextBody)

/-- What an audit asks of the value of a field that is not `null`. -/
structure Fits (name : String) (v : Json S) : Prop where
  number : name ∈ numericFields → v.isNumber = true
  string : name ∈ "id" :: (colorFields ++ textFields) → v.isString = true
  boolean : name ∈ booleanFields → v.isBool = true
  fillStyle : name = "fillStyle" → ∃ a : Drawing.FillStyle, v = Json.named a
  strokeStyle : name = "strokeStyle" → ∃ a : Drawing.StrokeStyle, v = Json.named a
  textAlign : name = "textAlign" → ∃ a : Drawing.TextAlign, v = Json.named a
  verticalAlign : name = "verticalAlign" → ∃ a : Drawing.VerticalAlign, v = Json.named a
  groupIds : name = "groupIds" → ∃ ids, v = Json.list .string ids
  boundElements : name = "boundElements" → ∃ entries, v = Json.list BoundElement.toJson entries

variable [Scalar S]

/-! ## The record of an element -/

/-- The fields of an element in its wire form. -/
def record (e : Element S) : Record S :=
  ("id", .string e.id) :: ("type", Json.named e.kind) :: (e.shape.fields ++ e.commonFields)

/-- No field is there twice. -/
theorem keys_nodup (e : Element S) : ((record e).map Prod.fst).Nodup := by
  rw [record]
  cases e.shape <;>
    simp [Shape.fields, TextBody.fields, Polyline.fields, Freehand.fields, Element.commonFields]

theorem mem_record_of_shape {e : Element S} {f : String × Json S} (h : f ∈ e.shape.fields) :
    f ∈ record e :=
  List.mem_cons_of_mem _ (List.mem_cons_of_mem _ (List.mem_append_left _ h))

theorem eq_of_mem_record {e : Element S} {name : String} {v w : Json S}
    (hv : (name, v) ∈ record e) (hw : (name, w) ∈ record e) : v = w :=
  (Prod.mk.inj (List.inj_on_of_nodup_map (keys_nodup e) hv hw rfl)).2

theorem fits_common (e : Element S) :
    ∀ f ∈ e.commonFields, f.2.isNull = false → Fits f.1 f.2 := by
  have hbound : ∀ entries? : Option (List BoundElement),
      (Json.option (Json.list BoundElement.toJson) entries? : Json S).isNull = false →
      ∃ entries, (Json.option (Json.list BoundElement.toJson) entries? : Json S) =
        Json.list BoundElement.toJson entries := by
    intro entries? h
    cases entries? with
    | none => cases h
    | some entries => exact ⟨entries, rfl⟩
  intro f hf hnull
  simp only [Element.commonFields, List.mem_cons, List.not_mem_nil, or_false] at hf
  -- one field after the other, and of each every type that its name may call for
  rcases hf with rfl | rfl | rfl | rfl | rfl | rfl | rfl | rfl | rfl | rfl | rfl | rfl | rfl |
    rfl | rfl | rfl | rfl | rfl | rfl | rfl | rfl | rfl | rfl
  all_goals
    constructor <;>
      simp_all [numericFields, colorFields, textFields, booleanFields]

theorem fits_shape (s : Shape S) : ∀ f ∈ s.fields, f.2.isNull = false → Fits f.1 f.2 := by
  intro f hf hnull
  cases s with
  | rectangle | ellipse | diamond => cases hf
  | text body =>
    simp only [Shape.fields, TextBody.fields, List.mem_cons, List.not_mem_nil, or_false] at hf
    rcases hf with rfl | rfl | rfl | rfl | rfl | rfl | rfl | rfl | rfl
    all_goals
      constructor <;>
        simp_all [numericFields, colorFields, textFields, booleanFields]
  | line path | arrow path =>
    simp only [Shape.fields, Polyline.fields, List.mem_cons, List.not_mem_nil, or_false] at hf
    rcases hf with rfl | rfl | rfl | rfl | rfl | rfl
    all_goals
      constructor <;>
        simp [numericFields, colorFields, textFields, booleanFields]
  | freedraw stroke =>
    simp only [Shape.fields, Freehand.fields, List.mem_cons, List.not_mem_nil, or_false] at hf
    rcases hf with rfl | rfl | rfl | rfl
    all_goals
      constructor <;>
        simp [numericFields, colorFields, textFields, booleanFields]

/-- **The wire form is well typed.** Every field is `null` or of the type that its
name calls for. -/
theorem fits_record {e : Element S} {name : String} {v : Json S} (h : (name, v) ∈ record e)
    (hnull : v.isNull = false) : Fits name v := by
  -- the id, the kind, what the kind carries, and what every kind has
  rcases List.mem_cons.mp h with h | h
  · cases h
    constructor <;> simp [numericFields, colorFields, textFields, booleanFields]
  rcases List.mem_cons.mp h with h | h
  · cases h
    constructor <;> simp [numericFields, colorFields, textFields, booleanFields]
  rcases List.mem_append.mp h with h | h
  · exact fits_shape e.shape _ h hnull
  · exact fits_common e _ h hnull

/-! ## Errors -/

theorem kindOf_record (e : Element S) : kindOf (record e) = some e.kind := by
  have htype : present? (record e) "type" = some (Json.named e.kind) :=
    present?_of_mem (keys_nodup e) (List.mem_cons_of_mem _ List.mem_cons_self) rfl
  rw [kindOf, htype, Option.bind_some]
  exact LawfulNamed.ofName?_name e.kind

theorem checkKind_record (e : Element S) : checkKind (record e) = [] := by
  have htype : present? (record e) "type" = some (Json.named e.kind) :=
    present?_of_mem (keys_nodup e) (List.mem_cons_of_mem _ List.mem_cons_self) rfl
  rw [checkKind, htype]
  simp only [Json.named, Json.string?, LawfulNamed.ofName?_name]

/-- The fields that must be there are there. -/
theorem checkRequired_record {e : Element S} (h : e.IsFinite) :
    requiredFields.flatMap (checkRequired (record e)) = [] := by
  have hthere : ∀ {name : String} {v : Json S}, (name, v) ∈ record e → v.isNull = false →
      checkRequired (record e) name = [] := fun hmem hnull =>
    checkRequired_eq_nil (present?_of_mem (keys_nodup e) hmem hnull)
  rw [List.flatMap_eq_nil_iff]
  intro name hname
  -- four of them are numbers, which must be finite to be there
  simp only [requiredFields, List.mem_cons, List.not_mem_nil, or_false] at hname
  rcases hname with rfl | rfl | rfl | rfl | rfl | rfl | rfl | rfl
  · exact hthere List.mem_cons_self rfl
  · exact hthere (List.mem_cons_of_mem _ List.mem_cons_self) rfl
  · exact hthere (v := Json.scalar e.x) (by simp [record, Element.commonFields]) (by simp [h.x])
  · exact hthere (v := Json.scalar e.y) (by simp [record, Element.commonFields]) (by simp [h.y])
  · exact hthere (v := Json.scalar e.width) (by simp [record, Element.commonFields])
      (by simp [h.width])
  · exact hthere (v := Json.scalar e.height) (by simp [record, Element.commonFields])
      (by simp [h.height])
  · exact hthere (v := Json.uint32 e.version) (by simp [record, Element.commonFields]) rfl
  · exact hthere (v := Json.uint32 e.seed) (by simp [record, Element.commonFields]) rfl

theorem checkGroupIds_record (e : Element S) : checkGroupIds (record e) = [] := by
  have hgroups : present? (record e) "groupIds" = some (Json.list .string e.groupIds) :=
    present?_of_mem (keys_nodup e) (by simp [record, Element.commonFields]) rfl
  rw [checkGroupIds, hgroups]
  show (eachItem (e.groupIds.map Json.string) _).map _ = []
  rw [eachItem_eq_nil, List.map_nil]
  intro item hitem
  obtain ⟨id, -, rfl⟩ := List.mem_map.mp hitem
  rfl

omit [Scalar S] in
theorem checkBoundElement_toJson (entry : BoundElement) :
    checkBoundElement (entry.toJson : Json S) = [] := by
  have hid : present? [("id", .string entry.id), ("type", Json.named entry.kind)] "id" =
      some (.string entry.id : Json S) := rfl
  have hkind : kindOf [("id", .string entry.id), ("type", (Json.named entry.kind : Json S))] =
      some entry.kind := LawfulNamed.ofName?_name entry.kind
  simp [checkBoundElement, BoundElement.toJson, Json.object?, hid, hkind]

theorem checkBoundElements_record (e : Element S) : checkBoundElements (record e) = [] := by
  rw [checkBoundElements]
  cases hv : present? (record e) "boundElements" with
  | none => rfl
  | some v =>
    obtain ⟨hmem, hnull⟩ := mem_of_present? hv
    obtain ⟨entries, rfl⟩ := (fits_record hmem hnull).boundElements rfl
    show (eachItem (entries.map BoundElement.toJson) checkBoundElement).map _ = []
    rw [eachItem_eq_nil, List.map_nil]
    intro item hitem
    obtain ⟨entry, -, rfl⟩ := List.mem_map.mp hitem
    exact checkBoundElement_toJson entry

/-! ## What the kind asks for -/

theorem isPoint_point {p : Point S} (h : p.IsFinite) : isPoint (Json.point p) = true := by
  simp [Json.point, isPoint, h.1, h.2]

theorem checkArrowhead_record {e : Element S} {name : String} {head? : Option Drawing.Arrowhead}
    (h : (name, Json.option Json.named head?) ∈ record e) :
    checkNamed Drawing.Arrowhead (record e) name = [] := by
  refine checkNamed_eq_nil fun v hv hnull => ?_
  obtain rfl := eq_of_mem_record h hv
  cases head? with
  | none => cases hnull
  | some head => exact ⟨head, rfl⟩

theorem checkBinding_record {e : Element S} {name : String} {b? : Option (Drawing.Binding S)}
    (h : (name, Json.option Drawing.Binding.toJson b?) ∈ record e) :
    checkBinding (record e) name = [] := by
  rw [checkBinding]
  -- an end that is not attached is `null`, which counts as missing
  cases hv : present? (record e) name with
  | none => rfl
  | some v =>
    obtain ⟨hmem, hnull⟩ := mem_of_present? hv
    obtain rfl := eq_of_mem_record h hmem
    cases b? with
    | none => cases hnull
    | some b =>
      -- a binding is audited as a record of its own
      have hid : present? [("elementId", .string b.elementId), ("focus", Json.scalar b.focus),
          ("gap", Json.scalar b.gap)] "elementId" = some (.string b.elementId) := rfl
      have hnumber : ∀ name ∈ ["focus", "gap"], checkType [("elementId", .string b.elementId),
          ("focus", Json.scalar b.focus), ("gap", Json.scalar b.gap)] Json.isNumber .number name =
          [] := by
        intro name hname
        refine checkType_eq_nil fun v hv hnull => ?_
        simp only [List.mem_cons, List.not_mem_nil, or_false, Prod.mk.injEq] at hname hv
        rcases hv with ⟨rfl, rfl⟩ | ⟨rfl, rfl⟩ | ⟨rfl, rfl⟩
        · simp at hname
        · simpa using hnull
        · simpa using hnull
      simp [Json.option, Drawing.Binding.toJson, Json.object?, hid,
        List.flatMap_eq_nil_iff.mpr hnumber]

/-- The rules for lines and arrows. -/
theorem checkPolyline_record {e : Element S} {path : Polyline S} (h : path.IsFinite)
    (hfields : e.shape.fields = path.fields) :
    checkPoints (record e) true ++
      ["startArrowhead", "endArrowhead"].flatMap (checkNamed Drawing.Arrowhead (record e)) ++
      ["startBinding", "endBinding"].flatMap (checkBinding (record e)) = [] := by
  have hmem : ∀ {f : String × Json S}, f ∈ path.fields → f ∈ record e := fun hf =>
    mem_record_of_shape (by rw [hfields]; exact hf)
  have hpoints : present? (record e) "points" = some (Json.list Json.point path.points) :=
    present?_of_mem (keys_nodup e) (hmem (by simp [Polyline.fields])) rfl
  have hpairs : checkPoints (record e) true = [] := by
    rw [checkPoints, hpoints]
    show (eachItem (path.points.map Json.point) _).map _ = []
    rw [eachItem_eq_nil, List.map_nil]
    intro item hitem
    obtain ⟨p, hp, rfl⟩ := List.mem_map.mp hitem
    rw [if_pos (isPoint_point (h.points p hp))]
  have hstart : ("startArrowhead", Json.option Json.named path.startArrowhead) ∈ record e :=
    hmem (by simp [Polyline.fields])
  have hend : ("endArrowhead", Json.option Json.named path.endArrowhead) ∈ record e :=
    hmem (by simp [Polyline.fields])
  have hfrom : ("startBinding", Json.option Drawing.Binding.toJson path.startBinding) ∈ record e :=
    hmem (by simp [Polyline.fields])
  have hto : ("endBinding", Json.option Drawing.Binding.toJson path.endBinding) ∈ record e :=
    hmem (by simp [Polyline.fields])
  simp [hpairs, checkArrowhead_record hstart, checkArrowhead_record hend,
    checkBinding_record hfrom, checkBinding_record hto]

theorem checkPayload_record {e : Element S} (h : e.IsFinite) :
    checkPayload (record e) (some e.kind) = [] := by
  have hshape := h.shape
  have hmem : ∀ {f : String × Json S}, f ∈ e.shape.fields → f ∈ record e := mem_record_of_shape
  rw [Element.kind]
  cases he : e.shape with
  | rectangle | ellipse | diamond => rfl
  | text body =>
    rw [he] at hmem
    have htext : present? (record e) "text" = some (.string body.text) :=
      present?_of_mem (keys_nodup e) (hmem (by simp [Shape.fields, TextBody.fields])) rfl
    show checkText (record e) = []
    rw [checkText, htext]
    rfl
  | line path | arrow path =>
    rw [he] at hshape
    exact checkPolyline_record hshape (by rw [he]; rfl)
  | freedraw stroke =>
    rw [he] at hshape hmem
    have hpoints : present? (record e) "points" = some (Json.list Json.point stroke.points) :=
      present?_of_mem (keys_nodup e) (hmem (by simp [Shape.fields, Freehand.fields])) rfl
    have hpressures : present? (record e) "pressures" =
        some (Json.list Json.scalar stroke.pressures) :=
      present?_of_mem (keys_nodup e) (hmem (by simp [Shape.fields, Freehand.fields])) rfl
    have hall : (stroke.pressures.map Json.scalar).all Json.isNumber = true := by
      rw [List.all_map, List.all_eq_true]
      intro pressure hp
      simpa using hshape.pressures pressure hp
    show checkPoints (record e) false ++ checkPressures (record e) = []
    rw [checkPoints, hpoints, checkPressures, hpressures]
    show [] ++ (if (stroke.pressures.map Json.scalar).all Json.isNumber = true then [] else _) = _
    rw [if_pos hall, List.nil_append]

/-! ## The element -/

/-- **No errors.** The wire form of an element with finite numbers passes every
check that is not about references. -/
theorem errors_toJson {e : Element S} (h : e.IsFinite) : (element e.toJson).errors = [] := by
  have htype : ∀ (names : List String) (test : Json S → Bool) (expected : Expected),
      (∀ name ∈ names, ∀ v, Fits name v → test v = true) →
      names.flatMap (checkType (record e) test expected) = [] := by
    intro names test expected htest
    rw [List.flatMap_eq_nil_iff]
    intro name hname
    exact checkType_eq_nil fun v hv hnull => htest name hname v (fits_record hv hnull)
  have hid : checkType (record e) Json.isString .string "id" = [] :=
    checkType_eq_nil fun v hv hnull => (fits_record hv hnull).string List.mem_cons_self
  have hnumbers := htype numericFields Json.isNumber .number
    fun name hname v hv => hv.number hname
  have hcolors := htype colorFields Json.isString .colorString
    fun name hname v hv => hv.string (List.mem_cons_of_mem _ (List.mem_append_left _ hname))
  have hbooleans := htype booleanFields Json.isBool .boolean
    fun name hname v hv => hv.boolean hname
  have htexts := htype textFields Json.isString .stringOrNull
    fun name hname v hv => hv.string (List.mem_cons_of_mem _ (List.mem_append_right _ hname))
  have hfill : checkNamed Drawing.FillStyle (record e) "fillStyle" = [] :=
    checkNamed_eq_nil fun v hv hnull => (fits_record hv hnull).fillStyle rfl
  have hstroke : checkNamed Drawing.StrokeStyle (record e) "strokeStyle" = [] :=
    checkNamed_eq_nil fun v hv hnull => (fits_record hv hnull).strokeStyle rfl
  have hhorizontal : checkNamed Drawing.TextAlign (record e) "textAlign" = [] :=
    checkNamed_eq_nil fun v hv hnull => (fits_record hv hnull).textAlign rfl
  have hvertical : checkNamed Drawing.VerticalAlign (record e) "verticalAlign" = [] :=
    checkNamed_eq_nil fun v hv hnull => (fits_record hv hnull).verticalAlign rfl
  -- the rules in the order in which they report
  show recordErrors (record e) = []
  rw [recordErrors, checkRequired_record h, checkKind_record, hfill, hstroke, hhorizontal,
    hvertical, hid, hnumbers, hcolors, hbooleans, checkGroupIds_record, htexts,
    checkBoundElements_record, kindOf_record, checkPayload_record h]
  rfl

/-! ## Warnings -/

theorem scalar?_opacity (e : Element S) :
    scalar? (record e) "opacity" = some (Scalar.ofInt e.opacity.toNat) := by
  have hopacity : present? (record e) "opacity" = some (Json.uint8 e.opacity) :=
    present?_of_mem (keys_nodup e) (by simp [record, Element.commonFields]) rfl
  rw [scalar?, hopacity]
  rfl

theorem scalar?_angle {e : Element S} (h : Scalar.isFinite e.angle = true) :
    scalar? (record e) "angle" = some e.angle := by
  have hangle : present? (record e) "angle" = some (Json.scalar e.angle) :=
    present?_of_mem (keys_nodup e) (by simp [record, Element.commonFields]) (by simp [h])
  rw [scalar?, hangle, Json.scalar, if_pos h]
  rfl

end Audit

end Whiteboard
