import Whiteboard.Proofs.Audit.Records

/-!
# Whiteboard — the format that an audit accepts

What a JSON value must be like to be a document, said field by field and without the
audit: which fields must be there, which may be absent or `null`, and of what type each
is. A field that the format does not name may hold anything.

Main results:

* `recordErrors_eq_nil_iff` — the audit of an element accepts exactly the elements of
  the format.
* `valid_document_iff` — and that of a document exactly the documents.
-/

namespace Whiteboard

open Audit (Record)

variable {S : Type}

/-! ## The format -/

namespace Format

def IsString (v : Json S) : Prop := ∃ s, v = .string s

def IsNumber (v : Json S) : Prop := ∃ n, v = .number n

def IsBool (v : Json S) : Prop := ∃ b, v = .bool b

/-- A string that names a member of a closed set. -/
def IsName (α : Type) [Named α] (v : Json S) : Prop := ∃ a : α, v = .string (Named.name a)

/-- An array whose items are all of one form. -/
def IsArray (IsItem : Json S → Prop) (v : Json S) : Prop :=
  ∃ items, v = .array items ∧ ∀ item ∈ items, IsItem item

/-- An object with fields as they must be. -/
def IsObject (Fields : Record S → Prop) (v : Json S) : Prop :=
  ∃ fields, v = .object fields ∧ Fields fields

/-- A field that is there, is not `null` and is as it must be. -/
def Has (el : Record S) (name : String) (Is : Json S → Prop) : Prop :=
  ∃ v, Json.field? name el = some v ∧ v ≠ .null ∧ Is v

/-- A field that is absent, `null` or as it must be. -/
def MayHave (el : Record S) (name : String) (Is : Json S → Prop) : Prop :=
  ∀ v, Json.field? name el = some v → v = .null ∨ Is v

/-- An entry of the connectors attached to an element. -/
def IsBoundElement : Json S → Prop :=
  IsObject fun r => Has r "id" IsString ∧ Has r "type" (IsName Drawing.Kind)

/-- An end of a connector. -/
def IsBinding : Json S → Prop :=
  IsObject fun r =>
    Has r "elementId" IsString ∧ MayHave r "focus" IsNumber ∧ MayHave r "gap" IsNumber

/-- A point is an array of two numbers. -/
def IsPoint (v : Json S) : Prop := ∃ x y, v = .array [.number x, .number y]

/-- What lines and arrows have. -/
structure PolylineFields (el : Record S) : Prop where
  points : Has el "points" (IsArray IsPoint)
  arrowheads : ∀ name ∈ ["startArrowhead", "endArrowhead"],
    MayHave el name (IsName Drawing.Arrowhead)
  bindings : ∀ name ∈ ["startBinding", "endBinding"], MayHave el name IsBinding

/-- What freehand strokes have. Their points may be anything. -/
structure FreehandFields (el : Record S) : Prop where
  points : Has el "points" (IsArray fun _ => True)
  pressures : MayHave el "pressures" (IsArray IsNumber)

/-- What the kind of an element asks for. -/
def KindFields (el : Record S) : Drawing.Kind → Prop
  | .text => Has el "text" IsString
  | .line | .arrow => PolylineFields el
  | .freedraw => FreehandFields el
  | _ => True

/-- The fields of an element. -/
structure ElementFields (el : Record S) : Prop where
  id : Has el "id" IsString
  kind : Has el "type" (IsName Drawing.Kind)
  requiredNumbers : ∀ name ∈ ["x", "y", "width", "height", "version", "seed"],
    Has el name IsNumber
  otherNumbers : ∀ name ∈ ["angle", "strokeWidth", "roughness", "opacity", "versionNonce",
    "updated", "fontSize", "fontFamily", "lineHeight"], MayHave el name IsNumber
  colors : ∀ name ∈ ["strokeColor", "backgroundColor"], MayHave el name IsString
  flags : ∀ name ∈ ["isDeleted", "locked"], MayHave el name IsBool
  texts : ∀ name ∈ ["frameId", "link"], MayHave el name IsString
  fillStyle : MayHave el "fillStyle" (IsName Drawing.FillStyle)
  strokeStyle : MayHave el "strokeStyle" (IsName Drawing.StrokeStyle)
  textAlign : MayHave el "textAlign" (IsName Drawing.TextAlign)
  verticalAlign : MayHave el "verticalAlign" (IsName Drawing.VerticalAlign)
  groupIds : MayHave el "groupIds" (IsArray IsString)
  boundElements : MayHave el "boundElements" (IsArray IsBoundElement)
  ofKind : ∀ kind, Has el "type" (· = .string (Named.name kind)) → KindFields el kind

/-- The state that a viewer keeps. -/
def IsAppState : Json S → Prop :=
  IsObject fun r => MayHave r "viewBackgroundColor" IsString ∧ MayHave r "gridSize" IsNumber

/-- The fields of a document. -/
structure DocumentFields (doc : Record S) : Prop where
  format : Has doc "type" (· = .string "excalidraw")
  version : Has doc "version" IsNumber
  source : MayHave doc "source" IsString
  elements : Has doc "elements" (IsArray (IsObject ElementFields))
  appState : MayHave doc "appState" IsAppState
  files : MayHave doc "files" (IsObject fun _ => True)

/-- A document in the format. -/
def IsDocument : Json S → Prop := IsObject DocumentFields

end Format

/-! ## Fields -/

namespace Audit

open Format

theorem isNull_eq_false_iff {v : Json S} : v.isNull = false ↔ v ≠ .null := by
  cases v <;> simp [Json.isNull]

theorem present?_eq_some_iff {el : Record S} {name : String} {v : Json S} :
    present? el name = some v ↔ Json.field? name el = some v ∧ v ≠ .null := by
  rw [present?, Option.filter_eq_some_iff, ← isNull_eq_false_iff]
  simp

/-- A field must be there: the audit's look-up finds it, as it must be. -/
theorem has_iff {el : Record S} {name : String} {Is : Json S → Prop} :
    Has el name Is ↔ ∃ v, present? el name = some v ∧ Is v := by
  simp only [Has, present?_eq_some_iff, and_assoc]

/-- A field may be there: whatever the audit's look-up finds is as it must be. -/
theorem mayHave_iff {el : Record S} {name : String} {Is : Json S → Prop} :
    MayHave el name Is ↔ ∀ v, present? el name = some v → Is v := by
  simp only [MayHave, present?_eq_some_iff]
  constructor
  · rintro h v ⟨hfield, hnull⟩
    exact (h v hfield).resolve_left hnull
  · intro h v hfield
    by_cases hnull : v = .null
    · exact Or.inl hnull
    · exact Or.inr (h v ⟨hfield, hnull⟩)

theorem mayHave_of_has {el : Record S} {name : String} {Is : Json S → Prop} (h : Has el name Is) :
    MayHave el name Is := by
  obtain ⟨v, hv, hnull, his⟩ := h
  intro w hw
  rw [hv, Option.some.injEq] at hw
  exact Or.inr (hw ▸ his)

/-- A field that is there and, if it is, is as it must be. -/
theorem has_of_mayHave {el : Record S} {name : String} {Is : Json S → Prop}
    (hthere : checkRequired el name = []) (h : MayHave el name Is) : Has el name Is := by
  obtain ⟨v, hv⟩ := checkRequired_eq_nil_iff.mp hthere
  exact has_iff.mpr ⟨v, hv, mayHave_iff.mp h v hv⟩

theorem checkRequired_of_has {el : Record S} {name : String} {Is : Json S → Prop}
    (h : Has el name Is) : checkRequired el name = [] := by
  obtain ⟨v, hv, -⟩ := has_iff.mp h
  exact checkRequired_eq_nil hv

/-! ## Types -/

theorem isString_iff {v : Json S} : v.isString = true ↔ IsString v := by
  cases v <;> simp [IsString, Json.isString, Json.string?]

theorem isNumber_iff {v : Json S} : v.isNumber = true ↔ IsNumber v := by
  cases v <;> simp [IsNumber, Json.isNumber]

theorem isBool_iff {v : Json S} : v.isBool = true ↔ IsBool v := by
  cases v <;> simp [IsBool, Json.isBool]

/-- A field passes a test for a type exactly if it may be there. -/
theorem checkType_iff {el : Record S} {test : Json S → Bool} {expected : Expected}
    {name : String} {Is : Json S → Prop} (htest : ∀ v, test v = true ↔ Is v) :
    checkType el test expected name = [] ↔ MayHave el name Is := by
  rw [checkType_eq_nil_iff, mayHave_iff]
  simp only [htest]

theorem checkNamed_iff {α : Type} [Named α] [LawfulNamed α] {el : Record S} {name : String} :
    checkNamed α el name = [] ↔ MayHave el name (IsName α) := by
  rw [checkNamed_eq_nil_iff, mayHave_iff]
  rfl

theorem checkKind_iff {el : Record S} :
    checkKind el = [] ↔ MayHave el "type" (IsName Drawing.Kind) := by
  -- a kind is looked up as any name is; only the words of the error differ
  have hnamed : checkKind el = [] ↔ checkNamed Drawing.Kind el "type" = [] := by
    rw [checkKind, checkNamed]
    cases present? el "type" with
    | none => rfl
    | some v =>
      cases hv : v.string? with
      | none => simp [hv]
      | some s => cases hs : (Named.ofName? s : Option Drawing.Kind) <;> simp [hv, hs]
  rw [hnamed, checkNamed_iff]

/-! ## Lists and records -/

theorem checkGroupIds_iff {el : Record S} :
    checkGroupIds el = [] ↔ MayHave el "groupIds" (IsArray IsString) := by
  rw [checkGroupIds, mayHave_iff]
  cases present? el "groupIds" with
  | none => simp
  | some v =>
    cases v with
    | array groups =>
      simp [Json.array?, IsArray, eachItem_eq_nil_iff, isString_iff]
    | _ => simp [Json.array?, IsArray]

theorem kindOf_isSome_iff {el : Record S} :
    (kindOf el).isSome = true ↔ Has el "type" (IsName Drawing.Kind) := by
  rw [has_iff, kindOf]
  cases present? el "type" with
  | none => simp
  | some v =>
    cases v with
    | string s =>
      simp only [Option.bind_some, Json.string?, isSome_ofName?_iff, Option.some.injEq,
        exists_eq_left', IsName, Json.string.injEq]
      exact exists_congr fun kind => eq_comm
    | _ => simp [IsName, Json.string?]

/-- A field that is there and is a text. -/
theorem map_isString_iff {el : Record S} {name : String} :
    ((present? el name).map Json.isString).getD false = true ↔ Has el name IsString := by
  rw [has_iff]
  cases present? el name <;> simp [isString_iff]

theorem checkBoundElement_iff {v : Json S} : checkBoundElement v = [] ↔ IsBoundElement v := by
  cases v with
  | object entry =>
    simp [checkBoundElement, Json.object?, IsBoundElement, IsObject, map_isString_iff,
      kindOf_isSome_iff]
  | _ => simp [checkBoundElement, Json.object?, IsBoundElement, IsObject]

theorem checkBoundElements_iff {el : Record S} :
    checkBoundElements el = [] ↔ MayHave el "boundElements" (IsArray IsBoundElement) := by
  rw [checkBoundElements, mayHave_iff]
  cases present? el "boundElements" with
  | none => simp
  | some v =>
    cases v with
    | array entries =>
      simp [Json.array?, IsArray, eachItem_eq_nil_iff, checkBoundElement_iff]
    | _ => simp [Json.array?, IsArray]

/-! ## What the kind asks for -/

theorem checkText_iff {el : Record S} : checkText el = [] ↔ Has el "text" IsString := by
  rw [checkText, ← map_isString_iff]
  simp

theorem isPoint_iff {v : Json S} : isPoint v = true ↔ IsPoint v := by
  unfold isPoint
  split
  · rename_i x y
    rw [Bool.and_eq_true, isNumber_iff, isNumber_iff]
    simp [IsPoint, IsNumber]
  · rename_i hno
    simp only [Bool.false_eq_true, false_iff]
    rintro ⟨x, y, rfl⟩
    exact hno _ _ rfl

/-- The points are an array; where they must be pairs, of points. -/
theorem checkPoints_iff {el : Record S} {pairs : Bool} :
    checkPoints el pairs = [] ↔ Has el "points" (IsArray fun p => pairs = true → IsPoint p) := by
  rw [checkPoints, has_iff]
  cases present? el "points" with
  | none => simp
  | some v =>
    cases v with
    | array points =>
      cases pairs <;> simp [Json.array?, IsArray, eachItem_eq_nil_iff, isPoint_iff]
    | _ => simp [Json.array?, IsArray]

theorem checkBinding_iff {el : Record S} {name : String} :
    checkBinding el name = [] ↔ MayHave el name IsBinding := by
  rw [checkBinding, mayHave_iff]
  cases present? el name with
  | none => simp
  | some v =>
    cases v with
    | object binding =>
      simp [Json.object?, IsBinding, IsObject, map_isString_iff, checkType_iff (@isNumber_iff S)]
    | _ => simp [Json.object?, IsBinding, IsObject]

theorem checkPressures_iff {el : Record S} :
    checkPressures el = [] ↔ MayHave el "pressures" (IsArray IsNumber) := by
  rw [checkPressures, mayHave_iff]
  cases present? el "pressures" with
  | none => simp
  | some v =>
    cases v with
    | array values =>
      simp [Json.array?, IsArray, isNumber_iff]
    | _ => simp [Json.array?, IsArray]

theorem checkPayload_iff {el : Record S} (kind : Drawing.Kind) :
    checkPayload el (some kind) = [] ↔ KindFields el kind := by
  have hpolyline : checkPoints el true ++
      ["startArrowhead", "endArrowhead"].flatMap (checkNamed Drawing.Arrowhead el) ++
      ["startBinding", "endBinding"].flatMap (checkBinding el) = [] ↔ PolylineFields el := by
    simp only [List.append_eq_nil_iff, List.flatMap_eq_nil_iff, checkPoints_iff, checkNamed_iff,
      checkBinding_iff, forall_const]
    exact ⟨fun ⟨⟨hp, ha⟩, hb⟩ => ⟨hp, ha, hb⟩, fun h => ⟨⟨h.points, h.arrowheads⟩, h.bindings⟩⟩
  have hfreehand : checkPoints el false ++ checkPressures el = [] ↔ FreehandFields el := by
    simp only [List.append_eq_nil_iff, checkPoints_iff, checkPressures_iff, Bool.false_eq_true,
      false_imp_iff]
    exact ⟨fun ⟨hp, hr⟩ => ⟨hp, hr⟩, fun h => ⟨h.points, h.pressures⟩⟩
  cases kind with
  | text => exact checkText_iff
  | line | arrow => exact hpolyline
  | freedraw => exact hfreehand
  | _ => exact iff_of_true rfl trivial

/-! ## Elements -/

theorem kindOf_eq_some_iff {el : Record S} {kind : Drawing.Kind} :
    kindOf el = some kind ↔ Has el "type" (· = .string (Named.name kind)) := by
  rw [has_iff, kindOf]
  cases present? el "type" with
  | none => simp
  | some v =>
    cases v with
    | string s =>
      simp only [Option.bind_some, Json.string?, Option.some.injEq, exists_eq_left',
        Json.string.injEq]
      constructor
      · intro h
        exact (beq_iff_eq.mp (List.find?_some h :)).symm
      · rintro rfl
        exact LawfulNamed.ofName?_name kind
    | _ => simp [Json.string?]

theorem checkType_fields_iff {el : Record S} {names : List String} {test : Json S → Bool}
    {expected : Expected} {Is : Json S → Prop} (htest : ∀ v, test v = true ↔ Is v) :
    names.flatMap (checkType el test expected) = [] ↔ ∀ name ∈ names, MayHave el name Is := by
  simp only [List.flatMap_eq_nil_iff, checkType_iff htest]

/-- **Elements.** The audit of an element finds no error exactly if its fields are those
of the format. -/
theorem recordErrors_eq_nil_iff {el : Record S} : recordErrors el = [] ↔ ElementFields el := by
  simp only [recordErrors, List.append_eq_nil_iff, checkKind_iff, checkNamed_iff,
    checkType_iff (@isString_iff S), checkType_fields_iff (@isString_iff S),
    checkType_fields_iff (@isNumber_iff S), checkType_fields_iff (@isBool_iff S),
    checkGroupIds_iff, checkBoundElements_iff, List.flatMap_eq_nil_iff]
  constructor
  · rintro ⟨⟨⟨⟨⟨⟨⟨⟨⟨⟨⟨⟨⟨hrequired, hkind⟩, hfill⟩, hstroke⟩, hhorizontal⟩, hvertical⟩, hid⟩,
      hnumbers⟩, hcolors⟩, hflags⟩, hgroups⟩, htexts⟩, hbound⟩, hpayload⟩
    have hthere : ∀ {name : String} {Is : Json S → Prop}, name ∈ requiredFields →
        MayHave el name Is → Has el name Is := fun hname h => has_of_mayHave (hrequired _ hname) h
    exact {
      id := hthere (by decide) hid
      kind := hthere (by decide) hkind
      requiredNumbers := fun name hname =>
        hthere (by revert name; decide) (hnumbers name (by revert name; decide))
      otherNumbers := fun name hname => hnumbers name (by revert name; decide)
      colors := hcolors
      flags := hflags
      texts := htexts
      fillStyle := hfill
      strokeStyle := hstroke
      textAlign := hhorizontal
      verticalAlign := hvertical
      groupIds := hgroups
      boundElements := hbound
      ofKind := fun kind h => by
        rw [kindOf_eq_some_iff.mpr h] at hpayload
        exact (checkPayload_iff kind).mp hpayload }
  · intro h
    obtain ⟨kind, hkind⟩ := Option.isSome_iff_exists.mp (kindOf_isSome_iff.mpr h.kind)
    have hpayload : checkPayload el (kindOf el) = [] := by
      rw [hkind]
      exact (checkPayload_iff kind).mpr (h.ofKind kind (kindOf_eq_some_iff.mp hkind))
    -- what must be there is the id, the kind and six numbers
    have hrequired : ∀ name ∈ requiredFields, checkRequired el name = [] := by
      intro name hname
      have hname' : name = "id" ∨ name = "type" ∨
          name ∈ ["x", "y", "width", "height", "version", "seed"] := by
        revert name
        decide
      rcases hname' with rfl | rfl | hnumber
      · exact checkRequired_of_has h.id
      · exact checkRequired_of_has h.kind
      · exact checkRequired_of_has (h.requiredNumbers name hnumber)
    have hnumbers : ∀ name ∈ numericFields, MayHave el name IsNumber := by
      intro name hname
      have hname' : name ∈ ["x", "y", "width", "height", "version", "seed"] ∨
          name ∈ ["angle", "strokeWidth", "roughness", "opacity", "versionNonce", "updated",
            "fontSize", "fontFamily", "lineHeight"] := by
        revert name
        decide
      rcases hname' with hname | hname
      · exact mayHave_of_has (h.requiredNumbers name hname)
      · exact h.otherNumbers name hname
    exact ⟨⟨⟨⟨⟨⟨⟨⟨⟨⟨⟨⟨⟨hrequired, mayHave_of_has h.kind⟩, h.fillStyle⟩, h.strokeStyle⟩,
      h.textAlign⟩, h.verticalAlign⟩, mayHave_of_has h.id⟩, hnumbers⟩, h.colors⟩, h.flags⟩,
      h.groupIds⟩, h.texts⟩, h.boundElements⟩, hpayload⟩

/-! ## Documents -/

theorem checkFormat_iff {doc : Record S} :
    checkFormat doc = [] ↔ Has doc "type" (· = .string "excalidraw") := by
  rw [checkFormat, has_iff]
  cases present? doc "type" with
  | none => simp
  | some v => cases v <;> simp [Json.string?, Drawing.formatTag]

theorem checkVersion_iff {doc : Record S} :
    checkVersion doc = [] ↔ Has doc "version" IsNumber := by
  rw [checkVersion, has_iff]
  cases present? doc "version" with
  | none => simp
  | some v => simp [isNumber_iff]

theorem checkAppState_iff {doc : Record S} :
    checkAppState doc = [] ↔ MayHave doc "appState" IsAppState := by
  rw [checkAppState, mayHave_iff]
  cases present? doc "appState" with
  | none => simp
  | some v =>
    cases v with
    | object state =>
      simp [Json.object?, IsAppState, IsObject, checkType_iff (@isString_iff S),
        checkType_iff (@isNumber_iff S)]
    | _ => simp [Json.object?, IsAppState, IsObject]

theorem isObject_iff {v : Json S} : isObject v = true ↔ IsObject (fun _ => True) v := by
  cases v <;> simp [isObject, IsObject, Json.object?]

variable [Scalar S]

theorem errors_element_iff {v : Json S} :
    (element v).errors = [] ↔ IsObject ElementFields v := by
  cases v with
  | object el => simp [element, Json.object?, IsObject, recordErrors_eq_nil_iff]
  | _ => simp [element, Json.object?, IsObject]

theorem elementsErrors_iff {doc : Record S} :
    elementsErrors doc = [] ↔ Has doc "elements" (IsArray (IsObject ElementFields)) := by
  rw [elementsErrors, has_iff]
  cases present? doc "elements" with
  | none => simp
  | some v =>
    cases v with
    | array elements =>
      -- the place of an element does not matter
      have hreports : (elementReports elements).flatMap Report.errors = [] ↔
          ∀ v ∈ elements, (element v).errors = [] := by
        have heach : eachItem elements (fun v => (element v).errors) = [] ↔
            ∀ v ∈ elements, (element v).errors = [] := eachItem_eq_nil_iff
        rw [← heach, eachItem, elementReports, List.flatMap_map, List.flatMap_eq_nil_iff,
          List.flatMap_eq_nil_iff]
        simp [elementAt, Report.under]
      simp [Json.array?, IsArray, hreports, errors_element_iff]
    | _ => simp [Json.array?, IsArray]

/-- **Documents.** A JSON value is valid exactly if it is a document in the format. -/
theorem valid_document_iff (v : Json S) : (document v).valid = true ↔ IsDocument v := by
  cases v with
  | object doc =>
    have hfields : (document (.object doc)).errors = [] ↔ DocumentFields doc := by
      simp only [document, Json.object?, headerErrors, trailerErrors, List.append_eq_nil_iff,
        checkFormat_iff, checkVersion_iff, checkType_iff (@isString_iff S), elementsErrors_iff,
        checkAppState_iff, checkType_iff (@isObject_iff S)]
      exact ⟨fun ⟨⟨⟨⟨hf, hv⟩, hs⟩, he⟩, ha, hfs⟩ => ⟨hf, hv, hs, he, ha, hfs⟩,
        fun h => ⟨⟨⟨⟨h.format, h.version⟩, h.source⟩, h.elements⟩, h.appState, h.files⟩⟩
    simp [Report.valid, hfields, IsDocument, IsObject]
  | _ => simp [document, Json.object?, Report.valid, IsDocument, IsObject]

end Audit

end Whiteboard
