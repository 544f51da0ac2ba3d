import Whiteboard.Proofs.Audit.Distinct

/-!
# Whiteboard — what is said of the fields of an element

The errors of an element come rule by rule. Taken field by field instead, they are of two
sorts: a field must be there, and its value must be of some form. Of the value no more than
one rule speaks, and none where the field must be there and is missing.

Main results:

* `recordErrors_eq` — the errors of an element, field by field.
* `byField_valueParts` — of the value of a field one rule speaks, at distinct places.
* `apart_required_value` — of a missing field it is said once that it is missing.
-/

namespace Whiteboard.Audit

variable {S : Type}

/-! ## Rules about one field -/

theorem about_checkRequired {el : Record S} {name : String} (hname : (Step.key name).Plain) :
    About name (checkRequired el name) := by
  unfold checkRequired
  split
  · exact about_nil name
  · exact about_atField hname _

theorem about_checkType {el : Record S} {test : Json S → Bool} {expected : Expected}
    {name : String} (hname : (Step.key name).Plain) :
    About name (checkType el test expected name) := by
  unfold checkType
  split
  · split
    · exact about_nil name
    · exact about_atField hname _
  · exact about_nil name

theorem about_checkNamed {α : Type} [Named α] {el : Record S} {name : String}
    (hname : (Step.key name).Plain) : About name (checkNamed α el name) := by
  unfold checkNamed
  split
  · exact about_nil name
  · split
    · exact about_atField hname _
    · split
      · exact about_nil name
      · exact about_atField hname _

theorem about_checkKind (el : Record S) : About "type" (checkKind el) := by
  have htype : (Step.key "type").Plain := by decide
  unfold checkKind
  split
  · exact about_nil _
  · split
    · exact about_atField htype _
    · split
      · exact about_nil _
      · exact about_atField htype _

theorem about_checkGroupIds (el : Record S) : About "groupIds" (checkGroupIds el) := by
  have hname : (Step.key "groupIds").Plain := by decide
  unfold checkGroupIds
  split
  · exact about_nil _
  · split
    · exact about_atField hname _
    · refine about_under hname (distinct_eachItem fun g _ => ?_)
      split
      · exact .nil
      · exact distinct_singleton (by simp)

/-- What is said of the fields of an entry of the attached connectors. -/
def entryParts (entry : Record S) : List (String × List (Finding S)) :=
  [("id", if ((present? entry "id").map Json.isString).getD false then []
      else [atField "id" .boundElementWithoutId]),
    ("type", if (kindOf entry).isSome then [] else [atField "type" .boundElementWithoutKind])]

theorem byField_entryParts (entry : Record S) : ByField (entryParts entry) := by
  refine ⟨by simp [entryParts], ?_⟩
  simp only [entryParts, List.forall_mem_cons, List.not_mem_nil, false_imp_iff, implies_true,
    and_true]
  constructor
  · split
    · exact about_nil _
    · exact about_atField (by decide) _
  · split
    · exact about_nil _
    · exact about_atField (by decide) _

theorem checkBoundElement_object (entry : Record S) :
    checkBoundElement (.object entry) = (entryParts entry).flatMap Prod.snd := by
  simp [checkBoundElement, Json.object?, entryParts]

theorem distinct_checkBoundElement (v : Json S) : Distinct (checkBoundElement v) := by
  cases v with
  | object entry =>
    rw [checkBoundElement_object]
    exact (byField_entryParts entry).distinct
  | _ => exact distinct_singleton (by simp)

theorem about_checkBoundElements (el : Record S) :
    About "boundElements" (checkBoundElements el) := by
  have hname : (Step.key "boundElements").Plain := by decide
  unfold checkBoundElements
  split
  · exact about_nil _
  · split
    · exact about_atField hname _
    · exact about_under hname (distinct_eachItem fun v _ => distinct_checkBoundElement v)

theorem about_checkText (el : Record S) : About "text" (checkText el) := by
  unfold checkText
  split
  · exact about_nil _
  · exact about_atField (by decide) _

theorem about_checkPoints (el : Record S) (pairs : Bool) :
    About "points" (checkPoints el pairs) := by
  have hname : (Step.key "points").Plain := by decide
  unfold checkPoints
  split
  · exact about_atField hname _
  · split
    · refine about_under hname (distinct_eachItem fun p _ => ?_)
      split
      · exact .nil
      · exact distinct_singleton (by simp)
    · exact about_nil _

/-- What is said of the fields of a binding. -/
def bindingParts (binding : Record S) : List (String × List (Finding S)) :=
  [("elementId", if ((present? binding "elementId").map Json.isString).getD false then []
      else [atField "elementId" .bindingWithoutElement]),
    ("focus", checkType binding Json.isNumber .number "focus"),
    ("gap", checkType binding Json.isNumber .number "gap")]

theorem byField_bindingParts (binding : Record S) : ByField (bindingParts binding) := by
  refine ⟨by simp [bindingParts], ?_⟩
  simp only [bindingParts, List.forall_mem_cons, List.not_mem_nil, false_imp_iff, implies_true,
    and_true]
  refine ⟨?_, about_checkType (by decide), about_checkType (by decide)⟩
  split
  · exact about_nil _
  · exact about_atField (by decide) _

theorem checkBinding_of_object {el : Record S} {name : String} {binding : Record S}
    (h : present? el name = some (.object binding)) :
    checkBinding el name =
      ((bindingParts binding).flatMap Prod.snd).map (.under [.key name]) := by
  rw [checkBinding, h]
  simp [Json.object?, bindingParts]

theorem about_checkBinding {el : Record S} {name : String} (hname : (Step.key name).Plain) :
    About name (checkBinding el name) := by
  cases h : present? el name with
  | none =>
    rw [checkBinding, h]
    exact about_nil name
  | some v =>
    cases v with
    | object binding =>
      rw [checkBinding_of_object h]
      exact about_under hname (byField_bindingParts binding).distinct
    | _ =>
      rw [checkBinding, h]
      exact about_atField hname _

theorem about_checkPressures (el : Record S) : About "pressures" (checkPressures el) := by
  have hname : (Step.key "pressures").Plain := by decide
  unfold checkPressures
  split
  · exact about_nil _
  · split
    · exact about_atField hname _
    · split
      · exact about_nil _
      · exact about_atField hname _

/-! ## The errors of an element, field by field -/

/-- What is said of missing fields. -/
def requiredParts (el : Record S) : List (String × List (Finding S)) :=
  requiredFields.map fun name => (name, checkRequired el name)

/-- What the kind of an element has to say of its fields. -/
def payloadParts (el : Record S) : Option Drawing.Kind → List (String × List (Finding S))
  | some .text => [("text", checkText el)]
  | some .line | some .arrow =>
    ("points", checkPoints el true) ::
    ["startArrowhead", "endArrowhead"].map (fun name =>
      (name, checkNamed Drawing.Arrowhead el name)) ++
    ["startBinding", "endBinding"].map fun name => (name, checkBinding el name)
  | some .freedraw => [("points", checkPoints el false), ("pressures", checkPressures el)]
  | _ => []

/-- What is said of the values of fields, in the order of the rules. -/
def valueParts (el : Record S) : List (String × List (Finding S)) :=
  [("type", checkKind el),
    ("fillStyle", checkNamed Drawing.FillStyle el "fillStyle"),
    ("strokeStyle", checkNamed Drawing.StrokeStyle el "strokeStyle"),
    ("textAlign", checkNamed Drawing.TextAlign el "textAlign"),
    ("verticalAlign", checkNamed Drawing.VerticalAlign el "verticalAlign"),
    ("id", checkType el Json.isString .string "id")] ++
  numericFields.map (fun name => (name, checkType el Json.isNumber .number name)) ++
  colorFields.map (fun name => (name, checkType el Json.isString .colorString name)) ++
  booleanFields.map (fun name => (name, checkType el Json.isBool .boolean name)) ++
  [("groupIds", checkGroupIds el)] ++
  textFields.map (fun name => (name, checkType el Json.isString .stringOrNull name)) ++
  [("boundElements", checkBoundElements el)] ++
  payloadParts el (kindOf el)

/-- **Errors field by field.** The errors of an element are what is said of missing fields
and what is said of the values of fields. -/
theorem recordErrors_eq (el : Record S) :
    recordErrors el =
      (requiredParts el).flatMap Prod.snd ++ (valueParts el).flatMap Prod.snd := by
  -- lines and arrows have their rules in common
  have hpolyline : checkPoints el true ++
      ["startArrowhead", "endArrowhead"].flatMap (checkNamed Drawing.Arrowhead el) ++
      ["startBinding", "endBinding"].flatMap (checkBinding el) =
      (payloadParts el (some .line)).flatMap Prod.snd := by
    simp [payloadParts]
  have hpayload : ∀ kind?, checkPayload el kind? = (payloadParts el kind?).flatMap Prod.snd := by
    intro kind?
    rcases kind? with _ | kind
    · rfl
    · cases kind with
      | text => exact (List.append_nil _).symm
      | line | arrow => exact hpolyline
      | freedraw => simp [checkPayload, payloadParts]
      | _ => rfl
  rw [recordErrors, hpayload]
  simp [requiredParts, valueParts, List.flatMap_map]

theorem byField_requiredParts (el : Record S) : ByField (requiredParts el) := by
  have hplain : ∀ name ∈ requiredFields, (Step.key name).Plain := by decide
  have hnames : (requiredParts el).map Prod.fst = requiredFields := by
    simp [requiredParts, Function.comp_def]
  exact ⟨hnames ▸ by decide,
    List.forall_mem_map.mpr fun name hname => about_checkRequired (hplain name hname)⟩

theorem about_payloadParts (el : Record S) (kind? : Option Drawing.Kind) :
    ∀ part ∈ payloadParts el kind?, About part.1 part.2 := by
  have hpolyline : ∀ part ∈ payloadParts el (some .line), About part.1 part.2 := by
    simp only [payloadParts, List.map_cons, List.map_nil, List.forall_mem_append,
      List.forall_mem_cons, List.not_mem_nil, false_imp_iff, implies_true, and_true]
    exact ⟨⟨about_checkPoints el true, about_checkNamed (by decide), about_checkNamed (by decide)⟩,
      about_checkBinding (by decide), about_checkBinding (by decide)⟩
  rcases kind? with _ | kind
  · exact fun part h => by cases h
  · cases kind with
    | text => exact List.forall_mem_singleton.mpr (about_checkText el)
    | line | arrow => exact hpolyline
    | freedraw =>
      simp only [payloadParts, List.forall_mem_cons, List.not_mem_nil, false_imp_iff, implies_true,
        and_true]
      exact ⟨about_checkPoints el false, about_checkPressures el⟩
    | _ => exact fun part h => by cases h

/-- The fields that the rules of a kind speak of, for all kinds. -/
def payloadNames : List (List String) :=
  [[], ["text"], ["points", "startArrowhead", "endArrowhead", "startBinding", "endBinding"],
    ["points", "pressures"]]

theorem names_payloadParts (el : Record S) (kind? : Option Drawing.Kind) :
    (payloadParts el kind?).map Prod.fst ∈ payloadNames := by
  rcases kind? with _ | kind
  · simp [payloadParts, payloadNames]
  · cases kind <;> simp [payloadParts, payloadNames]

/-- The fields that the rules of every kind speak of. -/
def valueNames : List String :=
  ["type", "fillStyle", "strokeStyle", "textAlign", "verticalAlign", "id"] ++ numericFields ++
    colorFields ++ booleanFields ++ ["groupIds"] ++ textFields ++ ["boundElements"]

theorem byField_valueParts (el : Record S) : ByField (valueParts el) := by
  have hplain : ∀ name ∈ numericFields ++ colorFields ++ booleanFields ++ textFields,
      (Step.key name).Plain := by decide
  simp only [List.forall_mem_append] at hplain
  obtain ⟨⟨⟨hnumeric, hcolor⟩, hboolean⟩, htext⟩ := hplain
  have habout : ∀ part ∈ valueParts el, About part.1 part.2 := by
    simp only [valueParts, List.forall_mem_append, List.forall_mem_map, List.forall_mem_cons,
      List.not_mem_nil, false_imp_iff, implies_true, and_true]
    refine ⟨⟨⟨⟨⟨⟨⟨?_, fun name h => ?_⟩, fun name h => ?_⟩, fun name h => ?_⟩, ?_⟩,
      fun name h => ?_⟩, ?_⟩, about_payloadParts el _⟩
    · exact ⟨about_checkKind el, about_checkNamed (by decide), about_checkNamed (by decide),
        about_checkNamed (by decide), about_checkNamed (by decide), about_checkType (by decide)⟩
    · exact about_checkType (hnumeric name h)
    · exact about_checkType (hcolor name h)
    · exact about_checkType (hboolean name h)
    · exact about_checkGroupIds el
    · exact about_checkType (htext name h)
    · exact about_checkBoundElements el
  -- no rule of a kind speaks of a field that another rule speaks of
  have hnames : (valueParts el).map Prod.fst =
      valueNames ++ (payloadParts el (kindOf el)).map Prod.fst := by
    simp [valueParts, valueNames, Function.comp_def]
  have hnodup : ∀ names ∈ payloadNames, (valueNames ++ names).Nodup := by decide +kernel
  exact ⟨hnames ▸ hnodup _ (names_payloadParts el _), habout⟩

/-! ## Missing fields and their values -/

/-- Nothing is said of the value of a field that must be there and is missing. -/
theorem part_eq_nil {el : Record S} {part : String × List (Finding S)} (h : part ∈ valueParts el)
    (hrequired : part.1 ∈ requiredFields) (hmissing : present? el part.1 = none) :
    part.2 = [] := by
  have htype : ∀ {test : Json S → Bool} {expected : Expected} (name : String),
      present? el name = none → checkType el test expected name = [] :=
    fun name h => by rw [checkType, h]
  -- the rules of a kind speak of no field that must be there
  have hpayload : ∀ part ∈ payloadParts el (kindOf el), part.1 ∉ requiredFields := by
    have hnames : ∀ names ∈ payloadNames, ∀ name ∈ names, name ∉ requiredFields := by decide
    exact fun part hpart =>
      hnames _ (names_payloadParts el _) _ (List.mem_map_of_mem hpart)
  have hsilent : ∀ part ∈ valueParts el, part.1 ∈ requiredFields → present? el part.1 = none →
      part.2 = [] := by
    simp only [valueParts, List.forall_mem_append, List.forall_mem_map, List.forall_mem_cons,
      List.not_mem_nil, false_imp_iff, implies_true, and_true]
    refine ⟨⟨⟨⟨⟨⟨⟨?_, fun name _ _ h => htype name h⟩, fun name _ _ h => htype name h⟩,
      fun name _ _ h => htype name h⟩, fun _ h => by rw [checkGroupIds, h]⟩,
      fun name _ _ h => htype name h⟩, fun _ h => by rw [checkBoundElements, h]⟩,
      fun part hpart hname _ => absurd hname (hpayload part hpart)⟩
    exact ⟨fun _ h => by rw [checkKind, h], fun _ h => by rw [checkNamed, h],
      fun _ h => by rw [checkNamed, h], fun _ h => by rw [checkNamed, h],
      fun _ h => by rw [checkNamed, h], fun _ h => htype _ h⟩
  exact hsilent part h hrequired hmissing

theorem apart_required_value (el : Record S) :
    Apart ((requiredParts el).flatMap Prod.snd) ((valueParts el).flatMap Prod.snd) := by
  refine apart_of_byField (byField_requiredParts el) (byField_valueParts el) ?_
  intro name fs gs hfs hgs f hf g hg
  obtain ⟨name', hname, heq⟩ := List.mem_map.mp hfs
  obtain ⟨rfl, rfl⟩ := Prod.mk.inj heq
  -- a finding about a missing field, and one about its value
  cases hpresent : present? el name' with
  | none =>
    have hnil : gs = [] := part_eq_nil hgs hname hpresent
    rw [hnil] at hg
    cases hg
  | some v =>
    rw [checkRequired_eq_nil hpresent] at hf
    cases hf

end Whiteboard.Audit
