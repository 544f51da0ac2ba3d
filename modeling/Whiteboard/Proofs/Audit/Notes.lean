import Whiteboard.Proofs.Audit.Fields

/-!
# Whiteboard — warnings beside errors

Beside the errors of an element there are warnings about fields that errors may be about as
well: a number out of range, an id that an earlier element has, references that lead nowhere.
Each warning reads the field as a value of the right type, and there the errors are silent.

Main results:

* `apart_value_notes` — no warning is about the place of an error.
* `distinct_allFindings` — no two findings about an element, of whatever rules, are about one
  place.
-/

namespace Whiteboard.Audit

/-! ## Warnings -/

variable {S : Type} [Scalar S]

/-- What is said beside the errors of the fields of an element that stands at a place of a
document: warnings about ranges, about its id and about what it refers to. -/
def noteParts (elements : List (Json S)) (el : Record S) (i : Nat) :
    List (String × List (Finding S)) :=
  [("opacity", checkOpacity el),
    ("angle", checkAngle el),
    ("id", checkDuplicate elements (.object el) i),
    ("startBinding", checkBindingTarget elements (.object el) "startBinding"),
    ("endBinding", checkBindingTarget elements (.object el) "endBinding"),
    ("boundElements", checkBoundTargets elements (.object el))]

theorem notes_eq (elements : List (Json S)) (el : Record S) (i : Nat) :
    recordWarnings el ++ (checkDuplicate elements (.object el) i ++
      checkTargets elements (.object el)) = (noteParts elements el i).flatMap Prod.snd := by
  simp [recordWarnings, checkTargets, noteParts]

omit [Scalar S] in
theorem about_checkTarget (elements : List (Json S)) (target : Option String)
    (problem : String → Problem S) {name : String} (hname : (Step.key name).Plain) :
    About name (checkTarget elements target problem name) := by
  unfold checkTarget
  split
  · exact about_nil name
  · split
    · exact about_nil name
    · exact about_atField hname _

theorem byField_noteParts (elements : List (Json S)) (el : Record S) (i : Nat) :
    ByField (noteParts elements el i) := by
  have hopacity : About "opacity" (checkOpacity el) := by
    unfold checkOpacity
    split
    · split
      · exact about_nil _
      · exact about_atField (by decide) _
    · exact about_nil _
  have hangle : About "angle" (checkAngle el) := by
    unfold checkAngle
    split
    · split
      · exact about_atField (by decide) _
      · exact about_nil _
    · exact about_nil _
  have hid : About "id" (checkDuplicate elements (.object el) i) := by
    unfold checkDuplicate
    split
    · exact about_nil _
    · split
      · split
        · exact about_atField (by decide) _
        · exact about_nil _
      · exact about_nil _
  have hbinding : ∀ name, (Step.key name).Plain →
      About name (checkBindingTarget elements (.object el) name) := fun name hname =>
    about_under hname (about_checkTarget _ _ _ (by decide)).distinct
  have hbound : About "boundElements" (checkBoundTargets elements (.object el)) := by
    unfold checkBoundTargets
    split
    · exact about_nil _
    · exact about_under (by decide)
        (distinct_eachItem fun _ _ => (about_checkTarget _ _ _ (by decide)).distinct)
  refine ⟨by simp [noteParts], ?_⟩
  simp only [noteParts, List.forall_mem_cons, List.not_mem_nil, false_imp_iff, implies_true,
    and_true]
  exact ⟨hopacity, hangle, hid, hbinding _ (by decide), hbinding _ (by decide), hbound⟩

/-! ## Errors and warnings -/

omit [Scalar S] in
/-- A text that is found is there. -/
theorem present?_of_string {el : Record S} {name s : String}
    (h : ((Json.object el).get? name).bind Json.string? = some s) :
    present? el name = some (.string s) := by
  obtain ⟨v, hfield, hv⟩ := Option.bind_eq_some_iff.mp h
  have hstring : v = .string s := by
    cases v <;> simp_all [Json.string?]
  subst hstring
  exact present?_eq_some_iff.mpr ⟨hfield, by simp⟩

theorem checkType_eq_nil_of_scalar? {el : Record S} {name : String} {x : S}
    (h : scalar? el name = some x) {expected : Expected} :
    checkType el Json.isNumber expected name = [] := by
  obtain ⟨v, hv, hx⟩ := Option.bind_eq_some_iff.mp h
  refine checkType_eq_nil_iff.mpr fun w hw => ?_
  obtain rfl := Option.some.inj (hv.symm.trans hw)
  cases v with
  | number n => rfl
  | _ => cases hx

/-- What is said of a number is apart from what is said of values that are none. -/
theorem apart_scalar {el : Record S} {name : String} {notes : List (Finding S)}
    (hnone : scalar? el name = none → notes = []) {expected : Expected} :
    Apart (checkType el Json.isNumber expected name) notes := by
  intro f hf g hg
  cases hx : scalar? el name with
  | none =>
    rw [hnone hx] at hg
    cases hg
  | some x =>
    rw [checkType_eq_nil_of_scalar? hx] at hf
    cases hf

omit [Scalar S] in
/-- An id that another element has is a text. -/
theorem exists_id_of_mem_checkDuplicate {elements : List (Json S)} {el : Record S} {i : Nat}
    {f : Finding S} (h : f ∈ checkDuplicate elements (.object el) i) :
    ∃ id, present? el "id" = some (.string id) := by
  unfold checkDuplicate at h
  cases hid : idOf (Json.object el) with
  | none =>
    rw [hid] at h
    cases h
  | some id => exact ⟨id, present?_of_string hid⟩

omit [Scalar S] in
/-- What is said of what a field refers to is apart from what is said of the field, if that is
nothing where the reference is a text. -/
theorem apart_checkTarget {parts : List (String × List (Finding S))} (h : ByField parts)
    {elements : List (Json S)} {target : Option String} {problem : String → Problem S}
    {name : String} (hname : (Step.key name).Plain)
    (hnil : ∀ id fs, target = some id → (name, fs) ∈ parts → fs = []) :
    Apart (parts.flatMap Prod.snd) (checkTarget elements target problem name) := by
  have htarget : ByField [(name, checkTarget elements target problem name)] :=
    byField_singleton (about_checkTarget _ _ _ hname)
  have hapart := apart_of_byField h htarget fun name' fs gs hfs hgs => by
    obtain ⟨rfl, rfl⟩ := Prod.mk.inj (List.mem_singleton.mp hgs)
    intro f hf g hg
    cases target with
    | none => cases hg -- what refers to nothing cannot lead nowhere
    | some id =>
      rw [hnil id fs rfl hfs] at hf
      cases hf
  rwa [List.flatMap_singleton] at hapart

omit [Scalar S] in
/-- A binding to an element that does not exist is a record with the id of one. -/
theorem apart_binding (elements : List (Json S)) (el : Record S) (name : String) :
    Apart (checkBinding el name) (checkBindingTarget elements (.object el) name) := by
  unfold checkBindingTarget
  cases hfield : (Json.object el).get? name with
  | none => exact fun f _ g hg => by cases hg
  | some v =>
    cases v with
    | object binding =>
      have hpresent : present? el name = some (.object binding) :=
        present?_eq_some_iff.mpr ⟨hfield, by simp⟩
      rw [checkBinding_of_object hpresent]
      refine Apart.under (apart_checkTarget (byField_bindingParts binding) (by decide) ?_) _
      intro id fs hid hfs
      -- a text is an id, of which the rule for the field says nothing
      have hfs' : fs = if ((present? binding "elementId").map Json.isString).getD false then []
          else [atField "elementId" .bindingWithoutElement] :=
        (byField_bindingParts binding).eq_of_mem hfs List.mem_cons_self
      rw [hfs', present?_of_string hid]
      rfl
    | _ => exact fun f _ g hg => by cases hg

omit [Scalar S] in
/-- An entry for an element that does not exist is a record with the id of one. -/
theorem apart_entry (elements : List (Json S)) (v : Json S) :
    Apart (checkBoundElement v) (checkTarget elements (idOf v) .unknownBoundElement "id") := by
  cases v with
  | object entry =>
    rw [checkBoundElement_object]
    refine apart_checkTarget (byField_entryParts entry) (by decide) ?_
    intro id fs hid hfs
    have hfs' : fs = if ((present? entry "id").map Json.isString).getD false then []
        else [atField "id" .boundElementWithoutId] :=
      (byField_entryParts entry).eq_of_mem hfs List.mem_cons_self
    rw [hfs', present?_of_string hid]
    rfl
  | _ => exact fun f _ g hg => by cases hg

omit [Scalar S] in
theorem apart_boundElements (elements : List (Json S)) (el : Record S) :
    Apart (checkBoundElements el) (checkBoundTargets elements (.object el)) := by
  unfold checkBoundTargets
  cases hfield : (Json.object el).get? "boundElements" with
  | none => exact fun f _ g hg => by cases hg
  | some v =>
    cases v with
    | array entries =>
      have hpresent : present? el "boundElements" = some (.array entries) :=
        present?_eq_some_iff.mpr ⟨hfield, by simp⟩
      rw [checkBoundElements, hpresent]
      exact Apart.under (apart_eachItem fun entry _ => apart_entry elements entry) _
    | _ => exact fun f _ g hg => by cases hg

omit [Scalar S] in
/-- Of a field that no rule for every kind speaks of, only the rules of the kind do. -/
theorem mem_payloadParts {el : Record S} {part : String × List (Finding S)}
    (h : part ∈ valueParts el) (hname : part.1 ∉ valueNames) :
    part ∈ payloadParts el (kindOf el) := by
  rw [valueParts, List.mem_append] at h
  refine h.resolve_left fun hother => hname ?_
  have hnames := List.mem_map_of_mem (f := Prod.fst) hother
  simpa [valueNames, Function.comp_def] using hnames

omit [Scalar S] in
theorem eq_checkBinding_of_mem {el : Record S} {name : String} {fs : List (Finding S)}
    (h : (name, fs) ∈ valueParts el) (hname : name = "startBinding" ∨ name = "endBinding") :
    fs = checkBinding el name := by
  have hother : name ∉ valueNames := by
    rcases hname with rfl | rfl <;> decide
  have hpayload := mem_payloadParts h hother
  revert hpayload
  -- only the rules of lines and arrows speak of bindings
  rcases kindOf el with _ | kind
  · exact fun hpayload => by cases hpayload
  · cases kind <;> rcases hname with rfl | rfl <;> simp [payloadParts]

/-- **No warning beside an error.** A warning reads a value of the right type, of which no
rule reports an error. -/
theorem apart_value_notes (elements : List (Json S)) (el : Record S) (i : Nat) :
    Apart ((valueParts el).flatMap Prod.snd) ((noteParts elements el i).flatMap Prod.snd) := by
  have hvalue := byField_valueParts el
  refine apart_of_byField hvalue (byField_noteParts elements el i) ?_
  intro name fs gs hfs hgs
  -- warning by warning, with the one rule that speaks of the same field
  simp only [noteParts, List.mem_cons, List.not_mem_nil, or_false, Prod.mk.injEq] at hgs
  rcases hgs with ⟨rfl, rfl⟩ | ⟨rfl, rfl⟩ | ⟨rfl, rfl⟩ | ⟨rfl, rfl⟩ | ⟨rfl, rfl⟩ | ⟨rfl, rfl⟩
  · have hopacity : fs = checkType el Json.isNumber .number "opacity" :=
      hvalue.eq_of_mem hfs (by simp [valueParts, numericFields])
    exact hopacity ▸ apart_scalar fun h => by rw [checkOpacity, h]
  · have hangle : fs = checkType el Json.isNumber .number "angle" :=
      hvalue.eq_of_mem hfs (by simp [valueParts, numericFields])
    exact hangle ▸ apart_scalar fun h => by rw [checkAngle, h]
  · have hid : fs = checkType el Json.isString .string "id" :=
      hvalue.eq_of_mem hfs (by simp [valueParts])
    intro f hf g hg
    -- an id that an earlier element has is a text
    obtain ⟨id, hpresent⟩ := exists_id_of_mem_checkDuplicate hg
    rw [hid, checkType, hpresent] at hf
    cases hf
  · exact eq_checkBinding_of_mem hfs (.inl rfl) ▸ apart_binding elements el _
  · exact eq_checkBinding_of_mem hfs (.inr rfl) ▸ apart_binding elements el _
  · have hbound : fs = checkBoundElements el := hvalue.eq_of_mem hfs (by simp [valueParts])
    exact hbound ▸ apart_boundElements elements el

theorem apart_required_notes (elements : List (Json S)) (el : Record S) (i : Nat) :
    Apart ((requiredParts el).flatMap Prod.snd)
      ((noteParts elements el i).flatMap Prod.snd) := by
  refine apart_of_byField (byField_requiredParts el) (byField_noteParts elements el i) ?_
  intro name fs gs hfs hgs f hf g hg
  obtain ⟨name', hname, heq⟩ := List.mem_map.mp hfs
  obtain ⟨rfl, rfl⟩ := Prod.mk.inj heq
  -- of the fields that must be there, warnings are about the id alone
  have hid : name' = "id" ∧ gs = checkDuplicate elements (.object el) i := by
    simp only [noteParts, List.mem_cons, List.not_mem_nil, or_false, Prod.mk.injEq] at hgs
    rcases hgs with ⟨rfl, -⟩ | ⟨rfl, -⟩ | hgs | ⟨rfl, -⟩ | ⟨rfl, -⟩ | ⟨rfl, -⟩
    case inr.inr.inl => exact hgs
    all_goals exact absurd hname (by decide)
  obtain ⟨rfl, rfl⟩ := hid
  obtain ⟨id, hpresent⟩ := exists_id_of_mem_checkDuplicate hg
  rw [checkRequired_eq_nil hpresent] at hf
  cases hf

/-! ## The element -/

/-- All that is said of an element which stands at a place of a document. -/
def allFindings (elements : List (Json S)) (v : Json S) (i : Nat) : List (Finding S) :=
  (element v).errors ++
    ((element v).warnings ++ (checkDuplicate elements v i ++ checkTargets elements v))

/-- **One finding a place.** No two findings about an element, of whatever rules, are about
one place. -/
theorem distinct_allFindings (elements : List (Json S)) (v : Json S) (i : Nat) :
    Distinct (allFindings elements v i) := by
  cases v with
  | object el =>
    have hall : allFindings elements (.object el) i = recordErrors el ++
        (recordWarnings el ++ (checkDuplicate elements (.object el) i ++
          checkTargets elements (.object el))) := rfl
    -- missing fields, their values, and the warnings
    rw [hall, notes_eq, recordErrors_eq, List.append_assoc, distinct_append_iff,
      distinct_append_iff]
    refine ⟨(byField_requiredParts el).distinct,
      ⟨(byField_valueParts el).distinct, (byField_noteParts elements el i).distinct,
        apart_value_notes elements el i⟩, ?_⟩
    intro f hf g hg
    rcases List.mem_append.mp hg with hg | hg
    · exact apart_required_value el f hf g hg
    · exact apart_required_notes elements el i f hf g hg
  | _ => exact distinct_singleton (by simp)

end Whiteboard.Audit
