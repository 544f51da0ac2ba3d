import Whiteboard.Proofs.Audit.WireForm

/-!
# Whiteboard — references in the wire form

An audit warns of an id that an earlier element has and of a reference to an id that no
element has. In the wire form these are the ids and the references of the elements, so
the warnings can be told from the elements: every one of them, and in its order.

Main results:

* `bindingTarget_toJson` — what the ends of a connector point to in the wire form.
* `referenceWarnings_toJson` — the warnings about ids and references.
* `duplicateWarning_eq_nil`, `danglingWarnings_eq_nil` — no warnings where ids are
  distinct, and none where all references are resolved.
-/

namespace Whiteboard.Audit

open Drawing (Binding BoundElement Element Polyline Shape)

variable {S : Type}

/-! ## What there is to say -/

/-- A finding where a condition holds, and none elsewhere. -/
def findingIf (p : Prop) [Decidable p] (f : Finding S) : List (Finding S) := if p then [f] else []

theorem findingIf_of_not {p : Prop} [Decidable p] {f : Finding S} (h : ¬ p) :
    findingIf p f = [] := if_neg h

theorem map_findingIf {p : Prop} [Decidable p] {f : Finding S} {under : Finding S → Finding S} :
    (findingIf p f).map under = findingIf p (under f) := by
  rw [findingIf, findingIf]
  split <;> rfl

/-- The findings about the elements of a document one after the other. -/
def eachElement (es : List (Element S)) (about : Element S → Nat → List (Finding S)) :
    List (Finding S) :=
  es.zipIdx.flatMap fun (e, i) => (about e i).map (.under (elementPath i))

theorem eachElement_congr {es : List (Element S)}
    {about about' : Element S → Nat → List (Finding S)}
    (h : ∀ e i, es[i]? = some e → about e i = about' e i) :
    eachElement es about = eachElement es about' :=
  List.flatMap_congr fun ⟨e, i⟩ hmem => by
    show (about e i).map _ = (about' e i).map _
    rw [h e i (List.mem_zipIdx_iff_getElem?.mp hmem)]

theorem eachElement_eq_nil {es : List (Element S)} {about : Element S → Nat → List (Finding S)}
    (h : ∀ e i, es[i]? = some e → about e i = []) : eachElement es about = [] := by
  rw [eachElement_congr h, eachElement, List.flatMap_eq_nil_iff]
  exact fun _ _ => rfl

/-- An id that an earlier element has; the first such is named. -/
def duplicateWarning (es : List (Element S)) (e : Element S) (i : Nat) : List (Finding S) :=
  findingIf (e.id ∈ (es.map Element.id).take i)
    ⟨[.key "id"], .duplicateId e.id ((es.map Element.id).idxOf e.id)⟩

/-- An end of a connector that is attached to no element. -/
def bindingWarning (es : List (Element S)) (name : String) :
    Option (Binding S) → List (Finding S)
  | some b => findingIf (b.elementId ∉ es.map Element.id)
      ⟨[.key name, .key "elementId"], .unknownBindingTarget b.elementId⟩
  | none => []

/-- An entry of the attached connectors that is no element. -/
def boundElementWarning (es : List (Element S)) (entry : BoundElement) (i : Nat) :
    List (Finding S) :=
  findingIf (entry.id ∉ es.map Element.id)
    ⟨[.key "boundElements", .index i, .key "id"], .unknownBoundElement entry.id⟩

/-- The references of an element that lead nowhere. -/
def danglingWarnings (es : List (Element S)) (e : Element S) : List (Finding S) :=
  bindingWarning es "startBinding" (e.shape.polyline?.bind (·.startBinding)) ++
  bindingWarning es "endBinding" (e.shape.polyline?.bind (·.endBinding)) ++
  (e.boundElements.getD []).zipIdx.flatMap fun (entry, i) => boundElementWarning es entry i

variable [Scalar S]

/-! ## Ids -/

theorem idOf_toJson (e : Element S) : idOf e.toJson = some e.id := rfl

omit [Scalar S] in
theorem idOf_boundElement (entry : BoundElement) : idOf (entry.toJson : Json S) = some entry.id :=
  rfl

theorem firstWithId_toJson (es : List (Element S)) (id : String) :
    firstWithId (es.map Element.toJson) id = es.findIdx? fun e => e.id == id := by
  rw [firstWithId, List.findIdx?_map]
  rfl

/-- An id is found where it first occurs. -/
theorem firstWithId_of_mem {es : List (Element S)} {id : String} (h : id ∈ es.map Element.id) :
    firstWithId (es.map Element.toJson) id = some ((es.map Element.id).idxOf id) := by
  have hfind : es.findIdx (fun e => e.id == id) = (es.map Element.id).idxOf id := by
    rw [List.idxOf, List.findIdx_map]
    rfl
  have hlength := List.idxOf_lt_length_of_mem h
  rw [List.length_map] at hlength
  rw [firstWithId_toJson, List.findIdx?_eq_some_iff_findIdx_eq, hfind]
  exact ⟨hlength, rfl⟩

theorem isSome_firstWithId_iff {es : List (Element S)} {id : String} :
    (firstWithId (es.map Element.toJson) id).isSome = true ↔ id ∈ es.map Element.id := by
  rw [firstWithId_toJson, List.findIdx?_isSome, List.any_eq_true, List.mem_map]
  simp only [beq_iff_eq]

theorem checkDuplicate_toJson {es : List (Element S)} {e : Element S} (he : e ∈ es) (i : Nat) :
    checkDuplicate (es.map Element.toJson) e.toJson i = duplicateWarning es e i := by
  have hmem : e.id ∈ es.map Element.id := List.mem_map_of_mem he
  rw [checkDuplicate, idOf_toJson]
  simp only [firstWithId_of_mem hmem]
  exact if_congr (List.mem_take_iff_idxOf_lt hmem).symm rfl rfl

omit [Scalar S] in
/-- Where ids are distinct, no earlier element has the id of one. -/
theorem duplicateWarning_eq_nil {es : List (Element S)} (hnodup : (es.map Element.id).Nodup)
    {e : Element S} {i : Nat} (hi : es[i]? = some e) : duplicateWarning es e i = [] := by
  refine findingIf_of_not fun hearlier => ?_
  obtain ⟨hlt, rfl⟩ := List.getElem?_eq_some_iff.mp hi
  have hplace : (es.map Element.id).idxOf es[i].id = i := by
    have := hnodup.idxOf_getElem i (by rwa [List.length_map])
    rwa [List.getElem_map] at this
  rw [List.mem_take_iff_idxOf_lt (List.mem_map_of_mem (List.getElem_mem hlt)), hplace] at hearlier
  exact Nat.lt_irrefl i hearlier

/-! ## References -/

/-- What a binding in the wire form points to. -/
def bindingTarget (v : Json S) (name : String) : Option String :=
  (v.get? name).bind fun b => (b.get? "elementId").bind Json.string?

/-- The ends of a connector in its wire form; other kinds have none. -/
theorem bindingTarget_toJson (e : Element S) :
    bindingTarget e.toJson "startBinding" =
        (e.shape.polyline?.bind (·.startBinding)).map Binding.elementId ∧
      bindingTarget e.toJson "endBinding" =
        (e.shape.polyline?.bind (·.endBinding)).map Binding.elementId := by
  have hform : ∀ {name : String} (b? : Option (Binding S)),
      (name, Json.option Binding.toJson b?) ∈ record e →
      bindingTarget e.toJson name = b?.map Binding.elementId := by
    intro name b? hmem
    have hfield : e.toJson.get? name = some (Json.option Binding.toJson b?) :=
      field?_of_mem (keys_nodup e) hmem
    rw [bindingTarget, hfield, Option.bind_some]
    cases b? <;> rfl
  have hnone : ∀ {name : String}, name ∉ (record e).map Prod.fst →
      bindingTarget e.toJson name = none := by
    intro name hname
    have hfield : e.toJson.get? name = none := field?_eq_none hname
    rw [bindingTarget, hfield, Option.bind_none]
  cases he : e.shape with
  | line path | arrow path =>
    exact ⟨hform path.startBinding (by simp [record, he, Shape.fields, Polyline.fields]),
      hform path.endBinding (by simp [record, he, Shape.fields, Polyline.fields])⟩
  | _ =>
    refine ⟨hnone ?_, hnone ?_⟩
    all_goals
      simp [record, he, Shape.fields, Drawing.TextBody.fields, Drawing.Freehand.fields,
        Element.commonFields]

/-- A reference is said to lead nowhere exactly if no element has the id. -/
theorem checkTarget_toJson (es : List (Element S)) (id : String) (problem : String → Problem S)
    (name : String) :
    checkTarget (es.map Element.toJson) (some id) problem name =
      findingIf (id ∉ es.map Element.id) (atField name (problem id)) := by
  show (if (firstWithId (es.map Element.toJson) id).isSome = true then [] else _) = _
  rw [findingIf, ite_not]
  exact if_congr isSome_firstWithId_iff rfl rfl

theorem checkBindingTarget_toJson {es : List (Element S)} {e : Element S} {name : String}
    {b? : Option (Binding S)} (h : bindingTarget e.toJson name = b?.map Binding.elementId) :
    checkBindingTarget (es.map Element.toJson) e.toJson name = bindingWarning es name b? := by
  rw [checkBindingTarget]
  show (checkTarget _ (bindingTarget e.toJson name) _ _).map _ = _
  rw [h]
  cases b? with
  | none => rfl
  | some b =>
    rw [Option.map_some, checkTarget_toJson, map_findingIf]
    rfl

theorem checkBoundTargets_toJson (es : List (Element S)) (e : Element S) :
    checkBoundTargets (es.map Element.toJson) e.toJson =
      (e.boundElements.getD []).zipIdx.flatMap fun (entry, i) =>
        boundElementWarning es entry i := by
  have hfield : e.toJson.get? "boundElements" =
      some (Json.option (Json.list BoundElement.toJson) e.boundElements) :=
    field?_of_mem (keys_nodup e) (by simp [record, Element.commonFields])
  rw [checkBoundTargets, hfield, Option.bind_some]
  cases e.boundElements with
  | none => rfl
  | some entries =>
    show (eachItem (entries.map BoundElement.toJson) _).map _ = _
    rw [eachItem, List.zipIdx_map, List.flatMap_map, List.map_flatMap]
    refine List.flatMap_congr ?_
    rintro ⟨entry, i⟩ -
    simp only [Prod.map, idOf_boundElement, checkTarget_toJson, map_findingIf]
    rfl

theorem checkTargets_toJson (es : List (Element S)) (e : Element S) :
    checkTargets (es.map Element.toJson) e.toJson = danglingWarnings es e := by
  obtain ⟨hstart, hend⟩ := bindingTarget_toJson e
  rw [checkTargets, checkBoundTargets_toJson, danglingWarnings]
  simp only [List.flatMap_cons, List.flatMap_nil, List.append_nil,
    checkBindingTarget_toJson hstart, checkBindingTarget_toJson hend]

/-- **References.** The warnings about ids and references are those that can be told from
the elements. -/
theorem referenceWarnings_toJson (es : List (Element S)) :
    referenceWarnings (es.map Element.toJson) =
      eachElement es (duplicateWarning es) ++ eachElement es fun e _ => danglingWarnings es e := by
  rw [referenceWarnings, List.zipIdx_map, List.flatMap_map, List.flatMap_map]
  congr 1
  · exact eachElement_congr fun e i hi => checkDuplicate_toJson (List.mem_of_getElem? hi) i
  · exact eachElement_congr fun e _ _ => checkTargets_toJson es e

/-! ## No warnings -/

/-- Every reference of the elements is to one of them. -/
structure Resolved (es : List (Element S)) : Prop where
  bindings : ∀ e ∈ es, ∀ path, e.shape.polyline? = some path →
    ∀ b, path.startBinding = some b ∨ path.endBinding = some b → b.elementId ∈ es.map Element.id
  boundElements : ∀ e ∈ es, ∀ entry ∈ e.boundElements.getD [], entry.id ∈ es.map Element.id

omit [Scalar S] in
/-- An element of a list whose references are all resolved has none that leads nowhere. -/
theorem danglingWarnings_eq_nil {es : List (Element S)} (h : Resolved es) {e : Element S}
    (he : e ∈ es) : danglingWarnings es e = [] := by
  have hend : ∀ (name : String) (b? : Option (Binding S)),
      (∀ b, b? = some b → b.elementId ∈ es.map Element.id) → bindingWarning es name b? = [] := by
    intro name b? hb
    cases b? with
    | none => rfl
    | some b => exact findingIf_of_not (not_not_intro (hb b rfl))
  have hstart := hend "startBinding" (e.shape.polyline?.bind (·.startBinding)) fun b hb => by
    obtain ⟨path, hpath, hb⟩ := Option.bind_eq_some_iff.mp hb
    exact h.bindings e he path hpath b (Or.inl hb)
  have hfinish := hend "endBinding" (e.shape.polyline?.bind (·.endBinding)) fun b hb => by
    obtain ⟨path, hpath, hb⟩ := Option.bind_eq_some_iff.mp hb
    exact h.bindings e he path hpath b (Or.inr hb)
  rw [danglingWarnings, hstart, hfinish, List.nil_append, List.nil_append, List.flatMap_eq_nil_iff]
  rintro ⟨entry, i⟩ hentry
  exact findingIf_of_not
    (not_not_intro (h.boundElements e he entry (List.fst_mem_of_mem_zipIdx hentry)))

end Whiteboard.Audit
