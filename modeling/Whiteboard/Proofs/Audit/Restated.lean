import Mathlib.Data.List.Forall2
import Mathlib.Data.Option.Basic
import Whiteboard.Proofs.Audit.References

/-!
# Whiteboard — what an audit does not see

A field that is `null` counts as missing, and a field that no rule mentions says nothing. So
a document may lose fields of the one sort and gain fields of the other, in itself and in the
objects that it holds, and the report on it stays the same: the same findings in the same
order.

The rules look a field up in two ways. Those about one element ask for a field that is there
and not `null`; those about references take what stands there, which may be `null`, and go
on to its parts. A `null` has no parts, so both ways find the same.

Main results:

* `Restates.present?_rel` — records that say the same hold the same under every name that
  a rule mentions.
* `element_of_restates`, `referenceWarnings_of_restates` — the rules about one element and
  those about references.
* `report_of_restates` — the reports on documents and elements.
-/

namespace Whiteboard.Audit

variable {S : Type}

/-! ## Edits that say nothing -/

/-- To rules that mention `names`, the second record says what the first one says: entries
that are `null` are left out, entries of other names are brought in, and in an entry that is
kept the value may be edited `within`. What is left out must be the only entry of its name,
as in an object it is. -/
inductive Restates (names : List String) (within : String → Json S → Json S → Prop) :
    Record S → Record S → Prop where
  | nil : Restates names within [] []
  | keep {name : String} {v v' : Json S} {r r' : Record S} (hv : within name v v')
      (h : Restates names within r r') : Restates names within ((name, v) :: r) ((name, v') :: r')
  | leaveOut {name : String} {r r' : Record S} (hname : name ∉ r.map Prod.fst)
      (h : Restates names within r r') : Restates names within ((name, .null) :: r) r'
  | bringIn {name : String} {v : Json S} {r r' : Record S} (hname : name ∉ names)
      (h : Restates names within r r') : Restates names within r ((name, v) :: r')

/-- A value that is an object may have its record edited. -/
inductive InObject (edit : Record S → Record S → Prop) : Json S → Json S → Prop where
  | same {v : Json S} : InObject edit v v
  | object {r r' : Record S} (h : edit r r') : InObject edit (.object r) (.object r')

/-- A value that is an array may have its items edited. -/
inductive InArray (edit : Json S → Json S → Prop) : Json S → Json S → Prop where
  | same {v : Json S} : InArray edit v v
  | array {items items' : List (Json S)} (h : List.Forall₂ edit items items') :
      InArray edit (.array items) (.array items')

/-- What is `null` stays so, and nothing else becomes so. -/
def KeepsNull (edit : Json S → Json S → Prop) : Prop := ∀ v v', edit v v' → v'.isNull = v.isNull

theorem keepsNull_eq : KeepsNull (Eq : Json S → Json S → Prop) := fun _ _ h => by rw [h]

theorem keepsNull_inObject (edit : Record S → Record S → Prop) : KeepsNull (InObject edit) := by
  intro v v' h
  cases h <;> rfl

theorem keepsNull_inArray (edit : Json S → Json S → Prop) : KeepsNull (InArray edit) := by
  intro v v' h
  cases h <;> rfl

/-! ## The places of edits -/

/-- An entry of the attached connectors. -/
def EntryRestates : Json S → Json S → Prop := InObject (Restates ["id", "type"] fun _ => Eq)

/-- An end of a connector. -/
def BindingRestates : Json S → Json S → Prop :=
  InObject (Restates ["elementId", "focus", "gap"] fun _ => Eq)

def AppStateRestates : Json S → Json S → Prop :=
  InObject (Restates ["viewBackgroundColor", "gridSize"] fun _ => Eq)

/-- The fields of an element that are kept as they are. -/
def plainFields : List String :=
  requiredFields ++ numericFields ++ colorFields ++ booleanFields ++ textFields ++
    ["fillStyle", "strokeStyle", "textAlign", "verticalAlign", "groupIds", "text", "points",
      "startArrowhead", "endArrowhead", "pressures"]

def bindingFields : List String := ["startBinding", "endBinding"]

/-- How the field of an element may be edited. -/
def elementPart (name : String) : Json S → Json S → Prop :=
  if name = "boundElements" then InArray EntryRestates
  else if name ∈ bindingFields then BindingRestates
  else Eq

theorem keepsNull_elementPart (name : String) :
    KeepsNull (elementPart name : Json S → Json S → Prop) := by
  unfold elementPart
  split
  · exact keepsNull_inArray _
  · split
    · exact keepsNull_inObject _
    · exact keepsNull_eq

/-- An element, its ends and its attached connectors. -/
def ElementRestates : Json S → Json S → Prop :=
  InObject (Restates (plainFields ++ bindingFields ++ ["boundElements"]) elementPart)

/-- How the field of a document may be edited. -/
def documentPart (name : String) : Json S → Json S → Prop :=
  if name = "elements" then InArray ElementRestates
  else if name = "appState" then AppStateRestates
  else Eq

theorem keepsNull_documentPart (name : String) :
    KeepsNull (documentPart name : Json S → Json S → Prop) := by
  unfold documentPart
  split
  · exact keepsNull_inArray _
  · split
    · exact keepsNull_inObject _
    · exact keepsNull_eq

/-- A document, its elements and the state that a viewer keeps. -/
def DocumentRestates : Json S → Json S → Prop :=
  InObject (Restates ["type", "version", "source", "elements", "appState", "files"] documentPart)

/-! ## Look-ups -/

theorem present?_cons_self (name : String) (v : Json S) (r : Record S) :
    present? ((name, v) :: r) name = if v.isNull then none else some v := by
  cases h : v.isNull <;> simp [present?, Json.field?, h]

theorem present?_cons_of_ne {name other : String} (h : other ≠ name) (v : Json S)
    (r : Record S) : present? ((other, v) :: r) name = present? r name := by
  simp [present?, Json.field?, h]

theorem cases_of_rel {α β : Type} {R : α → β → Prop} {a? : Option α} {b? : Option β}
    (h : Option.Rel R a? b?) :
    (a? = none ∧ b? = none) ∨ ∃ a b, a? = some a ∧ b? = some b ∧ R a b := by
  cases h with
  | none => exact Or.inl ⟨rfl, rfl⟩
  | some hab => exact Or.inr ⟨_, _, rfl, rfl, hab⟩

section Lookup

variable {names : List String} {within : String → Json S → Json S → Prop} {r r' : Record S}
  {name : String}

/-- **Look-ups.** Records that say the same hold the same under every name that a rule
mentions, up to edits within it. -/
theorem Restates.present?_rel (h : Restates names within r r') (hname : name ∈ names)
    (hnull : KeepsNull (within name)) :
    Option.Rel (within name) (present? r name) (present? r' name) := by
  -- entry by entry: each is the one looked for or is passed over on both sides; a `null` that
  -- is left out leaves no entry of its name, so nothing is found there either way
  induction h with
  | nil => exact .none
  | @keep other v v' r r' hv _ ih =>
    by_cases heq : other = name
    · subst heq
      rw [present?_cons_self, present?_cons_self, hnull v v' hv]
      split
      · exact .none
      · exact .some hv
    · rwa [present?_cons_of_ne heq, present?_cons_of_ne heq]
  | @leaveOut other r r' hother _ ih =>
    by_cases heq : other = name
    · subst heq
      have hnone : present? r other = none := by
        rw [present?, field?_eq_none hother]
        rfl
      rw [hnone] at ih
      rwa [present?_cons_self]
    · rwa [present?_cons_of_ne heq]
  | @bringIn other v r r' hother _ ih =>
    have hne : other ≠ name := fun heq => hother (heq ▸ hname)
    rwa [present?_cons_of_ne hne]

/-- Where nothing is edited within, the same value is found. -/
theorem Restates.present?_eq (h : Restates names within r r') (hname : name ∈ names)
    (hplain : within name = Eq) : present? r' name = present? r name := by
  have hrel := h.present?_rel hname (hplain ▸ keepsNull_eq)
  rw [hplain] at hrel
  obtain ⟨hr, hr'⟩ | ⟨v, v', hr, hr', rfl⟩ := cases_of_rel hrel
  · rw [hr, hr']
  · rw [hr, hr']

/-- A reader that finds nothing in `null` need not tell it from a missing field. -/
theorem field?_bind {α : Type} {f : Json S → Option α} (hf : f .null = none) :
    (Json.field? name r).bind f = (present? r name).bind f := by
  rw [present?]
  cases Json.field? name r with
  | none => rfl
  | some v =>
    cases v with
    | null => exact hf
    | _ => rfl

/-- What is read from a field without asking whether it is `null`. -/
theorem get?_bind_of_restates {α : Type} {f : Json S → Option α} {v v' : Json S}
    (h : InObject (Restates names within) v v') (hname : name ∈ names)
    (hnull : KeepsNull (within name)) (hf : f .null = none)
    (hpart : ∀ w w', within name w w' → f w' = f w) :
    (v'.get? name).bind f = (v.get? name).bind f := by
  cases h with
  | same => rfl
  | @object r r' h =>
    show (Json.field? name r').bind f = (Json.field? name r).bind f
    rw [field?_bind hf, field?_bind hf]
    obtain ⟨hr, hr'⟩ | ⟨v, v', hr, hr', hv⟩ := cases_of_rel (h.present?_rel hname hnull)
    · rw [hr, hr']
    · rw [hr, hr']
      exact hpart v v' hv

end Lookup

/-! ## Items by their places -/

/-- What is said of the items of two lists, each with its place, is the same if it is the
same of any two items that correspond. -/
theorem map_zipIdx_congr {α β γ : Type} {R : α → β → Prop} {xs : List α} {ys : List β}
    (h : List.Forall₂ R xs ys) {f : α × Nat → γ} {g : β × Nat → γ}
    (hfg : ∀ x y i, R x y → f (x, i) = g (y, i)) (k : Nat) :
    (xs.zipIdx k).map f = (ys.zipIdx k).map g := by
  induction h generalizing k with
  | nil => rfl
  | @cons x y xs ys hxy _ ih =>
    rw [List.zipIdx_cons, List.zipIdx_cons, List.map_cons, List.map_cons, hfg x y k hxy,
      ih (k + 1)]

theorem flatMap_zipIdx_congr {α β γ : Type} {R : α → β → Prop} {xs : List α} {ys : List β}
    (h : List.Forall₂ R xs ys) {f : α × Nat → List γ} {g : β × Nat → List γ}
    (hfg : ∀ x y i, R x y → f (x, i) = g (y, i)) : xs.zipIdx.flatMap f = ys.zipIdx.flatMap g := by
  rw [List.flatMap_def, List.flatMap_def, map_zipIdx_congr h hfg]

theorem eachItem_congr {α β : Type} {R : α → β → Prop} {items : List α} {items' : List β}
    (h : List.Forall₂ R items items') {check : α → List (Finding S)}
    {check' : β → List (Finding S)} (hcheck : ∀ x y, R x y → check x = check' y) :
    eachItem items check = eachItem items' check' :=
  flatMap_zipIdx_congr h fun x y i hxy =>
    congrArg (List.map (Finding.under [.index i])) (hcheck x y hxy)

/-! ## The rules about one element -/

section Rules

variable {el el' : Record S} {name : String}

theorem checkType_congr (h : present? el' name = present? el name) (test : Json S → Bool)
    (expected : Expected) : checkType el' test expected name = checkType el test expected name := by
  rw [checkType, checkType, h]

theorem checkRequired_congr (h : present? el' name = present? el name) :
    checkRequired el' name = checkRequired el name := by
  rw [checkRequired, checkRequired, h]

theorem checkNamed_congr (α : Type) [Named α] (h : present? el' name = present? el name) :
    checkNamed α el' name = checkNamed α el name := by
  rw [checkNamed, checkNamed, h]

theorem kindOf_congr (h : present? el' "type" = present? el "type") : kindOf el' = kindOf el := by
  rw [kindOf, kindOf, h]

theorem checkBoundElement_of_restates {v v' : Json S} (h : EntryRestates v v') :
    checkBoundElement v' = checkBoundElement v := by
  cases h with
  | same => rfl
  | @object entry entry' h =>
    have hid : present? entry' "id" = present? entry "id" := h.present?_eq (by decide) rfl
    have hkind := kindOf_congr (h.present?_eq (by decide) rfl)
    show _ ++ _ = _ ++ _
    rw [hid, hkind]

theorem checkBoundElements_of_restates
    (h : Option.Rel (InArray EntryRestates) (present? el "boundElements")
      (present? el' "boundElements")) : checkBoundElements el' = checkBoundElements el := by
  rw [checkBoundElements, checkBoundElements]
  obtain ⟨hel, hel'⟩ | ⟨v, v', hel, hel', hv⟩ := cases_of_rel h
  · rw [hel, hel']
  · rw [hel, hel']
    cases hv with
    | same => rfl
    | array hentries =>
      have hitems := eachItem_congr hentries fun v v' hv => (checkBoundElement_of_restates hv).symm
      exact congrArg (List.map _) hitems.symm

theorem checkBinding_of_restates
    (h : Option.Rel BindingRestates (present? el name) (present? el' name)) :
    checkBinding el' name = checkBinding el name := by
  rw [checkBinding, checkBinding]
  obtain ⟨hel, hel'⟩ | ⟨v, v', hel, hel', hv⟩ := cases_of_rel h
  · rw [hel, hel']
  · rw [hel, hel']
    cases hv with
    | same => rfl
    | @object binding binding' h =>
      have hid : present? binding' "elementId" = present? binding "elementId" :=
        h.present?_eq (by decide) rfl
      have hnumbers : ["focus", "gap"].flatMap (checkType binding' Json.isNumber .number) =
          ["focus", "gap"].flatMap (checkType binding Json.isNumber .number) := by
        refine List.flatMap_congr fun key hkey => checkType_congr (h.present?_eq ?_ rfl) _ _
        exact List.mem_cons_of_mem _ hkey
      show List.map _ (_ ++ _) = List.map _ (_ ++ _)
      rw [hid, hnumbers]

/-- Records of elements that say the same. -/
abbrev RecordRestates : Record S → Record S → Prop :=
  Restates (plainFields ++ bindingFields ++ ["boundElements"]) elementPart

theorem RecordRestates.plain (h : RecordRestates el el') (hname : name ∈ plainFields) :
    present? el' name = present? el name := by
  refine h.present?_eq (List.mem_append_left _ (List.mem_append_left _ hname)) ?_
  have hplain : ∀ name ∈ plainFields, name ≠ "boundElements" ∧ name ∉ bindingFields := by decide
  obtain ⟨hne, hnotMem⟩ := hplain name hname
  rw [elementPart, if_neg hne, if_neg hnotMem]

theorem RecordRestates.binding (h : RecordRestates el el') (hname : name ∈ bindingFields) :
    Option.Rel BindingRestates (present? el name) (present? el' name) := by
  have hne : ∀ name ∈ bindingFields, name ≠ "boundElements" := by decide
  have hrel := h.present?_rel (List.mem_append_left _ (List.mem_append_right _ hname))
    (keepsNull_elementPart name)
  rwa [elementPart, if_neg (hne name hname), if_pos hname] at hrel

theorem RecordRestates.entries (h : RecordRestates el el') :
    Option.Rel (InArray EntryRestates) (present? el "boundElements")
      (present? el' "boundElements") :=
  h.present?_rel (List.mem_append_right _ (List.mem_singleton_self _)) (keepsNull_elementPart _)

theorem checkPayload_of_restates (h : RecordRestates el el') (kind? : Option Drawing.Kind) :
    checkPayload el' kind? = checkPayload el kind? := by
  have hpoints : ∀ pairs, checkPoints el' pairs = checkPoints el pairs := by
    intro pairs
    rw [checkPoints, checkPoints, h.plain (by decide)]
  have hpath : checkPayload el' (some .arrow) = checkPayload el (some .arrow) := by
    have hheads : ["startArrowhead", "endArrowhead"].flatMap (checkNamed Drawing.Arrowhead el') =
        ["startArrowhead", "endArrowhead"].flatMap (checkNamed Drawing.Arrowhead el) := by
      have hplain : ∀ name ∈ ["startArrowhead", "endArrowhead"], name ∈ plainFields := by decide
      exact List.flatMap_congr fun name hname => checkNamed_congr _ (h.plain (hplain name hname))
    have hends : bindingFields.flatMap (checkBinding el') =
        bindingFields.flatMap (checkBinding el) :=
      List.flatMap_congr fun name hname => checkBinding_of_restates (h.binding hname)
    show checkPoints el' true ++ _ ++ bindingFields.flatMap (checkBinding el') =
      checkPoints el true ++ _ ++ bindingFields.flatMap (checkBinding el)
    rw [hpoints, hheads, hends]
  cases kind? with
  | none => rfl
  | some kind =>
    -- a line and an arrow have the same rules
    cases kind with
    | line => exact hpath
    | arrow => exact hpath
    | text =>
      show checkText el' = checkText el
      rw [checkText, checkText, h.plain (by decide)]
    | freedraw =>
      show checkPoints el' false ++ checkPressures el' = checkPoints el false ++ checkPressures el
      rw [hpoints, checkPressures, checkPressures, h.plain (by decide)]
    | _ => rfl

theorem recordErrors_of_restates (h : RecordRestates el el') :
    recordErrors el' = recordErrors el := by
  have hrequired : requiredFields.flatMap (checkRequired el') =
      requiredFields.flatMap (checkRequired el) := by
    have hplain : ∀ name ∈ requiredFields, name ∈ plainFields := by decide
    exact List.flatMap_congr fun name hname => checkRequired_congr (h.plain (hplain name hname))
  have hkind : checkKind el' = checkKind el := by
    rw [checkKind, checkKind, h.plain (by decide)]
  have hnamed : ∀ (α : Type) [Named α] {name}, name ∈ plainFields →
      checkNamed α el' name = checkNamed α el name :=
    fun α _ _ hname => checkNamed_congr α (h.plain hname)
  have htypes : ∀ (fields : List String) (test : Json S → Bool) (expected : Expected),
      (∀ name ∈ fields, name ∈ plainFields) →
      fields.flatMap (checkType el' test expected) = fields.flatMap (checkType el test expected) :=
    fun fields test expected hplain => List.flatMap_congr fun name hname =>
      checkType_congr (h.plain (hplain name hname)) test expected
  have hgroups : checkGroupIds el' = checkGroupIds el := by
    rw [checkGroupIds, checkGroupIds, h.plain (by decide)]
  -- rule by rule, in the order of the report
  rw [recordErrors, recordErrors, hrequired, hkind, hnamed Drawing.FillStyle (by decide),
    hnamed Drawing.StrokeStyle (by decide), hnamed Drawing.TextAlign (by decide),
    hnamed Drawing.VerticalAlign (by decide),
    checkType_congr (h.plain (by decide)) Json.isString .string,
    htypes numericFields _ _ (by decide), htypes colorFields _ _ (by decide),
    htypes booleanFields _ _ (by decide), hgroups, htypes textFields _ _ (by decide),
    checkBoundElements_of_restates h.entries, kindOf_congr (h.plain (by decide)),
    checkPayload_of_restates h]

variable [Scalar S]

theorem recordWarnings_of_restates (h : RecordRestates el el') :
    recordWarnings el' = recordWarnings el := by
  have hscalar : ∀ {name}, name ∈ plainFields → scalar? el' name = scalar? el name := by
    intro name hname
    rw [scalar?, scalar?, h.plain hname]
  rw [recordWarnings, recordWarnings, checkOpacity, checkOpacity, hscalar (by decide), checkAngle,
    checkAngle, hscalar (by decide)]

/-- **Elements.** The rules about one element do not see the edits. -/
theorem element_of_restates {v v' : Json S} (h : ElementRestates v v') :
    element v' = element v := by
  cases h with
  | same => rfl
  | @object el el' h =>
    show Report.mk (recordErrors el') (recordWarnings el') =
      Report.mk (recordErrors el) (recordWarnings el)
    rw [recordErrors_of_restates h, recordWarnings_of_restates h]

end Rules

/-! ## The rules about references -/

section References

variable {elements elements' : List (Json S)} {v v' : Json S}

theorem idOf_of_restates (h : ElementRestates v v') : idOf v' = idOf v :=
  get?_bind_of_restates h (by decide) (keepsNull_elementPart _) rfl fun w w' hw => by
    have hw : w = w' := hw
    rw [hw]

theorem idOf_of_entryRestates (h : EntryRestates v v') : idOf v' = idOf v :=
  get?_bind_of_restates h (by decide) keepsNull_eq rfl fun _ _ hw => by rw [hw]

theorem bindingTarget_of_restates (h : ElementRestates v v') {name : String}
    (hname : name ∈ bindingFields) : bindingTarget v' name = bindingTarget v name := by
  have hne : ∀ name ∈ bindingFields, name ≠ "boundElements" := by decide
  refine get?_bind_of_restates h (List.mem_append_left _ (List.mem_append_right _ hname))
    (keepsNull_elementPart name) rfl fun w w' hw => ?_
  rw [elementPart, if_neg (hne name hname), if_pos hname] at hw
  exact get?_bind_of_restates hw (by decide) keepsNull_eq rfl fun _ _ hw => by rw [hw]

/-- What is said of a list of attached connectors that are no elements, if it is a list. -/
def boundTargets? (elements : List (Json S)) (w : Json S) : Option (List (Finding S)) :=
  w.array?.map fun entries =>
    (eachItem entries fun entry =>
      checkTarget elements (idOf entry) .unknownBoundElement "id").map
        (.under [.key "boundElements"])

theorem checkBoundTargets_eq (elements : List (Json S)) (v : Json S) :
    checkBoundTargets elements v =
      ((v.get? "boundElements").bind (boundTargets? elements)).getD [] := by
  rw [checkBoundTargets]
  cases v.get? "boundElements" with
  | none => rfl
  | some w => cases w <;> rfl

theorem boundTargets?_of_restates {w w' : Json S} (h : InArray EntryRestates w w') :
    boundTargets? elements w' = boundTargets? elements w := by
  cases h with
  | same => rfl
  | array hentries =>
    have hitems := eachItem_congr hentries fun entry entry' hentry =>
      congrArg (checkTarget elements · .unknownBoundElement "id")
        (idOf_of_entryRestates hentry).symm
    exact congrArg (fun fs => some (List.map _ fs)) hitems.symm

theorem checkBoundTargets_of_restates (h : ElementRestates v v') :
    checkBoundTargets elements v' = checkBoundTargets elements v := by
  rw [checkBoundTargets_eq, checkBoundTargets_eq]
  exact congrArg (Option.getD · []) (get?_bind_of_restates h (by decide) (keepsNull_elementPart _)
    rfl fun _ _ hw => boundTargets?_of_restates hw)

variable (h : List.Forall₂ ElementRestates elements elements')

include h

/-- An id is found at the same place. -/
theorem firstWithId_of_restates : firstWithId elements' = firstWithId elements := by
  have hids : elements'.map idOf = elements.map idOf := by
    induction h with
    | nil => rfl
    | cons hv _ ih => rw [List.map_cons, List.map_cons, ih, idOf_of_restates hv]
  funext id
  have hfirst : ∀ es : List (Json S), firstWithId es id =
      (es.map idOf).findIdx? fun id? => id? == some id := by
    intro es
    rw [List.findIdx?_map]
    rfl
  rw [hfirst, hfirst, hids]

/-- **References.** The rules about references do not see the edits. -/
theorem referenceWarnings_of_restates :
    referenceWarnings elements' = referenceWarnings elements := by
  have hfirst := firstWithId_of_restates h
  have htarget : checkTarget elements' = checkTarget elements := by
    funext target problem name
    cases target with
    | none => rfl
    | some id => rw [checkTarget, checkTarget, hfirst]
  rw [referenceWarnings, referenceWarnings]
  congr 1
  · refine (flatMap_zipIdx_congr h fun v v' i hv => ?_).symm
    have hduplicate : checkDuplicate elements' v' i = checkDuplicate elements v i := by
      rw [checkDuplicate, checkDuplicate, hfirst, idOf_of_restates hv]
    exact congrArg (List.map (Finding.under (elementPath i))) hduplicate.symm
  · refine (flatMap_zipIdx_congr h fun v v' i hv => ?_).symm
    have hends : bindingFields.flatMap (checkBindingTarget elements' v') =
        bindingFields.flatMap (checkBindingTarget elements v) := by
      refine List.flatMap_congr fun name hname => ?_
      show (checkTarget elements' (bindingTarget v' name) _ _).map _ =
        (checkTarget elements (bindingTarget v name) _ _).map _
      rw [htarget, bindingTarget_of_restates hv hname]
    have hentries : checkBoundTargets elements' v' = checkBoundTargets elements v := by
      rw [← checkBoundTargets_of_restates hv, checkBoundTargets, checkBoundTargets, htarget]
    have htargets : checkTargets elements' v' = checkTargets elements v :=
      congrArg₂ (· ++ ·) hends hentries
    exact congrArg (List.map (Finding.under (elementPath i))) htargets.symm

theorem elementReports_of_restates [Scalar S] :
    elementReports elements' = elementReports elements :=
  (map_zipIdx_congr h (fun _ _ i hv =>
    congrArg (Report.under (elementPath i)) (element_of_restates hv).symm) 0).symm

end References

/-! ## The document -/

theorem checkAppState_of_restates {doc doc' : Record S}
    (h : Option.Rel AppStateRestates (present? doc "appState") (present? doc' "appState")) :
    checkAppState doc' = checkAppState doc := by
  rw [checkAppState, checkAppState]
  obtain ⟨hdoc, hdoc'⟩ | ⟨v, v', hdoc, hdoc', hv⟩ := cases_of_rel h
  · rw [hdoc, hdoc']
  · rw [hdoc, hdoc']
    cases hv with
    | same => rfl
    | @object state state' h =>
      have hcolor : present? state' "viewBackgroundColor" = present? state "viewBackgroundColor" :=
        h.present?_eq (by decide) rfl
      have hgrid : present? state' "gridSize" = present? state "gridSize" :=
        h.present?_eq (by decide) rfl
      show List.map _ (_ ++ _) = List.map _ (_ ++ _)
      rw [checkType_congr hcolor, checkType_congr hgrid]

variable [Scalar S]

/-- What is said of the elements, one by one and among each other. -/
theorem elements_of_restates {doc doc' : Record S}
    (h : Option.Rel (InArray ElementRestates) (present? doc "elements")
      (present? doc' "elements")) :
    elementsErrors doc' = elementsErrors doc ∧ elementsWarnings doc' = elementsWarnings doc := by
  rw [elementsErrors, elementsErrors, elementsWarnings, elementsWarnings]
  obtain ⟨hdoc, hdoc'⟩ | ⟨v, v', hdoc, hdoc', hv⟩ := cases_of_rel h
  · rw [hdoc, hdoc']
    exact ⟨rfl, rfl⟩
  · rw [hdoc, hdoc']
    cases hv with
    | same => exact ⟨rfl, rfl⟩
    | array h =>
      have hreports := elementReports_of_restates h
      refine ⟨congrArg (List.flatMap Report.errors) hreports, ?_⟩
      show _ ++ _ = _ ++ _
      rw [hreports, referenceWarnings_of_restates h]

/-- The report on a document does not see the edits. -/
theorem document_of_restates {v v' : Json S} (h : DocumentRestates v v') :
    document v' = document v := by
  cases h with
  | same => rfl
  | @object doc doc' h =>
    have hplain : ∀ {name}, name ∈ ["type", "version", "source", "files"] →
        present? doc' name = present? doc name := by
      intro name hname
      have hwithin : ∀ name ∈ ["type", "version", "source", "files"],
          name ∈ ["type", "version", "source", "elements", "appState", "files"] ∧
            name ≠ "elements" ∧ name ≠ "appState" := by decide
      obtain ⟨hmem, helements, hstate⟩ := hwithin name hname
      refine h.present?_eq hmem ?_
      rw [documentPart, if_neg helements, if_neg hstate]
    have hheader : headerErrors doc' = headerErrors doc := by
      rw [headerErrors, headerErrors, checkFormat, checkFormat, checkVersion, checkVersion,
        hplain (by decide), hplain (by decide), checkType_congr (hplain (by decide))]
    have hstate : Option.Rel AppStateRestates (present? doc "appState")
        (present? doc' "appState") :=
      h.present?_rel (by decide) (keepsNull_documentPart "appState")
    have htrailer : trailerErrors doc' = trailerErrors doc := by
      rw [trailerErrors, trailerErrors, checkAppState_of_restates hstate,
        checkType_congr (hplain (by decide))]
    have hversion : versionWarnings doc' = versionWarnings doc := by
      rw [versionWarnings, versionWarnings, hplain (by decide)]
    have helements : Option.Rel (InArray ElementRestates) (present? doc "elements")
        (present? doc' "elements") :=
      h.present?_rel (by decide) (keepsNull_documentPart "elements")
    obtain ⟨herrors, hwarnings⟩ := elements_of_restates helements
    show Report.mk (_ ++ _ ++ _) (_ ++ _) = Report.mk (_ ++ _ ++ _) (_ ++ _)
    rw [hheader, herrors, htrailer, hversion, hwarnings]

/-- **Edits that say nothing.** Where fields that are `null` are left out and fields that no
rule mentions are brought in, in a document, the state that a viewer keeps, the elements,
their ends and their attached connectors, the report stays the same; and so does the report
on one element at any place. -/
theorem report_of_restates (v v' : Json S) :
    (DocumentRestates v v' → document v' = document v) ∧
      (ElementRestates v v' → ∀ index, elementAt index v' = elementAt index v) :=
  ⟨document_of_restates, fun h index =>
    congrArg (Report.under (elementPath index)) (element_of_restates h)⟩

/-- An element with fields that are `null`, in itself and in what it holds. -/
def emptyFields : Json Rat :=
  .object [("id", .string "a"), ("link", .null),
    ("startBinding", .object [("elementId", .string "b"), ("gap", .null)]),
    ("boundElements", .array [.object [("id", .string "c"), ("type", .null)]])]

/-- The same element with fields of other names in their stead. -/
def strangeFields : Json Rat :=
  .object [("id", .string "a"), ("name", .string "first"),
    ("startBinding", .object [("elementId", .string "b"), ("mode", .string "orbit")]),
    ("boundElements", .array [.object [("id", .string "c"), ("note", .null)]])]

theorem restates_strangeFields : ElementRestates emptyFields strangeFields :=
  .object <| .keep rfl <| .leaveOut (by decide) <| .bringIn (by decide) <|
    .keep (.object <| .keep rfl <| .leaveOut (by decide) <| .bringIn (by decide) .nil) <|
    .keep (.array <| .cons (.object <| .keep rfl <| .leaveOut (by decide) <|
      .bringIn (by decide) .nil) .nil) .nil

/-- Two references lead nowhere in either document, and the header is missing. -/
theorem report_of_strangeFields :
    let before : Json Rat := .object [("appState", .object [("gridSize", .null)]),
      ("elements", .array [emptyFields]), ("source", .null)]
    let after : Json Rat := .object [("appState", .object [("zoom", .null)]),
      ("elements", .array [strangeFields]), ("title", .bool true)]
    document after = document before ∧
      elementAt 7 strangeFields = elementAt 7 emptyFields := by
  intro before after
  refine ⟨(report_of_restates before after).1 (.object ?_),
    (report_of_restates emptyFields strangeFields).2 restates_strangeFields 7⟩
  exact .keep (.object <| .leaveOut (by decide) <| .bringIn (by decide) .nil) <|
    .keep (.array <| .cons restates_strangeFields .nil) <|
    .leaveOut (by decide) <| .bringIn (by decide) .nil

end Whiteboard.Audit
