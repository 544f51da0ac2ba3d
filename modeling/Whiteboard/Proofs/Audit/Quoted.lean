import Whiteboard.Proofs.Audit.Reported
import Whiteboard.Proofs.Text.Lines

/-!
# Whiteboard — what findings quote

What a finding says is known but for a part. The path is made of names of known fields and of
numbers, and so are most messages; a value that is of the wrong format is written as a value. But
five messages quote a text as it is, and then it is one of the strings that the value holds, at
whatever depth.

Main results:

* `faithful_element` — what is said of an element, wherever it stands.
* `faithful_document` — what is said of a document.
-/

namespace Whiteboard

open Text (OneLine)

/-- The text is one of the strings that the value holds. Keys are not among them. -/
inductive Json.Says {S : Type} (text : String) : Json S → Prop where
  | string : Says text (.string text)
  | item {items : List (Json S)} {v : Json S} (hv : v ∈ items) (h : Says text v) :
      Says text (.array items)
  | field {fields : List (String × Json S)} {key : String} {v : Json S} (hv : (key, v) ∈ fields)
      (h : Says text v) : Says text (.object fields)

namespace Json

variable {S : Type}

theorem says_of_string? {v : Json S} {text : String} (h : v.string? = some text) :
    v.Says text := by
  cases v with
  | string s =>
    obtain rfl : s = text := Option.some.inj h
    exact .string
  | _ => cases h

theorem Says.of_get? {v w : Json S} {key text : String} (h : v.get? key = some w)
    (hw : w.Says text) : v.Says text := by
  cases v with
  | object fields => exact .field (Audit.mem_of_field? h) hw
  | _ => cases h

end Json

namespace Audit

variable {S : Type}

/-! ## Findings -/

/-- The text that a message quotes as it is. -/
def Problem.quoted? : Problem S → Option String
  | .unknownKind name | .invalidName _ name => some name
  | .duplicateId id _ | .unknownBindingTarget id | .unknownBoundElement id => some id
  | _ => none

/-- The names that a message mentions and that are no part of the value. -/
def Problem.names : Problem S → List String
  | .missingField name | .wrongType name _ | .invalidName name _ => [name]
  | .wrongFormat expected _ => [expected]
  | _ => []

/-- What the finding says word for word is known but for a text that it quotes, and that one is a
string of the value. All names in its path and in its message are single lines. -/
structure Finding.Tells (v : Json S) (f : Finding S) : Prop where
  path : ∀ name, Step.key name ∈ f.path → OneLine name
  names : ∀ name ∈ f.problem.names, OneLine name
  quoted : ∀ text, f.problem.quoted? = some text → v.Says text

/-- All findings are of this sort. -/
def Faithful (v : Json S) (fs : List (Finding S)) : Prop := ∀ f ∈ fs, f.Tells v

theorem faithful_nil (v : Json S) : Faithful v [] := by
  intro f hf
  cases hf

theorem faithful_append {v : Json S} {fs gs : List (Finding S)} :
    Faithful v (fs ++ gs) ↔ Faithful v fs ∧ Faithful v gs := List.forall_mem_append

theorem faithful_flatMap {ι : Type} {v : Json S} {items : List ι} {about : ι → List (Finding S)}
    (h : ∀ item ∈ items, Faithful v (about item)) : Faithful v (items.flatMap about) := by
  intro f hf
  obtain ⟨item, hitem, hf⟩ := List.mem_flatMap.mp hf
  exact h item hitem f hf

theorem faithful_singleton {v : Json S} {f : Finding S} (h : f.Tells v) : Faithful v [f] :=
  List.forall_mem_singleton.mpr h

theorem faithful_atField {v : Json S} {name : String} (hname : OneLine name) {problem : Problem S}
    (hnames : ∀ other ∈ problem.names, OneLine other)
    (hquoted : ∀ text, problem.quoted? = some text → v.Says text) :
    Faithful v [atField name problem] := by
  refine faithful_singleton ⟨?_, hnames, hquoted⟩
  intro other hother
  obtain rfl := Step.key.inj (List.mem_singleton.mp hother)
  exact hname

/-- A finding about a field that mentions this field at most and quotes nothing. -/
theorem faithful_field {v : Json S} {name : String} (hname : OneLine name) {problem : Problem S}
    (hnames : problem.names ⊆ [name]) (hquoted : problem.quoted? = none) :
    Faithful v [atField name problem] := by
  refine faithful_atField hname (fun other hother => ?_) fun text htext => ?_
  · rwa [List.mem_singleton.mp (hnames hother)]
  · cases hquoted.symm.trans htext

/-- A finding about a field that quotes a text of the value. -/
theorem faithful_quote {v : Json S} {name : String} (hname : OneLine name) {problem : Problem S}
    (hnames : problem.names ⊆ [name]) {text : String}
    (hquoted : problem.quoted? = some text) (h : v.Says text) :
    Faithful v [atField name problem] := by
  refine faithful_atField hname (fun other hother => ?_) fun text' htext => ?_
  · rwa [List.mem_singleton.mp (hnames hother)]
  · obtain rfl := Option.some.inj (hquoted.symm.trans htext)
    exact h

/-- A finding about the whole of a value that mentions and quotes nothing. -/
theorem faithful_whole {v : Json S} {problem : Problem S} (hnames : problem.names = [])
    (hquoted : problem.quoted? = none) : Faithful v [⟨[], problem⟩] := by
  refine faithful_singleton ⟨?_, ?_, ?_⟩
  · intro name hname
    cases hname
  · intro name hname
    rw [hnames] at hname
    cases hname
  · intro text htext
    cases hquoted.symm.trans htext

/-! ## Parts of a value -/

/-- What is said of a field, seen from the record. -/
theorem Faithful.under_key {w : Json S} {fs : List (Finding S)} (h : Faithful w fs) {name : String}
    (hname : OneLine name) {v : Json S} (hv : ∀ text, w.Says text → v.Says text) :
    Faithful v (fs.map (.under [.key name])) := by
  unfold Faithful
  rw [List.forall_mem_map]
  intro f hf
  obtain ⟨hpath, hnames, hquoted⟩ := h f hf
  refine ⟨?_, hnames, fun text htext => hv text (hquoted text htext)⟩
  intro other hother
  rcases List.mem_cons.mp hother with hkey | hrest
  · obtain rfl := Step.key.inj hkey
    exact hname
  · exact hpath other hrest

theorem Faithful.under_field {w : Json S} {fs : List (Finding S)} (h : Faithful w fs)
    {name : String} (hname : OneLine name) {el : Record S} (hw : present? el name = some w) :
    Faithful (.object el) (fs.map (.under [.key name])) :=
  h.under_key hname fun _ htext => .field (mem_of_present? hw).1 htext

/-- What is said of items, seen from the list. -/
theorem faithful_numbered {items : List (Json S)} {about : Json S → Nat → List (Finding S)}
    (h : ∀ item ∈ items, ∀ i, Faithful item (about item i)) :
    Faithful (.array items) (numbered items about) := by
  refine faithful_flatMap ?_
  rintro ⟨item, i⟩ hitem
  have hmem := List.fst_mem_of_mem_zipIdx hitem
  unfold Faithful
  rw [List.forall_mem_map]
  intro f hf
  obtain ⟨hpath, hnames, hquoted⟩ := h item hmem i f hf
  refine ⟨?_, hnames, fun text htext => .item hmem (hquoted text htext)⟩
  -- a number comes before the path, and a number is no name
  intro name hname
  rcases List.mem_cons.mp hname with hkey | hrest
  · cases hkey
  · exact hpath name hrest

theorem faithful_eachItem {items : List (Json S)} {check : Json S → List (Finding S)}
    (h : ∀ item ∈ items, Faithful item (check item)) :
    Faithful (.array items) (eachItem items check) :=
  faithful_numbered fun item hitem _ => h item hitem

/-! ## The errors of an element -/

theorem faithful_checkRequired {v : Json S} {el : Record S} {name : String} (hname : OneLine name) :
    Faithful v (checkRequired el name) := by
  unfold checkRequired
  split
  · exact faithful_nil v
  · exact faithful_field hname (List.Subset.refl _) rfl

theorem faithful_checkType {v : Json S} {el : Record S} {test : Json S → Bool}
    {expected : Expected} {name : String} (hname : OneLine name) :
    Faithful v (checkType el test expected name) := by
  unfold checkType
  split
  · split
    · exact faithful_nil v
    · exact faithful_field hname (List.Subset.refl _) rfl
  · exact faithful_nil v

/-- What is no string cannot be quoted, and what is one is a string of the record. -/
theorem says_of_present? {el : Record S} {name text : String} {v : Json S}
    (h : present? el name = some v) (htext : v.string? = some text) :
    (Json.object el).Says text :=
  .field (mem_of_present? h).1 (Json.says_of_string? htext)

theorem faithful_checkNamed {α : Type} [Named α] {el : Record S} {name : String}
    (hname : OneLine name) : Faithful (.object el) (checkNamed α el name) := by
  unfold checkNamed
  cases hv : present? el name with
  | none => exact faithful_nil _
  | some v =>
    cases htext : v.string? with
    | none =>
      simp only [htext]
      exact faithful_field hname (List.Subset.refl _) rfl
    | some text =>
      simp only [htext]
      split
      · exact faithful_nil _
      · exact faithful_quote hname (List.Subset.refl _) rfl (says_of_present? hv htext)

theorem faithful_checkKind (el : Record S) : Faithful (.object el) (checkKind el) := by
  have hname : OneLine "type" := by decide
  unfold checkKind
  cases hv : present? el "type" with
  | none => exact faithful_nil _
  | some v =>
    cases htext : v.string? with
    | none =>
      simp only [htext]
      exact faithful_field hname (List.Subset.refl _) rfl
    | some text =>
      simp only [htext]
      split
      · exact faithful_nil _
      · exact faithful_quote hname (List.nil_subset _) rfl (says_of_present? hv htext)

theorem faithful_checkGroupIds (el : Record S) : Faithful (.object el) (checkGroupIds el) := by
  have hname : OneLine "groupIds" := by decide
  unfold checkGroupIds
  cases hv : present? el "groupIds" with
  | none => exact faithful_nil _
  | some v =>
    cases v with
    | array groups =>
      refine Faithful.under_field (faithful_eachItem fun g _ => ?_) hname hv
      split
      · exact faithful_nil _
      · exact faithful_whole rfl rfl
    | _ => exact faithful_field hname (List.Subset.refl _) rfl

theorem faithful_checkBoundElement (v : Json S) : Faithful v (checkBoundElement v) := by
  cases v with
  | object entry =>
    refine faithful_append.mpr ⟨?_, ?_⟩
    · split
      · exact faithful_nil _
      · exact faithful_field (by decide) (List.nil_subset _) rfl
    · split
      · exact faithful_nil _
      · exact faithful_field (by decide) (List.nil_subset _) rfl
  | _ => exact faithful_whole rfl rfl

theorem faithful_checkBoundElements (el : Record S) :
    Faithful (.object el) (checkBoundElements el) := by
  have hname : OneLine "boundElements" := by decide
  unfold checkBoundElements
  cases hv : present? el "boundElements" with
  | none => exact faithful_nil _
  | some v =>
    cases v with
    | array entries =>
      have hentries := faithful_eachItem fun (entry : Json S) (_ : entry ∈ entries) =>
        faithful_checkBoundElement entry
      exact hentries.under_field hname hv
    | _ => exact faithful_field hname (List.Subset.refl _) rfl

theorem faithful_checkText (v : Json S) (el : Record S) : Faithful v (checkText el) := by
  unfold checkText
  split
  · exact faithful_nil v
  · exact faithful_field (by decide) (List.nil_subset _) rfl

theorem faithful_checkPoints (el : Record S) (pairs : Bool) :
    Faithful (.object el) (checkPoints el pairs) := by
  have hname : OneLine "points" := by decide
  have hmissing : Faithful (.object el) [atField "points" (.wrongType "points" .array)] :=
    faithful_field hname (List.Subset.refl _) rfl
  unfold checkPoints
  cases hv : present? el "points" with
  | none => exact hmissing
  | some v =>
    cases v with
    | array points =>
      cases pairs with
      | false => exact faithful_nil _
      | true =>
        refine Faithful.under_field (faithful_eachItem fun p _ => ?_) hname hv
        split
        · exact faithful_nil _
        · exact faithful_whole rfl rfl
    | _ => exact hmissing

theorem faithful_checkBinding {el : Record S} {name : String} (hname : OneLine name) :
    Faithful (.object el) (checkBinding el name) := by
  cases hv : present? el name with
  | none =>
    rw [checkBinding, hv]
    exact faithful_nil _
  | some v =>
    cases v with
    | object binding =>
      rw [checkBinding_of_object hv]
      refine Faithful.under_field (faithful_flatMap ?_) hname hv
      simp only [bindingParts, List.forall_mem_cons, List.not_mem_nil, false_imp_iff, implies_true,
        and_true]
      refine ⟨?_, faithful_checkType (by decide), faithful_checkType (by decide)⟩
      split
      · exact faithful_nil _
      · exact faithful_field (by decide) (List.nil_subset _) rfl
    | _ =>
      rw [checkBinding, hv]
      exact faithful_field hname (List.Subset.refl _) rfl

theorem faithful_checkPressures (v : Json S) (el : Record S) : Faithful v (checkPressures el) := by
  have hname : OneLine "pressures" := by decide
  unfold checkPressures
  split
  · exact faithful_nil v
  · split
    · exact faithful_field hname (List.Subset.refl _) rfl
    · split
      · exact faithful_nil v
      · exact faithful_field hname (List.nil_subset _) rfl

theorem faithful_payloadParts (el : Record S) (kind? : Option Drawing.Kind) :
    ∀ part ∈ payloadParts el kind?, Faithful (.object el) part.2 := by
  have hpolyline : ∀ part ∈ payloadParts el (some .line), Faithful (.object el) part.2 := by
    simp only [payloadParts, List.map_cons, List.map_nil, List.forall_mem_append,
      List.forall_mem_cons, List.not_mem_nil, false_imp_iff, implies_true, and_true]
    exact ⟨⟨faithful_checkPoints el true, faithful_checkNamed (by decide),
      faithful_checkNamed (by decide)⟩, faithful_checkBinding (by decide),
      faithful_checkBinding (by decide)⟩
  rcases kind? with _ | kind
  · exact fun part h => by cases h
  · cases kind with
    | text => exact List.forall_mem_singleton.mpr (faithful_checkText _ el)
    | line | arrow => exact hpolyline
    | freedraw =>
      simp only [payloadParts, List.forall_mem_cons, List.not_mem_nil, false_imp_iff, implies_true,
        and_true]
      exact ⟨faithful_checkPoints el false, faithful_checkPressures _ el⟩
    | _ => exact fun part h => by cases h

theorem faithful_recordErrors (el : Record S) : Faithful (.object el) (recordErrors el) := by
  have hnames : ∀ name ∈ requiredFields ++ numericFields ++ colorFields ++ booleanFields ++
      textFields, OneLine name := by decide
  simp only [List.forall_mem_append] at hnames
  obtain ⟨⟨⟨⟨hrequired, hnumeric⟩, hcolor⟩, hboolean⟩, htext⟩ := hnames
  rw [recordErrors_eq, faithful_append]
  refine ⟨faithful_flatMap ?_, faithful_flatMap ?_⟩
  · exact List.forall_mem_map.mpr fun name h => faithful_checkRequired (hrequired name h)
  · simp only [valueParts, List.forall_mem_append, List.forall_mem_map, List.forall_mem_cons,
      List.not_mem_nil, false_imp_iff, implies_true, and_true]
    refine ⟨⟨⟨⟨⟨⟨⟨?_, fun name h => ?_⟩, fun name h => ?_⟩, fun name h => ?_⟩, ?_⟩,
      fun name h => ?_⟩, ?_⟩, faithful_payloadParts el _⟩
    · exact ⟨faithful_checkKind el, faithful_checkNamed (by decide),
        faithful_checkNamed (by decide), faithful_checkNamed (by decide),
        faithful_checkNamed (by decide),
        faithful_checkType (by decide)⟩
    · exact faithful_checkType (hnumeric name h)
    · exact faithful_checkType (hcolor name h)
    · exact faithful_checkType (hboolean name h)
    · exact faithful_checkGroupIds el
    · exact faithful_checkType (htext name h)
    · exact faithful_checkBoundElements el

/-! ## The warnings of an element -/

/-- A warning about a reference quotes the reference. -/
theorem faithful_checkTarget {v : Json S} {elements : List (Json S)} {target : Option String}
    {problem : String → Problem S} {name : String} (hname : OneLine name)
    (hnames : ∀ id, (problem id).names = []) (hquoted : ∀ id, (problem id).quoted? = some id)
    (htarget : ∀ id, target = some id → v.Says id) :
    Faithful v (checkTarget elements target problem name) := by
  unfold checkTarget
  split
  · exact faithful_nil v
  · rename_i id
    split
    · exact faithful_nil v
    · refine faithful_quote hname ?_ (hquoted id) (htarget id rfl)
      rw [hnames]
      exact List.nil_subset _

theorem says_of_idOf {v : Json S} {id : String} (h : idOf v = some id) : v.Says id := by
  obtain ⟨w, hw, hid⟩ := Option.bind_eq_some_iff.mp h
  exact .of_get? hw (Json.says_of_string? hid)

theorem faithful_checkDuplicate (elements : List (Json S)) (v : Json S) (index : Nat) :
    Faithful v (checkDuplicate elements v index) := by
  unfold checkDuplicate
  cases hid : idOf v with
  | none => exact faithful_nil v
  | some id =>
    simp only
    split
    · split
      · exact faithful_quote (by decide) (List.nil_subset _) rfl (says_of_idOf hid)
      · exact faithful_nil v
    · exact faithful_nil v

theorem faithful_checkBindingTarget (elements : List (Json S)) (v : Json S) {name : String}
    (hname : OneLine name) : Faithful v (checkBindingTarget elements v name) := by
  unfold checkBindingTarget
  cases hb : v.get? name with
  | none => exact faithful_nil v
  | some b =>
    have htarget : Faithful b (checkTarget elements ((b.get? "elementId").bind Json.string?)
        .unknownBindingTarget "elementId") := by
      refine faithful_checkTarget (by decide) (fun _ => rfl) (fun _ => rfl) fun id hid => ?_
      obtain ⟨w, hw, hid⟩ := Option.bind_eq_some_iff.mp hid
      exact .of_get? hw (Json.says_of_string? hid)
    exact htarget.under_key hname fun _ htext => .of_get? hb htext

theorem faithful_checkBoundTargets (elements : List (Json S)) (v : Json S) :
    Faithful v (checkBoundTargets elements v) := by
  unfold checkBoundTargets
  cases hb : v.get? "boundElements" with
  | none => exact faithful_nil v
  | some b =>
    cases b with
    | array entries =>
      refine Faithful.under_key (faithful_eachItem fun entry _ => ?_) (by decide)
        fun _ htext => Json.Says.of_get? hb htext
      exact faithful_checkTarget (by decide) (fun _ => rfl) (fun _ => rfl) fun id => says_of_idOf
    | _ => exact faithful_nil v

variable [Scalar S]

theorem faithful_recordWarnings (v : Json S) (el : Record S) : Faithful v (recordWarnings el) := by
  refine faithful_append.mpr ⟨?_, ?_⟩
  · unfold checkOpacity
    split
    · split
      · exact faithful_nil v
      · exact faithful_field (by decide) (List.nil_subset _) rfl
    · exact faithful_nil v
  · unfold checkAngle
    split
    · split
      · exact faithful_field (by decide) (List.nil_subset _) rfl
      · exact faithful_nil v
    · exact faithful_nil v

/-- **Elements.** Findings about an element quote no more than strings of it. -/
theorem faithful_element (v : Json S) :
    Faithful v ((element v).errors ++ (element v).warnings) := by
  cases v with
  | object el => exact faithful_append.mpr ⟨faithful_recordErrors el, faithful_recordWarnings _ el⟩
  | _ => exact faithful_whole rfl rfl

theorem faithful_allFindings (elements : List (Json S)) (v : Json S) (i : Nat) :
    Faithful v (allFindings elements v i) := by
  rw [allFindings, ← List.append_assoc, faithful_append]
  refine ⟨faithful_element v, faithful_append.mpr ⟨faithful_checkDuplicate elements v i, ?_⟩⟩
  refine faithful_append.mpr ⟨faithful_flatMap ?_, faithful_checkBoundTargets elements v⟩
  have hnames : ∀ name ∈ ["startBinding", "endBinding"], OneLine name := by decide
  exact fun name h => faithful_checkBindingTarget elements v (hnames name h)

/-! ## Documents -/

theorem faithful_elements (doc : Record S) :
    Faithful (.object doc) (elementsErrors doc ++ elementsWarnings doc) := by
  have hname : OneLine "elements" := by decide
  cases hv : present? doc "elements" with
  | none =>
    rw [elementsErrors, elementsWarnings, hv]
    exact faithful_field hname (List.Subset.refl _) rfl
  | some v =>
    cases v with
    | array elements =>
      have hall : Faithful (.object doc)
          ((numbered elements (allFindings elements)).map (.under [.key "elements"])) :=
        Faithful.under_field
          (faithful_numbered fun v _ i => faithful_allFindings elements v i) hname hv
      exact fun f hf => hall f ((elements_perm hv).mem_iff.mpr hf)
    | _ =>
      rw [elementsErrors, elementsWarnings, hv]
      exact faithful_field hname (List.Subset.refl _) rfl

omit [Scalar S] in
/-- The tag that a document has instead of the right one is not quoted. It may be of any type, so
it is written as a value. -/
theorem faithful_checkFormat (v : Json S) (doc : Record S) : Faithful v (checkFormat doc) := by
  have hname : OneLine "type" := by decide
  have htag : OneLine Drawing.formatTag := by decide
  unfold checkFormat
  split
  · exact faithful_field hname (List.Subset.refl _) rfl
  · split
    · exact faithful_nil v
    · refine faithful_atField hname (List.forall_mem_singleton.mpr htag) fun text htext => ?_
      cases htext

omit [Scalar S] in
theorem faithful_checkVersion (v : Json S) (doc : Record S) : Faithful v (checkVersion doc) := by
  have hname : OneLine "version" := by decide
  unfold checkVersion
  split
  · exact faithful_field hname (List.Subset.refl _) rfl
  · split
    · exact faithful_nil v
    · exact faithful_field hname (List.Subset.refl _) rfl

theorem faithful_versionWarnings (v : Json S) (doc : Record S) :
    Faithful v (versionWarnings doc) := by
  unfold versionWarnings
  split
  · split
    · exact faithful_nil v
    · exact faithful_field (by decide) (List.nil_subset _) rfl
  · exact faithful_nil v

omit [Scalar S] in
theorem faithful_checkAppState (doc : Record S) : Faithful (.object doc) (checkAppState doc) := by
  have hname : OneLine "appState" := by decide
  unfold checkAppState
  cases hv : present? doc "appState" with
  | none => exact faithful_nil _
  | some v =>
    cases v with
    | object state =>
      refine Faithful.under_field (faithful_append.mpr ⟨?_, ?_⟩) hname hv
      · exact faithful_checkType (by decide)
      · exact faithful_checkType (by decide)
    | _ => exact faithful_field hname (List.Subset.refl _) rfl

/-- **Documents.** Findings about a document quote no more than strings of it. -/
theorem faithful_document (v : Json S) :
    Faithful v ((document v).errors ++ (document v).warnings) := by
  cases v with
  | object doc =>
    have hall : Faithful (.object doc) ((documentParts doc).flatMap Prod.snd) := by
      refine faithful_flatMap ?_
      simp only [documentParts, List.forall_mem_cons, List.not_mem_nil, false_imp_iff,
        implies_true, and_true]
      exact ⟨faithful_checkFormat _ doc,
        faithful_append.mpr ⟨faithful_checkVersion _ doc, faithful_versionWarnings _ doc⟩,
        faithful_checkType (by decide), faithful_elements doc, faithful_checkAppState doc,
        faithful_checkType (by decide)⟩
    exact fun f hf => hall f ((documentParts_perm doc).mem_iff.mpr hf)
  | _ => exact faithful_whole rfl rfl

/-- Findings seen from the document that an element stands in. -/
theorem faithful_elementAt (index : Nat) (v : Json S) :
    Faithful v ((elementAt index v).errors ++ (elementAt index v).warnings) := by
  have hunder : (elementAt index v).errors ++ (elementAt index v).warnings =
      ((element v).errors ++ (element v).warnings).map (.under (elementPath index)) :=
    List.map_append.symm
  rw [hunder, Faithful, List.forall_mem_map]
  intro f hf
  obtain ⟨hpath, hnames, hquoted⟩ := faithful_element v f hf
  refine ⟨?_, hnames, hquoted⟩
  intro name hname
  rcases List.mem_append.mp hname with hbefore | hrest
  · have hkey : name = "elements" := by simpa [elementPath] using hbefore
    rw [hkey]
    decide
  · exact hpath name hrest

end Audit

end Whiteboard
