import Whiteboard.Proofs.Drawing.Aspects
import Whiteboard.Proofs.Drawing.Decoding

/-!
# Whiteboard — aspects in JSON

Every aspect has a name, which is its key in the form of an element and in a revision that is
written in JSON. A revision tells three things apart: a key that is missing, a key with `null`,
and a key with a value. What `null` says depends on the aspect: it empties those that may be
empty in an element, and says nothing of the others.

Main results:

* `Revision.decode?_eq_some_iff` — a revision is decoded aspect by aspect.
* `Element.field?_record` — the form of an element has each of its aspects under its name.
* `Element.read?_record` — from the form of an element every aspect is read as what it is.
-/

namespace Whiteboard

/-! ## What an object says -/

namespace Decode

variable {α S : Type}

/-- What an object says under a key, if it has the key. -/
def said? (fields : List (Option String × Tree)) (key : String) : Option Tree :=
  (fields.find? fun f => f.1 == some key).map Prod.snd

/-- The known fields of an object are those of its fields that have known keys, all of them
once, as long as all keys are texts. -/
theorem known?_eq_some_iff {names : List String} {fields : List (Option String × Tree)}
    {fs : Fields} :
    known? names fields = some fs ↔ ∃ all : Fields, fields = all.map (fun f => (some f.1, f.2)) ∧
      fs = all.filter (fun f => names.contains f.1) ∧ (fs.map Prod.fst).Nodup := by
  constructor
  · intro h
    obtain ⟨all, hall, hfs⟩ := Option.bind_eq_some_iff.mp h
    -- no field has a key that is no text, so that all of them can be told from `all`
    have hfields : fields = all.map fun f => (some f.1, f.2) := by
      clear h hfs
      induction fields generalizing all with
      | nil =>
        cases hall
        rfl
      | cons f fields ih =>
        rw [List.mapM_cons] at hall
        obtain ⟨g, hg, hall⟩ := Option.bind_eq_some_iff.mp hall
        obtain ⟨rest, hrest, hall⟩ := Option.bind_eq_some_iff.mp hall
        obtain ⟨k, hk, rfl⟩ := Option.map_eq_some_iff.mp hg
        cases hall
        rw [List.map_cons, ← ih rest hrest, ← hk]
    dsimp only at hfs
    split at hfs
    · rename_i hnodup
      cases hfs
      exact ⟨all, hfields, rfl, hnodup⟩
    · cases hfs
  · rintro ⟨all, rfl, rfl, hnodup⟩
    have hall : (all.map fun f : String × Tree => (some f.1, f.2)).mapM
        (fun f : Option String × Tree => f.1.map fun key => (key, f.2)) = some (all.map id) :=
      mapM_map_eq_some fun f _ => rfl
    rw [known?, hall, List.map_id]
    exact if_pos hnodup

/-- Among the known fields of an object is all that it says under their keys. -/
theorem get?_of_known? {names : List String} {fields : List (Option String × Tree)} {fs : Fields}
    (h : known? names fields = some fs) {key : String} (hkey : key ∈ names) :
    fs.get? key = said? fields key := by
  obtain ⟨all, rfl, rfl, -⟩ := known?_eq_some_iff.mp h
  -- a field that has the key is among the known ones, and no field loses its place
  have hsame : (fun f : String × Tree => decide (names.contains f.1 = true ∧ (f.1 == key) = true)) =
      fun f => f.1 == key := by
    funext f
    by_cases hf : f.1 = key
    · simp [hf, hkey]
    · simp [hf]
  have hkeys : ((fun f : Option String × Tree => f.1 == some key) ∘
      fun f : String × Tree => (some f.1, f.2)) = fun f => f.1 == key := by
    funext f
    simp
  rw [Fields.get?, List.find?_filter, said?, List.find?_map, Option.map_map, hsame, hkeys]
  rfl

/-- The other fields of an object may as well be missing. -/
theorem known?_filter {names : List String} {fields : List (Option String × Tree)} {fs : Fields}
    (h : known? names fields = some fs) :
    known? names (fields.filter fun f => f.1.any names.contains) = some fs := by
  obtain ⟨all, rfl, rfl, hnodup⟩ := known?_eq_some_iff.mp h
  refine known?_eq_some_iff.mpr ⟨all.filter fun f => names.contains f.1, ?_, ?_, hnodup⟩
  · rw [List.filter_map]
    rfl
  · rw [List.filter_filter]
    simp only [Bool.and_self]

/-- A form says under a key what it has there. -/
theorem said?_fieldTrees [Numeral S] (fields : List (String × Json S)) (key : String) :
    said? (Json.fieldTrees fields) key = (Json.field? key fields).map Json.tree := by
  have hkeys : ((fun f : Option String × Tree => f.1 == some key) ∘
      fun f : String × Json S => (some f.1, f.2.tree)) = fun f => f.1 == key := by
    funext f
    simp
  rw [said?, Json.fieldTrees_eq_map, List.find?_map, hkeys, Json.field?, Option.map_map,
    Option.map_map]
  rfl

/-- A value that need not be said; `null` says something of its own, or nothing. -/
def optionally (value? : Tree → Option α) (null : Option α) : Option Tree → Option (Option α)
  | none => some none
  | some .null => some null
  | some t => (value? t).map some

theorem optional?_eq (fs : Fields) (key : String) (value? : Tree → Option α) :
    fs.optional? key value? = optionally value? none (fs.get? key) := by
  rw [Fields.optional?, Fields.defaulted?]
  cases fs.get? key with
  | none => rfl
  | some t => cases t <;> rfl

theorem nullable?_eq (fs : Fields) (key : String) (value? : Tree → Option α) :
    fs.nullable? key value? =
      optionally (fun t => (value? t).map some) (some none) (fs.get? key) := by
  rw [Fields.nullable?, Fields.defaulted?]
  cases fs.get? key with
  | none => rfl
  | some t => cases t <;> rfl

/-- Where `null` says as little as a missing key, what is said counts if it is a value. -/
theorem optionally_join {value? : Tree → Option α} {said : Option Tree} {a?? : Option (Option α)}
    (h : optionally (fun t => (value? t).map some) (some none) said = some a??) :
    optionally value? none said = some a??.join := by
  cases said with
  | none =>
    cases h
    rfl
  | some t =>
    cases t with
    | null =>
      cases h
      rfl
    | bool | number | string | array | object =>
      obtain ⟨_, hsome, rfl⟩ := Option.map_eq_some_iff.mp h
      obtain ⟨a, ha, rfl⟩ := Option.map_eq_some_iff.mp hsome
      exact congrArg (Option.map some) ha

/-- A value is read, if its decoder refuses `null`. -/
theorem optionally_of_value {value? : Tree → Option α} (hnull : value? .null = none) {t : Tree}
    {a : α} (h : value? t = some a) (null : Option α) :
    optionally value? null (some t) = some (some a) := by
  cases t with
  | null =>
    rw [hnull] at h
    cases h
  | bool | number | string | array | object =>
    rw [optionally, h]
    · rfl
    · simp

end Decode

namespace Drawing

open Decode
open Audit (record)
open Json (fieldTrees)

/-! ## Names and values -/

instance : Named Aspect where
  members := [.x, .y, .width, .height, .angle, .strokeColor, .backgroundColor, .fillStyle,
    .strokeWidth, .strokeStyle, .roughness, .opacity, .roundness, .groupIds, .frameId, .link,
    .locked, .isDeleted, .text, .fontSize, .fontFamily, .textAlign, .verticalAlign, .points,
    .startBinding, .endBinding, .startArrowhead, .endArrowhead, .pressures]
  name
    | .x => "x"
    | .y => "y"
    | .width => "width"
    | .height => "height"
    | .angle => "angle"
    | .strokeColor => "strokeColor"
    | .backgroundColor => "backgroundColor"
    | .fillStyle => "fillStyle"
    | .strokeWidth => "strokeWidth"
    | .strokeStyle => "strokeStyle"
    | .roughness => "roughness"
    | .opacity => "opacity"
    | .roundness => "roundness"
    | .groupIds => "groupIds"
    | .frameId => "frameId"
    | .link => "link"
    | .locked => "locked"
    | .isDeleted => "isDeleted"
    | .text => "text"
    | .fontSize => "fontSize"
    | .fontFamily => "fontFamily"
    | .textAlign => "textAlign"
    | .verticalAlign => "verticalAlign"
    | .points => "points"
    | .startBinding => "startBinding"
    | .endBinding => "endBinding"
    | .startArrowhead => "startArrowhead"
    | .endArrowhead => "endArrowhead"
    | .pressures => "pressures"

instance : LawfulNamed Aspect := ⟨fun a => by cases a <;> rfl⟩

/-- The aspects are what revisions have fields for. -/
theorem fieldNames_eq_map_name :
    Revision.fieldNames = (Named.members (α := Aspect)).map Named.name :=
  rfl

theorem name_mem_fieldNames (a : Aspect) : Named.name a ∈ Revision.fieldNames := by
  rw [fieldNames_eq_map_name]
  exact List.mem_map_of_mem (by cases a <;> decide)

namespace Aspect

variable {S : Type}

/-- Whether `null` empties an aspect; it says nothing of the others. -/
def clears : Aspect → Bool
  | .roundness | .frameId | .link | .startBinding | .endBinding | .startArrowhead
  | .endArrowhead => true
  | _ => false

/-- What an aspect is once it is emptied, if it can be. -/
def emptied? : (a : Aspect) → Option (a.Value S)
  | .roundness | .frameId | .link | .startBinding | .endBinding | .startArrowhead
  | .endArrowhead => some none
  | _ => none

theorem isSome_emptied? (a : Aspect) : (a.emptied? : Option (a.Value S)).isSome = a.clears := by
  cases a <;> rfl

variable [Scalar S]

/-- The form of what an aspect is. -/
def form : (a : Aspect) → a.Value S → Json S
  | .x | .y | .width | .height | .angle | .strokeWidth | .fontSize => Json.scalar
  | .strokeColor | .backgroundColor | .text => .string
  | .fillStyle => Json.named
  | .strokeStyle => Json.named
  | .roughness | .opacity | .fontFamily => Json.uint8
  | .roundness => Json.option Roundness.toJson
  | .groupIds => Json.list .string
  | .frameId | .link => Json.option .string
  | .locked | .isDeleted => .bool
  | .textAlign => Json.named
  | .verticalAlign => Json.named
  | .points => Json.list Json.point
  | .startBinding | .endBinding => Json.option Binding.toJson
  | .startArrowhead | .endArrowhead => Json.option Json.named
  | .pressures => Json.list Json.scalar

/-- The form of an aspect that is empty is `null`. -/
theorem form_of_mem_emptied? {a : Aspect} {v : a.Value S} (h : v ∈ a.emptied?) :
    a.form v = .null := by
  cases a <;> cases h <;> rfl

variable [Numeral S]

/-- What a value other than `null` says of an aspect. -/
def value? : (a : Aspect) → Tree → Option (a.Value S)
  | .x | .y | .width | .height | .angle | .strokeWidth | .fontSize => scalar?
  | .strokeColor | .backgroundColor | .text => text?
  | .fillStyle => named? isNull
  | .strokeStyle => named? isNull
  | .roughness | .opacity | .fontFamily => uint8?
  | .roundness => fun t => (Roundness.decode? t).map some
  | .groupIds => list? text?
  | .frameId | .link => fun t => (text? t).map some
  | .locked | .isDeleted => bool?
  | .textAlign => named? isNull
  | .verticalAlign => named? isNull
  | .points => list? point?
  | .startBinding | .endBinding => fun t => (Binding.decode? t).map some
  | .startArrowhead | .endArrowhead => fun t => (named? isNull t).map some
  | .pressures => list? scalar?

/-- What is said of an aspect by a value under its name, by `null`, or by neither. -/
def read? (a : Aspect) : Option Tree → Option (Option (a.Value S)) :=
  optionally a.value? a.emptied?

end Aspect

variable {S : Type} [Scalar S] [Numeral S]

/-! ## Revisions -/

/-- A decoded revision says of every aspect what is said under its name. -/
theorem Revision.exists_read?_of_decode? {t : Tree} :
    ∀ u : Revision S, Revision.decode? t = some u →
      ∃ fs, record? Revision.fieldNames 0 t = some fs ∧
        ∀ a : Aspect, a.read? (fs.get? (Named.name a)) = some (u.get a) := by
  simp only [Revision.decode?, optional?_eq, nullable?_eq]
  -- the steps of the decoder, in their order
  refine forall_bind_eq_some fun fs hfs => forall_bind_eq_some fun x hx =>
    forall_bind_eq_some fun y hy => forall_bind_eq_some fun width hwidth =>
    forall_bind_eq_some fun height hheight => forall_bind_eq_some fun angle hangle =>
    forall_bind_eq_some fun stroke hstroke => forall_bind_eq_some fun background hbackground =>
    forall_bind_eq_some fun fill hfill => forall_bind_eq_some fun strokeWidth hstrokeWidth =>
    forall_bind_eq_some fun style hstyle => forall_bind_eq_some fun roughness hroughness =>
    forall_bind_eq_some fun opacity hopacity => forall_bind_eq_some fun roundness hroundness =>
    forall_bind_eq_some fun groups hgroups => forall_bind_eq_some fun frame hframe =>
    forall_bind_eq_some fun link hlink => forall_bind_eq_some fun locked hlocked =>
    forall_bind_eq_some fun deleted hdeleted => forall_bind_eq_some fun text htext =>
    forall_bind_eq_some fun size hsize => forall_bind_eq_some fun family hfamily =>
    forall_bind_eq_some fun align halign => forall_bind_eq_some fun vertical hvertical =>
    forall_bind_eq_some fun points hpoints => forall_bind_eq_some fun start hstart =>
    forall_bind_eq_some fun finish hfinish => forall_bind_eq_some fun startHead hstartHead =>
    forall_bind_eq_some fun endHead hendHead => forall_bind_eq_some fun pressures hpressures => ?_
  intro u hu
  cases hu
  refine ⟨fs, hfs, fun a => ?_⟩
  cases a
  exacts [hx, hy, hwidth, hheight, hangle, hstroke, hbackground, hfill, hstrokeWidth, hstyle,
    hroughness, hopacity, hroundness, hgroups, hframe, hlink, hlocked, hdeleted, htext, hsize,
    hfamily, halign, hvertical, hpoints, hstart, hfinish, hstartHead, hendHead, hpressures]

/-- **A revision is decoded aspect by aspect.** -/
theorem Revision.decode?_eq_some_iff {t : Tree} {u : Revision S} :
    Revision.decode? t = some u ↔ ∃ fs, record? Revision.fieldNames 0 t = some fs ∧
      ∀ a : Aspect, a.read? (fs.get? (Named.name a)) = some (u.get a) := by
  refine ⟨exists_read?_of_decode? u, ?_⟩
  rintro ⟨fs, hfs, h⟩
  simp only [Revision.decode?, optional?_eq, nullable?_eq]
  exact bind_eq_some_of hfs <| bind_eq_some_of (h .x) <| bind_eq_some_of (h .y) <|
    bind_eq_some_of (h .width) <| bind_eq_some_of (h .height) <| bind_eq_some_of (h .angle) <|
    bind_eq_some_of (h .strokeColor) <| bind_eq_some_of (h .backgroundColor) <|
    bind_eq_some_of (h .fillStyle) <| bind_eq_some_of (h .strokeWidth) <|
    bind_eq_some_of (h .strokeStyle) <| bind_eq_some_of (h .roughness) <|
    bind_eq_some_of (h .opacity) <| bind_eq_some_of (h .roundness) <|
    bind_eq_some_of (h .groupIds) <| bind_eq_some_of (h .frameId) <|
    bind_eq_some_of (h .link) <| bind_eq_some_of (h .locked) <|
    bind_eq_some_of (h .isDeleted) <| bind_eq_some_of (h .text) <|
    bind_eq_some_of (h .fontSize) <| bind_eq_some_of (h .fontFamily) <|
    bind_eq_some_of (h .textAlign) <| bind_eq_some_of (h .verticalAlign) <|
    bind_eq_some_of (h .points) <| bind_eq_some_of (h .startBinding) <|
    bind_eq_some_of (h .endBinding) <| bind_eq_some_of (h .startArrowhead) <|
    bind_eq_some_of (h .endArrowhead) <| bind_eq_some_of (h .pressures) rfl

/-! ## Elements -/

omit [Numeral S] in
/-- **The form of an element has each of its aspects under its name.** -/
theorem Element.field?_record (e : Element S) (a : Aspect) :
    Json.field? (Named.name a) (record e) = (e.get? a).map a.form := by
  unfold record kind
  cases a
  all_goals
    unfold get?
    cases e.shape <;> rfl

/-- All numbers of what an aspect is are finite. -/
def Aspect.IsFinite : (a : Aspect) → a.Value S → Prop
  | .x | .y | .width | .height | .angle | .strokeWidth | .fontSize => fun v =>
    Scalar.isFinite v = true
  | .roundness => fun r? => ∀ r ∈ r?, ∀ v ∈ r.value, Scalar.isFinite v = true
  | .points => fun points => ∀ p ∈ points, p.IsFinite
  | .startBinding | .endBinding => fun b? => ∀ b ∈ b?, b.IsFinite
  | .pressures => fun pressures => ∀ v ∈ pressures, Scalar.isFinite v = true
  | _ => fun _ => True

section

omit [Numeral S]

variable {s : Shape S}

theorem Shape.IsFinite.text? (h : s.IsFinite) :
    ∀ body ∈ s.text?, Scalar.isFinite body.fontSize = true := by
  intro body hbody
  cases s <;> cases hbody
  exact h.1

theorem Shape.IsFinite.polyline? (h : s.IsFinite) : ∀ path ∈ s.polyline?, path.IsFinite := by
  intro path hpath
  cases s <;> cases hpath <;> exact h

theorem Shape.IsFinite.freehand? (h : s.IsFinite) : ∀ stroke ∈ s.freehand?, stroke.IsFinite := by
  intro stroke hstroke
  cases s <;> cases hstroke
  exact h

theorem Shape.IsFinite.points? (h : s.IsFinite) :
    ∀ points ∈ s.points?, ∀ p ∈ points, p.IsFinite := by
  intro points hpoints
  cases s <;> cases hpoints <;> exact h.points

/-- In a finite element every aspect is finite. -/
theorem Element.IsFinite.aspect {e : Element S} (h : e.IsFinite) {a : Aspect} {v : a.Value S}
    (hv : v ∈ e.get? a) : a.IsFinite v := by
  obtain ⟨hshape, hx, hy, hwidth, hheight, hangle, hstrokeWidth, hroundness⟩ := h
  -- the aspects with numbers: those of every element, then those of one shape
  cases a
  case x | y | width | height | angle | strokeWidth | roundness =>
    cases hv
    assumption
  case fontSize =>
    obtain ⟨body, hbody, rfl⟩ := Option.map_eq_some_iff.mp hv
    exact hshape.text? body hbody
  case points => exact hshape.points? v hv
  case startBinding =>
    obtain ⟨path, hpath, rfl⟩ := Option.map_eq_some_iff.mp hv
    exact (hshape.polyline? path hpath).startBinding
  case endBinding =>
    obtain ⟨path, hpath, rfl⟩ := Option.map_eq_some_iff.mp hv
    exact (hshape.polyline? path hpath).endBinding
  case pressures =>
    obtain ⟨stroke, hstroke, rfl⟩ := Option.map_eq_some_iff.mp hv
    exact (hshape.freehand? stroke hstroke).pressures
  -- the others have no numbers that could be infinite
  all_goals trivial

end

section

variable [ExactNumeral S]

/-- **An aspect is read back from its form**, where reading is exact. -/
theorem Aspect.read?_form {a : Aspect} {v : a.Value S} (h : a.IsFinite v) :
    a.read? (some (a.form v).tree) = some (some v) := by
  -- an aspect that can be emptied is `null`, or has a value that is not
  have hnullable : ∀ {α : Type} {value? : Tree → Option α} {form : α → Json S} (v? : Option α),
      value? .null = none → (∀ v ∈ v?, value? (form v).tree = some v) →
      optionally (fun t => (value? t).map some) (some none) (some (Json.option form v?).tree) =
        some (some v?) := fun {α value? form} v? hnull hvalue => by
    cases v? with
    | none => rfl
    | some v =>
      refine optionally_of_value (by rw [hnull, Option.map_none]) ?_ _
      rw [Json.option, hvalue v rfl, Option.map_some]
  cases a
  case x | y | width | height | angle | strokeWidth | fontSize =>
    exact optionally_of_value rfl (scalar?_tree_of_exact h) _
  case strokeColor | backgroundColor | text =>
    exact optionally_of_value rfl (text?_tree v) _
  case fillStyle | strokeStyle | textAlign | verticalAlign =>
    exact optionally_of_value rfl (named?_tree isNull v) _
  case roughness | opacity | fontFamily =>
    exact optionally_of_value rfl (uint8?_tree v) _
  case locked | isDeleted => exact optionally_of_value rfl (bool?_tree v) _
  case groupIds => exact optionally_of_value rfl (list?_tree_self fun id _ => text?_tree id) _
  case points =>
    refine optionally_of_value rfl (list?_tree_self fun p hp => ?_) _
    rw [point?_tree (h p hp), Point.reread_eq (h p hp)]
  case pressures =>
    exact optionally_of_value rfl (list?_tree_self fun x hx => scalar?_tree_of_exact (h x hx)) _
  case roundness =>
    refine hnullable v rfl fun r hr => ?_
    rw [Roundness.decode?_tree (h r hr), Roundness.reread_eq (h r hr)]
  case frameId | link => exact hnullable v rfl fun s _ => text?_tree s
  case startBinding | endBinding =>
    refine hnullable v rfl fun b hb => ?_
    rw [Binding.decode?_tree (h b hb), Binding.reread_eq (h b hb)]
  case startArrowhead | endArrowhead => exact hnullable v rfl fun head _ => named?_tree isNull head

/-- **From the form of an element every aspect is read as what it is.** -/
theorem Element.read?_record {e : Element S} (h : e.IsFinite) {names : List String} {fs : Fields}
    (hfs : known? names (fieldTrees (record e)) = some fs) {a : Aspect}
    (ha : Named.name a ∈ names) : a.read? (fs.get? (Named.name a)) = some (e.get? a) := by
  rw [get?_of_known? hfs ha, said?_fieldTrees, e.field?_record]
  -- an aspect that the element does not have is missing in the form, too
  cases hv : e.get? a with
  | none => rfl
  | some v => exact Aspect.read?_form (h.aspect hv)

end

end Drawing

end Whiteboard
