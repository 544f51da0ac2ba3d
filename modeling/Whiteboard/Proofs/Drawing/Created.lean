import Whiteboard.Drawing.Draft
import Whiteboard.Proofs.Audit.Records
import Whiteboard.Proofs.Drawing.Aspects
import Whiteboard.Proofs.Drawing.Draws

/-!
# Whiteboard — what creation does

An element is made of one draft, in one step, for seven kinds. Nothing is drawn before it is
known that the kind is one of them, so a draft of any other kind leaves the source of
identities alone. After that nothing can fail, and the draws are the same for all kinds: an id
unless the draft names one, a seed, a nonce.

Of the element, the kind decides which parts of the draft count. Those are its *aspects* that
the kind takes from the draft; all others could be anything and make no difference.

Main results:

* `shape?_eq_none_iff` — which kinds can be drafted.
* `run_create_of_none`, `run_create_of_shape?` — what is drawn.
* `Draft.get?_element` — what is said of an aspect is what it is.
* `create_congr` — what a kind does not take has no effect.
* `create_runs` — all together, for every draft and every state of the source.
-/

namespace Whiteboard.Drawing

variable {S : Type}

/-! ## Kinds that can be drafted -/

/-- The kinds of which elements are made. -/
def draftedKinds : List Kind := [.rectangle, .ellipse, .diamond, .text, .line, .arrow, .freedraw]

/-- Their names, as drafts spell them. -/
def draftedNames : List String :=
  ["rectangle", "ellipse", "diamond", "text", "line", "arrow", "freedraw"]

theorem map_name_draftedKinds : draftedKinds.map Named.name = draftedNames := rfl

/-- What a draft has to say of an aspect. -/
def Draft.get (d : Draft S) : (a : Aspect) → Option (a.Value S)
  | .x => some d.x
  | .y => some d.y
  | .width => d.width
  | .height => d.height
  | .angle => d.angle
  | .strokeColor => d.strokeColor
  | .backgroundColor => d.backgroundColor
  | .fillStyle => d.fillStyle
  | .strokeWidth => d.strokeWidth
  | .strokeStyle => d.strokeStyle
  | .roughness => d.roughness
  | .opacity => d.opacity
  | .roundness => d.roundness
  | .groupIds => d.groupIds
  | .frameId => d.frameId.map some
  | .link => d.link.map some
  | .locked => d.locked
  | .text => d.text
  | .fontSize => d.fontSize
  | .fontFamily => d.fontFamily
  | .textAlign => d.textAlign
  | .verticalAlign => d.verticalAlign
  | .points => d.points
  | .startArrowhead => d.startArrowhead
  | .endArrowhead => d.endArrowhead
  | .pressures => d.pressures
  | .isDeleted | .startBinding | .endBinding => none

/-- Which aspects of a new element its draft decides. Lines, arrows and strokes are as large as
their points, and nothing new is deleted or attached. -/
def Kind.takes (kind : Kind) : Aspect → Bool
  | .width | .height => !(kind.isLinear || kind = .freedraw)
  | .isDeleted | .startBinding | .endBinding => false
  | a => kind.has a

/-- To a kind both drafts say the same. -/
def Draft.AgreeOn (kind : Kind) (d d' : Draft S) : Prop :=
  ∀ a, kind.takes a = true → d'.get a = d.get a

variable [Scalar S]

/-- The shape that a draft describes for each kind. -/
def Draft.shapeOf (d : Draft S) : Kind → Option (Shape S)
  | .rectangle => some .rectangle
  | .ellipse => some .ellipse
  | .diamond => some .diamond
  | .text => some (.text d.textBody)
  | .line => some (.line (d.polyline none))
  | .arrow => some (.arrow (d.polyline (some .arrow)))
  | .freedraw => some (.freedraw d.freehand)
  | _ => none

theorem Draft.shape?_of_name {d : Draft S} {kind : Kind} (h : Named.name kind = d.kind) :
    d.shape? = d.shapeOf kind := by
  have hkind : (Named.ofName? d.kind : Option Kind) = some kind := by
    rw [← h]
    exact LawfulNamed.ofName?_name kind
  rw [Draft.shape?, hkind]
  cases kind <;> rfl

/-- A draft with a shape is of the kind of the shape. -/
theorem Draft.name_kind_of_shape? {d : Draft S} {shape : Shape S} (h : d.shape? = some shape) :
    Named.name shape.kind = d.kind := by
  cases hkind : (Named.ofName? d.kind : Option Kind) with
  | none =>
    rw [Draft.shape?, hkind] at h
    cases h
  | some kind =>
    have hname : Named.name kind = d.kind := beq_iff_eq.mp (List.find?_some hkind :)
    rw [Draft.shape?_of_name hname] at h
    -- the shape of a kind is of that kind
    have hshape : shape.kind = kind := by
      cases kind <;> cases h <;> rfl
    rw [hshape, hname]

omit [Scalar S] in
theorem Shape.kind_mem (s : Shape S) : s.kind ∈ draftedKinds := by
  cases s <;> simp [Shape.kind, draftedKinds]

theorem Draft.isSome_shapeOf (d : Draft S) (kind : Kind) :
    (d.shapeOf kind).isSome = decide (kind ∈ draftedKinds) := by
  cases kind <;> rfl

theorem shape?_eq_none_iff {d : Draft S} : d.shape? = none ↔ d.kind ∉ draftedNames := by
  constructor
  · intro hnone hmem
    rw [← map_name_draftedKinds] at hmem
    obtain ⟨kind, hkind, hname⟩ := List.mem_map.mp hmem
    have hsome := d.isSome_shapeOf kind
    rw [← Draft.shape?_of_name hname, hnone, decide_eq_true hkind] at hsome
    cases hsome
  · intro hmem
    cases hshape : d.shape? with
    | none => rfl
    | some shape =>
      refine absurd ?_ hmem
      rw [← Draft.name_kind_of_shape? hshape, ← map_name_draftedKinds]
      exact List.mem_map_of_mem shape.kind_mem

/-! ## Draws -/

section

variable {G : Type} [IdSource G]

/-- A draft of another kind is refused before anything is drawn. -/
theorem run_create_of_none (now : Int64) {d : Draft S} (h : d.shape? = none) (g : G) :
    (d.create now).run.run g = (.error (.unknownKind d.kind), g) := by
  rw [Draft.create, h]
  rfl

/-- From the one state of the source to the other exactly an id, a seed and a nonce are drawn in
this order, no id if one is given. -/
def DrawsIdentity (given : Option String) (g : G) (id : String) (seed nonce : UInt32) (g' : G) :
    Prop :=
  ∃ g₁ g₂,
    (match given with
      | some own => id = own ∧ g₁ = g
      | none => IdSource.nextId.run g = (id, g₁)) ∧
    IdSource.nextSeed.run g₁ = (seed, g₂) ∧ IdSource.nextNonce.run g₂ = (nonce, g')

theorem run_create_of_shape? (now : Int64) {d : Draft S} {shape : Shape S}
    (h : d.shape? = some shape) (g : G) :
    ∃ id seed nonce g', DrawsIdentity d.id g id seed nonce g' ∧
      (d.create now).run.run g = (.ok (d.element shape id seed nonce now), g') := by
  have hrun : (d.create now).run.run g =
      (.ok (d.element shape (d.drawId.run g).1
          (IdSource.nextSeed.run (d.drawId.run g).2).1
          (IdSource.nextNonce.run (IdSource.nextSeed.run (d.drawId.run g).2).2).1 now),
        (IdSource.nextNonce.run (IdSource.nextSeed.run (d.drawId.run g).2).2).2) := by
    rw [Draft.create, h]
    show (draw d.drawId >>= _).run.run g = _
    rw [run_draw_bind, run_draw_bind, run_draw_bind]
    rfl
  refine ⟨_, _, _, _, ⟨_, _, ?_, rfl, rfl⟩, hrun⟩
  rw [Draft.drawId]
  cases d.id with
  | none => rfl
  | some own => exact ⟨rfl, rfl⟩

end

/-! ## What is made of a draft -/

/-- A new element and the draft that it is made of. -/
structure Element.MadeOf (e : Element S) (d : Draft S) : Prop where
  kind : Named.name e.kind = d.kind
  version : e.version = 1
  unbound : e.boundElements = none
  kept : e.isDeleted = false
  /-- Lines and arrows are attached to nothing. -/
  unattached : ∀ path ∈ e.shape.polyline?, path.startBinding = none ∧ path.endBinding = none
  opacity : e.opacity = min (d.opacity.getD 100) 100
  original : ∀ body ∈ e.shape.text?, body.originalText = body.text
  pressure : ∀ stroke ∈ e.shape.freehand?, stroke.simulatePressure = true ↔ stroke.pressures = []
  /-- Lines, arrows and strokes are as large as their points, and never smaller than 1. -/
  extent : ∀ points ∈ e.shape.points?,
    e.width = Scalar.max (Box.around points).width 1.0 ∧
    e.height = Scalar.max (Box.around points).height 1.0
  /-- Texts are measured where the draft does not give their size. -/
  measured : ∀ body ∈ e.shape.text?,
    e.width = d.width.getD (textSize body.text body.fontSize).1 ∧
    e.height = d.height.getD (textSize body.text body.fontSize).2
  /-- What else the draft says to the kind is so. -/
  taken : ∀ a value, e.kind.takes a = true → a ≠ .opacity → d.get a = some value →
    e.get? a = some value

theorem Draft.get?_element {d : Draft S} {shape : Shape S} (hshape : d.shape? = some shape)
    (id : String) (seed nonce : UInt32) (now : Int64) {a : Aspect} {value : a.Value S}
    (htakes : shape.kind.takes a = true) (hopacity : a ≠ .opacity) (h : d.get a = some value) :
    (d.element shape id seed nonce now).get? a = some value := by
  rw [Draft.shape?_of_name (Draft.name_kind_of_shape? hshape)] at hshape
  cases a
  case x | y => exact h
  case opacity => exact absurd rfl hopacity
  case isDeleted | startBinding | endBinding => cases htakes
  -- a frame and a link are given or not
  case frameId | link =>
    obtain ⟨own, hown, rfl⟩ := Option.map_eq_some_iff.mp h
    exact congrArg some hown
  -- a size counts for outlines and texts
  case width | height =>
    cases shape with
    | line path | arrow path | freedraw stroke => cases htakes
    | _ => exact congrArg (fun said => some (Option.getD said _)) h
  -- what is in the shape has come from the draft
  case text | fontSize | fontFamily | textAlign | verticalAlign =>
    cases shape with
    | text body =>
      cases hshape
      exact congrArg (fun said => some (Option.getD said _)) h
    | _ => cases htakes
  case points =>
    cases shape with
    | line path | arrow path | freedraw stroke =>
      cases hshape
      exact congrArg (fun said => some (Option.getD said _)) h
    | _ => cases htakes
  case startArrowhead | endArrowhead =>
    cases shape with
    | line path | arrow path =>
      cases hshape
      exact congrArg (fun said => some (Option.getD said _)) h
    | _ => cases htakes
  case pressures =>
    cases shape with
    | freedraw stroke =>
      cases hshape
      exact congrArg (fun said => some (Option.getD said _)) h
    | _ => cases htakes
  all_goals exact congrArg (fun said => some (Option.getD said _)) h

/-- **What is made of a draft**, whatever its identity. -/
theorem Draft.madeOf_element {d : Draft S} {shape : Shape S} (hshape : d.shape? = some shape)
    (id : String) (seed nonce : UInt32) (now : Int64) :
    (d.element shape id seed nonce now).MadeOf d := by
  have hname := Draft.name_kind_of_shape? hshape
  have hof : d.shapeOf shape.kind = some shape := (Draft.shape?_of_name hname).symm.trans hshape
  refine ⟨hname, rfl, rfl, rfl, ?_, rfl, ?_, ?_, ?_, ?_, fun a value htakes hopacity h =>
    Draft.get?_element hshape id seed nonce now htakes hopacity h⟩
  · intro path hpath
    cases shape with
    | line path' | arrow path' =>
      cases hof
      cases hpath
      exact ⟨rfl, rfl⟩
    | _ => cases hpath
  · intro body hbody
    cases shape with
    | text body' =>
      cases hof
      cases hbody
      rfl
    | _ => cases hbody
  · intro stroke hstroke
    cases shape with
    | freedraw stroke' =>
      cases hof
      cases hstroke
      exact List.isEmpty_iff
    | _ => cases hstroke
  · intro points hpoints
    cases shape with
    | line path | arrow path | freedraw stroke =>
      cases hpoints
      exact ⟨rfl, rfl⟩
    | _ => cases hpoints
  · intro body hbody
    cases shape with
    | text body' =>
      cases hbody
      exact ⟨rfl, rfl⟩
    | _ => cases hbody

/-! ## What has no effect -/

section

variable {kind : Kind} {d d' : Draft S} (h : d.AgreeOn kind d')

include h

/-- Drafts that say the same to a kind describe the same shape of it. -/
theorem Draft.AgreeOn.shapeOf_eq : d'.shapeOf kind = d.shapeOf kind := by
  cases kind with
  | text =>
    have htext : d'.text = d.text := h .text rfl
    have hsize : d'.fontSize = d.fontSize := h .fontSize rfl
    have hfamily : d'.fontFamily = d.fontFamily := h .fontFamily rfl
    have halign : d'.textAlign = d.textAlign := h .textAlign rfl
    have hvertical : d'.verticalAlign = d.verticalAlign := h .verticalAlign rfl
    rw [Draft.shapeOf, Draft.shapeOf, Draft.textBody, Draft.textBody, htext, hsize, hfamily,
      halign, hvertical]
  | line | arrow =>
    have hpoints : d'.points = d.points := h .points rfl
    have hstart : d'.startArrowhead = d.startArrowhead := h .startArrowhead rfl
    have hend : d'.endArrowhead = d.endArrowhead := h .endArrowhead rfl
    rw [Draft.shapeOf, Draft.shapeOf, Draft.polyline, Draft.polyline, hpoints, hstart, hend]
  | freedraw =>
    have hpoints : d'.points = d.points := h .points rfl
    have hpressures : d'.pressures = d.pressures := h .pressures rfl
    rw [Draft.shapeOf, Draft.shapeOf, Draft.freehand, Draft.freehand, hpoints, hpressures]
  | _ => rfl

theorem Draft.AgreeOn.size_eq {shape : Shape S} (hkind : shape.kind = kind) :
    d'.size shape = d.size shape := by
  subst hkind
  cases shape with
  | line path | arrow path | freedraw stroke => rfl
  | _ =>
    have hwidth : d'.width = d.width := h .width rfl
    have hheight : d'.height = d.height := h .height rfl
    rw [Draft.size, Draft.size, hwidth, hheight]

/-- Elements of a kind that are made of such drafts are the same. -/
theorem Draft.AgreeOn.element_eq {shape : Shape S} (hkind : shape.kind = kind) (id : String)
    (seed nonce : UInt32) (now : Int64) :
    d'.element shape id seed nonce now = d.element shape id seed nonce now := by
  have hsize := h.size_eq hkind
  have hx : d'.x = d.x := Option.some.inj (h .x rfl)
  have hy : d'.y = d.y := Option.some.inj (h .y rfl)
  have hangle : d'.angle = d.angle := h .angle rfl
  have hstroke : d'.strokeColor = d.strokeColor := h .strokeColor rfl
  have hbackground : d'.backgroundColor = d.backgroundColor := h .backgroundColor rfl
  have hfill : d'.fillStyle = d.fillStyle := h .fillStyle rfl
  have hwidth : d'.strokeWidth = d.strokeWidth := h .strokeWidth rfl
  have hstyle : d'.strokeStyle = d.strokeStyle := h .strokeStyle rfl
  have hroughness : d'.roughness = d.roughness := h .roughness rfl
  have hopacity : d'.opacity = d.opacity := h .opacity rfl
  have hround : d'.roundness = d.roundness := h .roundness rfl
  have hgroups : d'.groupIds = d.groupIds := h .groupIds rfl
  have hlocked : d'.locked = d.locked := h .locked rfl
  have hframe : d'.frameId = d.frameId :=
    Option.map_injective (fun _ _ => Option.some.inj) (h .frameId rfl)
  have hlink : d'.link = d.link :=
    Option.map_injective (fun _ _ => Option.some.inj) (h .link rfl)
  rw [Draft.element, Draft.element, hsize, hx, hy, hangle, hstroke, hbackground, hfill, hwidth,
    hstyle, hroughness, hopacity, hround, hgroups, hlocked, hframe, hlink]

end

/-- **What a kind does not take has no effect.** Drafts that name the same kind and the same id
and agree on all that the kind takes are made into elements by the same work. -/
theorem create_congr {G : Type} [IdSource G] (now : Int64) {d d' : Draft S}
    (hkind : d'.kind = d.kind) (hid : d'.id = d.id)
    (h : ∀ kind, Named.name kind = d.kind → d.AgreeOn kind d') :
    (d'.create now : Draws G (Element S)) = d.create now := by
  have hshape : d'.shape? = d.shape? := by
    cases hname : (Named.ofName? d.kind : Option Kind) with
    | none => rw [Draft.shape?, Draft.shape?, hkind, hname]
    | some kind =>
      have hspelled : Named.name kind = d.kind := beq_iff_eq.mp (List.find?_some hname :)
      rw [Draft.shape?_of_name hspelled, Draft.shape?_of_name (hspelled.trans hkind.symm),
        (h kind hspelled).shapeOf_eq]
  rw [Draft.create, Draft.create, hshape]
  cases hdrawn : d.shape? with
  | none =>
    show throw (Error.unknownKind d'.kind) = throw (Error.unknownKind d.kind)
    rw [hkind]
  | some shape =>
    have helement := (h shape.kind (Draft.name_kind_of_shape? hdrawn)).element_eq rfl
    have hdraw : (d'.drawId : StateM G String) = d.drawId := by
      rw [Draft.drawId, Draft.drawId, hid]
    simp only [hdraw, helement]

/-! ## Creation -/

/-- **Creation.** An element is made of a draft exactly if the draft spells one of the seven
kinds. If not, the work fails with what was spelled, and the source of identities is as it was.
If so, an id is drawn unless the draft names one, and then a seed and a nonce, which the element
carries; the element is made of the draft, field by field. All that the kind does not take from
the draft has no effect on any of this. -/
theorem create_runs {G : Type} [IdSource G] (now : Int64) (d : Draft S) :
    (∀ g : G,
      ((∃ e g', (d.create now).run.run g = (.ok e, g')) ↔ d.kind ∈ draftedNames) ∧
      (d.kind ∉ draftedNames → (d.create now).run.run g = (.error (.unknownKind d.kind), g)) ∧
      ∀ e g', (d.create now).run.run g = (.ok e, g') →
        DrawsIdentity d.id g e.id e.seed e.versionNonce g' ∧ e.MadeOf d) ∧
    ∀ d' : Draft S, d'.kind = d.kind → d'.id = d.id →
      (∀ kind, Named.name kind = d.kind → d.AgreeOn kind d') →
      (d'.create now : Draws G (Element S)) = d.create now := by
  refine ⟨fun g => ?_, fun d' hkind hid h => create_congr now hkind hid h⟩
  cases hshape : d.shape? with
  | none =>
    have hmem := shape?_eq_none_iff.mp hshape
    have hrun := run_create_of_none now hshape g
    refine ⟨⟨?_, fun h => absurd h hmem⟩, fun _ => hrun, ?_⟩
    · rintro ⟨e, g', hok⟩
      rw [hrun] at hok
      cases hok
    · intro e g' hok
      rw [hrun] at hok
      cases hok
  | some shape =>
    have hmem : d.kind ∈ draftedNames := by
      by_contra h
      rw [shape?_eq_none_iff.mpr h] at hshape
      cases hshape
    obtain ⟨id, seed, nonce, g₃, hdraws, hrun⟩ := run_create_of_shape? now hshape g
    refine ⟨⟨fun _ => hmem, fun _ => ⟨_, _, hrun⟩⟩, fun h => absurd hmem h, ?_⟩
    intro e g' hok
    rw [hrun] at hok
    cases hok
    exact ⟨hdraws, Draft.madeOf_element hshape id seed nonce now⟩

/-- A rectangle, of which it makes no difference that it has a text and pressures as well, and a
kind that is not drafted. -/
theorem create_runs_of_rectangle :
    let d : Draft Rat := { kind := "rectangle", x := 1, y := 2, opacity := some 200 }
    let d' : Draft Rat := { d with text := some "a", pressures := some [1] }
    let g := SequentialIds.fresh "a"
    (∃ e g', (d'.create 0).run.run g = (.ok e, g') ∧
      DrawsIdentity none g e.id e.seed e.versionNonce g' ∧ e.MadeOf d ∧ e.opacity = 100) ∧
    (∀ kind, Named.name kind = d.kind → d.AgreeOn kind d') ∧
    "hexagon" ∉ draftedNames ∧
    (({ d with kind := "hexagon" } : Draft Rat).create 0).run.run g =
      (.error (.unknownKind "hexagon"), g) := by
  intro d d' g
  obtain ⟨hruns, hcongr⟩ := create_runs (G := SequentialIds) 0 d
  obtain ⟨hiff, -, hmade⟩ := hruns g
  have hagree : ∀ kind, Named.name kind = d.kind → d.AgreeOn kind d' := by
    intro kind hkind a htakes
    -- the two differ in what only other kinds take
    have hname : (Named.ofName? (Named.name kind) : Option Kind) = some .rectangle := by
      rw [hkind]
      rfl
    rw [LawfulNamed.ofName?_name] at hname
    obtain rfl := Option.some.inj hname
    cases a <;> first | rfl | cases htakes
  have hhexagon : "hexagon" ∉ draftedNames := by decide
  obtain ⟨e, g', hrun⟩ := hiff.mpr (by decide)
  obtain ⟨hdraws, hmade⟩ := hmade e g' hrun
  refine ⟨⟨e, g', ?_, hdraws, hmade, hmade.opacity⟩, hagree, hhexagon, ?_⟩
  · rw [hcongr d' rfl rfl hagree]
    exact hrun
  · exact ((create_runs 0 { d with kind := "hexagon" }).1 g).2.1 hhexagon

end Whiteboard.Drawing
