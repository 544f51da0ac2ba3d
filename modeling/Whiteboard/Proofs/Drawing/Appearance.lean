import Whiteboard.Drawing.Connector
import Whiteboard.Proofs.Drawing.Issued

/-!
# Whiteboard — what elements look like

Creating an element draws its identity, and connecting it changes its history.
Its `appearance` is what is left when both are taken away, so that an element can
be compared with the draft it was made from, however often it was connected since.

Main results:

* `create_yields` — a draft of a known kind yields a new element that shows it and
  draws one id.
* `noteConnector_yields` — noting a connector draws no id and changes what
  `Notes` says.
* `bind_yields` — a connector is bound to two elements, which have noted it.
* `join_yields` — a connector along a route, bound to both elements, which have
  noted it.
-/

namespace Whiteboard.Drawing

variable {S : Type}

/-! ## Appearance -/

namespace Shape

/-- A line or an arrow that is attached to nothing; any other shape as it is. -/
def unbound (s : Shape S) : Shape S :=
  s.mapPolyline fun path => { path with startBinding := none, endBinding := none }

/-- What the two ends of a line or an arrow are attached to. -/
def ends (s : Shape S) : Option (Option (Binding S) × Option (Binding S)) :=
  s.polyline?.map fun path => (path.startBinding, path.endBinding)

/-- A line or an arrow attached at both ends; any other shape as it is. -/
def attached (s : Shape S) (source target : Binding S) : Shape S :=
  s.mapPolyline fun path => { path with
    startBinding := some source
    endBinding := some target }

@[simp] theorem kind_mapPolyline (f : Polyline S → Polyline S) (s : Shape S) :
    (s.mapPolyline f).kind = s.kind := by
  cases s <;> rfl

@[simp] theorem kind_unbound (s : Shape S) : s.unbound.kind = s.kind := kind_mapPolyline _ s

@[simp] theorem unbound_attached (s : Shape S) (source target : Binding S) :
    (s.attached source target).unbound = s.unbound := by
  cases s <;> rfl

theorem ends_attached {s : Shape S} (h : s.kind.isLinear = true) (source target : Binding S) :
    (s.attached source target).ends = some (some source, some target) := by
  cases s <;> first | rfl | cases h

/-- Only lines and arrows have points to connect. -/
theorem polyline?_eq_none_iff {s : Shape S} : s.polyline? = none ↔ s.kind.isLinear = false := by
  cases s <;> simp [polyline?, kind, Kind.isLinear]

end Shape

namespace Element

/-- An element without its identity, its history and what it is connected to. -/
def appearance (e : Element S) : Element S :=
  { e with
    id := ""
    shape := e.shape.unbound
    seed := 0
    version := 0
    versionNonce := 0
    boundElements := none
    updated := 0 }

@[simp] theorem box_appearance (e : Element S) : e.appearance.box = e.box := rfl

@[simp] theorem kind_appearance (e : Element S) : e.appearance.kind = e.kind :=
  Shape.kind_unbound e.shape

theorem kind_revise (e : Element S) (u : Revision S) : (e.revise u).kind = e.kind := by
  show (u.onShape e.shape).kind = e.shape.kind
  cases e.shape <;> rfl

/-- Elements that look alike take up the same box. -/
theorem box_of_appearance {e e' : Element S} (h : e.appearance = e'.appearance) :
    e.box = e'.box := by
  rw [← box_appearance e, h, box_appearance]

theorem kind_of_appearance {e e' : Element S} (h : e.appearance = e'.appearance) :
    e.kind = e'.kind := by
  rw [← kind_appearance e, h, kind_appearance]

/-- The element looks as the draft says. -/
def Shows [Scalar S] (e : Element S) (draft : Draft S) : Prop :=
  ∃ shape, draft.shape? = some shape ∧
    e.appearance = (draft.element shape "" 0 0 0).appearance

theorem Shows.of_appearance [Scalar S] {e e' : Element S} {draft : Draft S}
    (h : e.Shows draft) (heq : e'.appearance = e.appearance) : e'.Shows draft := by
  obtain ⟨shape, hshape, happearance⟩ := h
  exact ⟨shape, hshape, heq.trans happearance⟩

end Element

/-! ## Draws -/

variable {G : Type} [IdSource G]

theorem drawId_yields {d : Draft S} (h : d.id = none) (g : G) :
    ∃ id g', Yields (draw d.drawId) g [id] id g' := by
  refine ⟨(IdSource.nextId.run g).1, (IdSource.nextId.run g).2, yields_draw ?_ (.id (.nothing _))⟩
  rw [Draft.drawId, h]
  rfl

theorem nextSeed_yields (g : G) : ∃ seed g', Yields (draw IdSource.nextSeed) g [] seed g' :=
  ⟨_, _, yields_draw rfl (.seed (.nothing _))⟩

theorem nextNonce_yields (g : G) : ∃ nonce g', Yields (draw IdSource.nextNonce) g [] nonce g' :=
  ⟨_, _, yields_draw rfl (.nonce (.nothing _))⟩

/-! ## Noting a connector -/

theorem drawNonce_issues (old : UInt32) (g : G) :
    Issues g [] ((Element.drawNonce old).run g).2 := by
  have hrun : (Element.drawNonce old).run g =
      (if (IdSource.nextNonce.run g).1 = old then IdSource.nextNonce
        else pure (IdSource.nextNonce.run g).1 : StateM G UInt32).run
        (IdSource.nextNonce.run g).2 := rfl
  rw [hrun]
  -- the old nonce is drawn over once
  split
  · exact .nonce (.nonce (.nothing _))
  · exact .nonce (.nothing _)

/-- What changes when an element notes a connector: it is listed, and the element
has a new version. -/
def Element.Noted (now : Int64) (old : Element S) (link : BoundElement) (new : Element S) : Prop :=
  ∃ nonce, new = { old.addBoundElement link.id link.kind with
    version := Element.versionAfter old.version
    versionNonce := nonce
    updated := now }

/-- Noting a connector draws no id. -/
theorem noteConnector_yields (now : Int64) (e : Element S) (link : BoundElement) (g : G) :
    ∃ new g', Yields (draw (e.noteConnector now link.id link.kind)) g [] new g' ∧
      Element.Noted now e link new := by
  have hversion : (e.addBoundElement link.id link.kind).version = e.version := by
    rw [Element.addBoundElement]
    split <;> rfl
  refine ⟨_, _, yields_draw rfl (drawNonce_issues _ g), ?_⟩
  refine ⟨((Element.drawNonce (e.addBoundElement link.id link.kind).versionNonce).run g).1, ?_⟩
  rw [← hversion]
  rfl

namespace Element.Noted

variable {now : Int64} {old new : Element S} {link : BoundElement}

/-- Nothing changes but the list of connectors and the history. -/
theorem eq_with (h : old.Noted now link new) : ∃ entries nonce, new = { old with
    boundElements := entries
    version := versionAfter old.version
    versionNonce := nonce
    updated := now } := by
  obtain ⟨nonce, rfl⟩ := h
  unfold addBoundElement
  split
  · exact ⟨old.boundElements, nonce, rfl⟩
  · exact ⟨_, nonce, rfl⟩

theorem id_eq (h : old.Noted now link new) : new.id = old.id := by
  obtain ⟨entries, nonce, rfl⟩ := h.eq_with
  rfl

theorem appearance_eq (h : old.Noted now link new) : new.appearance = old.appearance := by
  obtain ⟨entries, nonce, rfl⟩ := h.eq_with
  rfl

/-- Neither the kind of an element nor what it is bound to changes. -/
theorem shape_eq (h : old.Noted now link new) : new.shape = old.shape := by
  obtain ⟨entries, nonce, rfl⟩ := h.eq_with
  rfl

theorem version_eq (h : old.Noted now link new) : new.version = versionAfter old.version := by
  obtain ⟨nonce, rfl⟩ := h
  rfl

/-- A connector that is not listed yet is put at the end of the list. -/
theorem boundElements_eq (h : old.Noted now link new) (hnew : old.isBoundTo link.id = false) :
    new.boundElements = some (old.boundElements.getD [] ++ [link]) := by
  obtain ⟨nonce, rfl⟩ := h
  simp [addBoundElement, hnew]

end Element.Noted

/-! ## New elements -/

variable [Scalar S]

/-- A new element: it shows its draft and is connected to nothing. -/
structure Element.IsNew (e : Element S) (draft : Draft S) : Prop where
  shows : e.Shows draft
  shape : draft.shape? = some e.shape
  version : e.version = 1
  unbound : e.boundElements = none

/-- **Creation.** A draft of a known kind that names no id yields a new element
and draws its id. -/
theorem create_yields (now : Int64) {d : Draft S} {shape : Shape S} (hshape : d.shape? = some shape)
    (hid : d.id = none) (g : G) :
    ∃ e g', Yields (d.create now) g [e.id] e g' ∧ e.IsNew d := by
  obtain ⟨id, g₁, hdraw⟩ := drawId_yields hid g
  obtain ⟨seed, g₂, hseed⟩ := nextSeed_yields g₁
  obtain ⟨nonce, g₃, hnonce⟩ := nextNonce_yields g₂
  refine ⟨d.element shape id seed nonce now, g₃, ?_, ⟨shape, hshape, rfl⟩, hshape, rfl, rfl⟩
  rw [Draft.create, hshape]
  exact hdraw.bind (hseed.bind (hnonce.bind (.pure _ _)))

/-! ## Joining two elements -/

/-- A new connector along a route: it shows the draft of the route, is attached at
both ends and is itself connected to nothing. -/
structure Element.Connects (e : Element S) (route : Route S) (look : ConnectorLook) : Prop where
  shows : e.Shows (route.draft look)
  kind : e.kind = look.kind
  ends : e.shape.ends = some (some route.startBinding, some route.endBinding)
  version : e.version = 1
  unbound : e.boundElements = none

theorem shape?_draft (route : Route S) (look : ConnectorLook) :
    ∃ shape, (route.draft look).shape? = some shape ∧ shape.kind = look.kind := by
  obtain ⟨plain, dashed, stroke⟩ := look
  cases plain
  · exact ⟨_, rfl, rfl⟩
  · exact ⟨_, rfl, rfl⟩

theorem isLinear_kind (look : ConnectorLook) : look.kind.isLinear = true := by
  obtain ⟨plain, dashed, stroke⟩ := look
  cases plain <;> rfl

/-- A line or an arrow that is bound to two elements. -/
def Element.attached (c source target : Element S) : Element S :=
  { c with shape := c.shape.attached (bindingTo source.id) (bindingTo target.id) }

/-- **Binding.** A line or an arrow is bound to two elements, which both note it. No id is
drawn. -/
theorem bind_yields (now : Int64) {c : Element S} (hlinear : c.kind.isLinear = true)
    (source target : Element S) (g : G) :
    ∃ source' target' g',
      Yields (bind now c source target) g [] ⟨c.attached source target, source', target'⟩ g' ∧
      source.Noted now ⟨c.id, c.kind⟩ source' ∧ target.Noted now ⟨c.id, c.kind⟩ target' := by
  obtain ⟨source', g₁, hsource, hsourceNoted⟩ := noteConnector_yields now source ⟨c.id, c.kind⟩ g
  obtain ⟨target', g₂, htarget, htargetNoted⟩ := noteConnector_yields now target ⟨c.id, c.kind⟩ g₁
  refine ⟨source', target', g₂, ?_, hsourceNoted, htargetNoted⟩
  rw [bind, if_pos hlinear]
  exact hsource.bind (htarget.bind (.pure _ _))

/-- **Joining.** Two elements are joined by a new connector along their route,
which both of them have noted. One id is drawn, that of the connector. -/
theorem join_yields (now : Int64) (source target : Element S) (look : ConnectorLook) (g : G) :
    ∃ j g', Yields (join now source target look) g [j.connector.id] j g' ∧
      j.connector.Connects (.plan source target) look ∧
      source.Noted now ⟨j.connector.id, look.kind⟩ j.source ∧
      target.Noted now ⟨j.connector.id, look.kind⟩ j.target := by
  obtain ⟨shape, hshape, hkind⟩ := shape?_draft (Route.plan source target) look
  obtain ⟨c, g₁, hcreate, hnew⟩ := create_yields now hshape rfl g
  have hck : c.kind = look.kind := by
    have h := hnew.shape
    rw [hshape, Option.some.injEq] at h
    rw [Element.kind, ← h, hkind]
  have hlinear : c.kind.isLinear = true := by
    rw [hck]
    exact isLinear_kind look
  obtain ⟨source', target', g₂, hbind, hsourceNoted, htargetNoted⟩ :=
    bind_yields now hlinear source target g₁
  rw [hck] at hsourceNoted htargetNoted
  refine ⟨⟨c.attached source target, source', target'⟩, g₂, hcreate.bind hbind, ?_, hsourceNoted,
    htargetNoted⟩
  refine ⟨?_, ?_, Shape.ends_attached hlinear _ _, hnew.version, hnew.unbound⟩
  · refine hnew.shows.of_appearance ?_
    rw [Element.appearance, Element.appearance, Element.attached, Shape.unbound_attached]
  · exact (Shape.kind_mapPolyline _ _).trans hck

end Whiteboard.Drawing
