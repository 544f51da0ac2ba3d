import Whiteboard.Proofs.Drawing.Places

/-!
# Whiteboard — what connecting two ids does

Connecting goes by ids, and an id may be carried by no element or by several. What happens is
decided before anything is drawn: an id without an element is refused, first the source and
then the target, and so is an id that is connected to itself. Everything else succeeds, and
only the first elements of the two ids change.

Main results:

* `place?_eq_none_iff`, `firstAt_of_place?` — the place of an id is that of the first element
  with it.
* `Noted.only` — all that an element notes.
* `join_runs` — the connector that joins two elements, field by field.
* `connect_runs` — what connecting two ids comes to, in every case.
-/

namespace Whiteboard.Drawing

variable {S : Type}

/-! ## First places -/

namespace Document

/-- The element at the place carries the id, and none before it does. -/
structure FirstAt (d : Document S) (id : String) (i : Fin d.elements.length) : Prop where
  here : (d.elements.get i).id = id
  before : ∀ k : Fin d.elements.length, k < i → (d.elements.get k).id ≠ id

theorem place?_eq_none_iff {d : Document S} {id : String} :
    d.place? id = none ↔ ∀ e ∈ d.elements, e.id ≠ id := by
  rw [place?, List.findFinIdx?_eq_none_iff]
  simp only [beq_iff_eq, ne_eq]

theorem firstAt_of_place? {d : Document S} {id : String} {i : Fin d.elements.length}
    (h : d.place? id = some i) : d.FirstAt id i := by
  obtain ⟨hhere, hbefore⟩ := List.findFinIdx?_eq_some_iff.mp h
  refine ⟨beq_iff_eq.mp hhere, fun k hk heq => ?_⟩
  exact hbefore k hk (beq_iff_eq.mpr heq)

end Document

/-! ## What is noted -/

/-- All that an element notes of a connector: at most one entry comes last in its list, and it
has a new version. Nothing else changes. -/
def Element.NotesOnly (now : Int64) (link : BoundElement) (old new : Element S) : Prop :=
  ∃ entries nonce, new = { old with
      boundElements := entries
      version := versionAfter old.version
      versionNonce := nonce
      updated := now } ∧
    (entries = some (old.boundElements.getD [] ++ [link]) ∨
      old.isBoundTo link.id = true ∧ entries = old.boundElements)

theorem Element.Noted.only {now : Int64} {old new : Element S} {link : BoundElement}
    (h : old.Noted now link new) : old.NotesOnly now link new := by
  obtain ⟨nonce, rfl⟩ := h
  unfold addBoundElement
  split
  · rename_i hbound
    exact ⟨old.boundElements, nonce, rfl, Or.inr ⟨hbound, rfl⟩⟩
  · exact ⟨_, nonce, rfl, Or.inl rfl⟩

/-! ## The new connector -/

variable [Scalar S]

/-- A new connector, field by field: it runs straight from the start of the route between the
two elements to the end, is attached to both in this order and is itself connected to nothing. -/
structure Element.Spans (c source target : Element S) (look : ConnectorLook) : Prop where
  kind : c.kind = look.kind
  version : c.version = 1
  unbound : c.boundElements = none
  ends : c.shape.ends = some (some (bindingTo source.id), some (bindingTo target.id))
  stroke : c.strokeStyle = if look.dashed then .dashed else .solid
  x : c.x = (Route.plan source target).start.x
  y : c.y = (Route.plan source target).start.y
  points : c.shape.polyline?.map Polyline.points = some
    [⟨0.0, 0.0⟩, ⟨(Route.plan source target).finish.x - (Route.plan source target).start.x,
      (Route.plan source target).finish.y - (Route.plan source target).start.y⟩]

omit [Scalar S] in
/-- Attaching a line or an arrow does not move it. -/
theorem points_unbound (s : Shape S) :
    s.unbound.polyline?.map Polyline.points = s.polyline?.map Polyline.points := by
  cases s <;> rfl

theorem Element.Connects.spans {c source target : Element S} {look : ConnectorLook}
    (h : c.Connects (.plan source target) look) : c.Spans source target look := by
  obtain ⟨shape, hshape, heq⟩ := h.shows
  refine ⟨h.kind, h.version, h.unbound, h.ends, ?_, congrArg Element.x heq,
    congrArg Element.y heq, ?_⟩
  · have hstroke : c.strokeStyle = (if look.dashed then some .dashed else none).getD .solid :=
      congrArg Element.strokeStyle heq
    rw [hstroke]
    cases look.dashed <;> rfl
  · have hpoints : c.shape.unbound = shape.unbound := congrArg Element.shape heq
    rw [← points_unbound, hpoints, points_unbound]
    obtain ⟨plain, dashed, stroke⟩ := look
    cases plain
    · cases hshape
      rfl
    · cases hshape
      rfl

/-! ## Joining -/

variable {G : Type} [IdSource G]

/-- The id of a new element is the first that is drawn. -/
theorem id_of_create {now : Int64} {d : Draft S} (hid : d.id = none) {e : Element S} {g g' : G}
    (h : (d.create now).run.run g = (.ok e, g')) : e.id = (IdSource.nextId.run g).1 := by
  unfold Draft.create at h
  cases hshape : d.shape? with
  | none =>
    rw [hshape] at h
    cases h
  | some shape =>
    rw [hshape] at h
    change (draw d.drawId >>= _).run.run g = _ at h
    rw [run_draw_bind, run_draw_bind, run_draw_bind] at h
    obtain ⟨rfl⟩ := Except.ok.inj (Prod.mk.inj h).1
    show (d.drawId.run g).1 = _
    rw [Draft.drawId, hid]

/-- A connector keeps its id when it is bound. -/
theorem id_of_bind {now : Int64} {c source target : Element S} {j : Joined S} {g g' : G}
    (h : (bind now c source target).run.run g = (.ok j, g')) : j.connector.id = c.id := by
  unfold bind at h
  split at h
  · rw [run_draw_bind, run_draw_bind] at h
    obtain ⟨rfl⟩ := Except.ok.inj (Prod.mk.inj h).1
    rfl
  · cases h

/-- **Joining.** Whatever the two elements are, joining them succeeds. The connector has the
first id that is drawn and spans the two, and they note it and nothing else. -/
theorem join_runs (now : Int64) (source target : Element S) (look : ConnectorLook) (g : G) :
    ∃ j g', (join now source target look).run.run g = (.ok j, g') ∧
      j.connector.id = (IdSource.nextId.run g).1 ∧ j.connector.Spans source target look ∧
      source.NotesOnly now ⟨j.connector.id, look.kind⟩ j.source ∧
      target.NotesOnly now ⟨j.connector.id, look.kind⟩ j.target := by
  obtain ⟨j, g', ⟨hrun, -⟩, hconnects, hsource, htarget⟩ := join_yields now source target look g
  refine ⟨j, g', hrun, ?_, hconnects.spans, hsource.only, htarget.only⟩
  -- the connector is created first, and binding it keeps its id
  obtain ⟨c, g₁, hcreate, hbind⟩ := exists_of_run_bind_ok hrun
  rw [id_of_bind hbind]
  exact id_of_create rfl hcreate

/-! ## Connecting -/

/-- **Connecting two ids.** An id that no element carries is refused, the source before the
target, and then an id that is connected to itself; the source of ids is as it was then. In
all other cases, whatever the document and however often it has the ids, connecting succeeds.
The answer is the id that is drawn; the first elements with the two ids note the connector and
change in nothing else, all others are as they were, and the connector, which spans the two,
comes last. -/
theorem connect_runs (now : Int64) (d : Document S) (source target : String)
    (look : ConnectorLook) (g : G) :
    match d.place? source, d.place? target with
    | none, _ => (∀ e ∈ d.elements, e.id ≠ source) ∧
        (d.connect now source target look).run.run g = (.error (.elementNotFound source), g)
    | some i, none => d.FirstAt source i ∧ (∀ e ∈ d.elements, e.id ≠ target) ∧
        (d.connect now source target look).run.run g = (.error (.elementNotFound target), g)
    | some i, some j => d.FirstAt source i ∧ d.FirstAt target j ∧
      if source = target then
        (d.connect now source target look).run.run g = (.error (.selfConnection source), g)
      else i ≠ j ∧ ∃ c a b g',
        (d.connect now source target look).run.run g =
          (.ok (c.id, { d with elements := (d.elements.set i a).set j b ++ [c] }), g') ∧
        c.id = (IdSource.nextId.run g).1 ∧ c.Spans (d.elements.get i) (d.elements.get j) look ∧
        (d.elements.get i).NotesOnly now ⟨c.id, look.kind⟩ a ∧
        (d.elements.get j).NotesOnly now ⟨c.id, look.kind⟩ b := by
  have hconnect : ∀ e, d.pair source target = .error e →
      (d.connect now source target look).run.run g = (.error e, g) := by
    intro e h
    rw [Document.connect, h]
    rfl
  cases hsource : d.place? source with
  | none =>
    refine ⟨Document.place?_eq_none_iff.mp hsource, hconnect _ ?_⟩
    rw [Document.pair, hsource]
  | some i =>
    cases htarget : d.place? target with
    | none =>
      refine ⟨Document.firstAt_of_place? hsource, Document.place?_eq_none_iff.mp htarget,
        hconnect _ ?_⟩
      rw [Document.pair, hsource, htarget]
    | some j =>
      have hi := Document.firstAt_of_place? hsource
      have hj := Document.firstAt_of_place? htarget
      refine ⟨hi, hj, ?_⟩
      split
      · -- one id has one place
        rename_i heq
        subst heq
        refine hconnect _ ?_
        rw [hsource] at htarget
        obtain rfl := Option.some.inj htarget
        rw [Document.pair, hsource]
        simp
      · rename_i hne
        have hplaces : i ≠ j := by
          rintro rfl
          exact hne (hi.here.symm.trans hj.here)
        have hpair : d.pair source target = .ok ⟨i, j, hplaces⟩ :=
          Document.pair_eq_ok_iff.mpr ⟨hsource, htarget⟩
        obtain ⟨joined, g', hjoin, hid, hspans, ha, hb⟩ :=
          join_runs now (d.elements.get i) (d.elements.get j) look g
        refine ⟨hplaces, joined.connector, joined.source, joined.target, g', ?_, hid, hspans,
          ha, hb⟩
        rw [Document.connect, hpair]
        exact run_bind_of_ok hjoin _

end Whiteboard.Drawing
