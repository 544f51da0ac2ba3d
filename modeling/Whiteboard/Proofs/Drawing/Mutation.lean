import Whiteboard.Proofs.Drawing.Connecting

/-!
# Whiteboard — what a change makes of an element

Whatever changes an element ends in `Element.bump`, which counts the version up until it
cannot grow any more and draws a nonce. Numbered nonces start over after the largest, and the
counter may stand anywhere, so the first one drawn may be the old one; the second never is,
as two in a row are different.

Main results:

* `SequentialIds.run_drawNonce` — a nonce that is drawn is in range and not the old one.
* `Element.Unmutated.bump` — marking an element as changed is a mutation of it.
* `Element.mutated_update`, `Element.mutated_noteConnector` — so are revising an element and
  noting a connector in it.
* `bind_cases`, `Document.connect_cases` — what binding and connecting make of the elements,
  and that nothing is drawn where they fail.
-/

namespace Whiteboard.Drawing

variable {S : Type}

/-! ## Versions -/

/-- The version that stays. -/
def maxVersion : Nat := 0xFFFFFFFF

theorem toNat_versionAfter_eq_min (version : UInt32) :
    (Element.versionAfter version).toNat = min (version.toNat + 1) maxVersion := by
  by_cases h : version.toNat < maxVersion
  · rw [toNat_versionAfter h]
    omega
  · -- the largest version is the only one that is not below it
    have htop : version.toNat = maxVersion := by
      have hlt := version.toNat_lt
      unfold maxVersion at *
      omega
    have hversion : version = 0xFFFFFFFF := UInt32.toNat.inj htop
    subst hversion
    rfl

/-! ## Nonces -/

namespace SequentialIds

theorem nonceAfter_mem (nonce : UInt32) : 1 ≤ nonceAfter nonce ∧ nonceAfter nonce ≤ maxNonce := by
  unfold nonceAfter
  split
  · decide
  · rename_i h
    rw [UInt32.not_le, UInt32.lt_iff_toNat_lt] at h
    have hmax : maxNonce.toNat = 0x7FFFFFFF := rfl
    rw [UInt32.le_iff_toNat_le, UInt32.le_iff_toNat_le, UInt32.toNat_add, UInt32.toNat_one]
    omega

/-- Two nonces in a row are different. -/
theorem nonceAfter_ne (nonce : UInt32) : nonceAfter nonce ≠ nonce := by
  have hmax : maxNonce.toNat = 0x7FFFFFFF := rfl
  unfold nonceAfter
  split
  · rename_i h
    rintro rfl
    exact absurd h (by decide)
  · rename_i h
    rw [UInt32.not_le, UInt32.lt_iff_toNat_lt] at h
    intro heq
    have hnat := congrArg UInt32.toNat heq
    rw [UInt32.toNat_add, UInt32.toNat_one] at hnat
    omega

/-- **Nonces.** Wherever the counter stands, what is drawn to replace a nonce is another one,
and in range. -/
theorem run_drawNonce (old : UInt32) (g : SequentialIds) :
    ((Element.drawNonce old).run g).1 ≠ old ∧ 1 ≤ ((Element.drawNonce old).run g).1 ∧
      ((Element.drawNonce old).run g).1 ≤ maxNonce := by
  have hrun : ((Element.drawNonce old).run g).1 =
      if nonceAfter g.nonce = old then nonceAfter (nonceAfter g.nonce)
      else nonceAfter g.nonce := by
    show ((if nonceAfter g.nonce = old then IdSource.nextNonce
      else pure (nonceAfter g.nonce) : StateM SequentialIds UInt32).run
        { g with nonce := nonceAfter g.nonce }).1 = _
    split <;> rfl
  rw [hrun]
  split
  · rename_i h
    -- the second draw follows the old nonce
    exact ⟨h ▸ nonceAfter_ne _, nonceAfter_mem _⟩
  · rename_i h
    exact ⟨h, nonceAfter_mem _⟩

end SequentialIds

/-! ## Mutations of an element -/

namespace Element

/-- What never changes of an element: its id, its seed and its kind. -/
def lasting (e : Element S) : String × UInt32 × Kind := (e.id, e.seed, e.kind)

/-- An element after one change. -/
structure Mutated (old new : Element S) : Prop where
  lasting : new.lasting = old.lasting
  version : new.version = versionAfter old.version
  nonce_ne : new.versionNonce ≠ old.versionNonce
  nonce_pos : 1 ≤ new.versionNonce
  nonce_le : new.versionNonce ≤ maxNonce

/-- An element whose history has not gone on. -/
structure Unmutated (old new : Element S) : Prop where
  lasting : new.lasting = old.lasting
  version : new.version = old.version
  nonce : new.versionNonce = old.versionNonce

theorem Unmutated.refl (e : Element S) : e.Unmutated e := ⟨rfl, rfl, rfl⟩

/-- **One change.** An element that is marked as changed has one version more and another
nonce, whatever was done to it before besides. -/
theorem Unmutated.bump {old e : Element S} (h : old.Unmutated e) (now : Int64)
    (g : SequentialIds) : old.Mutated ((e.bump now).run g).1 := by
  have hnonce : ((e.bump now).run g).1.versionNonce = ((drawNonce old.versionNonce).run g).1 := by
    rw [← h.nonce]
    rfl
  obtain ⟨hne, hpos, hle⟩ := SequentialIds.run_drawNonce old.versionNonce g
  exact ⟨h.lasting, congrArg versionAfter h.version, hnonce ▸ hne, hnonce ▸ hpos, hnonce ▸ hle⟩

theorem mutated_bump (e : Element S) (now : Int64) (g : SequentialIds) :
    e.Mutated ((e.bump now).run g).1 :=
  (Unmutated.refl e).bump now g

theorem mutated_update (e : Element S) (u : Revision S) (now : Int64) (g : SequentialIds) :
    e.Mutated ((e.update now u).run g).1 := by
  have hrevise : e.Unmutated (e.revise u) :=
    ⟨by rw [lasting, lasting, kind_revise]; rfl, rfl, rfl⟩
  exact hrevise.bump now g

theorem mutated_noteConnector (e : Element S) (connectorId : String) (kind : Kind) (now : Int64)
    (g : SequentialIds) : e.Mutated ((e.noteConnector now connectorId kind).run g).1 := by
  have hadd : e.Unmutated (e.addBoundElement connectorId kind) := by
    unfold addBoundElement
    split <;> exact ⟨rfl, rfl, rfl⟩
  exact hadd.bump now g

/-- Binding a connector does not count as a change of it. -/
theorem unmutated_attached [Scalar S] (c source target : Element S) :
    c.Unmutated (c.attached source target) := by
  have hkind : (c.attached source target).kind = c.kind := Shape.kind_mapPolyline _ _
  exact ⟨by rw [lasting, lasting, hkind]; rfl, rfl, rfl⟩

end Element

/-! ## Work that mutates -/

variable [Scalar S]

/-- A draft is made into an element, or nothing is drawn. -/
theorem Draft.create_cases {G : Type} [IdSource G] (now : Int64) (d : Draft S) (g : G) :
    (∃ cause, (d.create now).run.run g = (.error cause, g)) ∨
      ∃ shape id seed nonce g', d.shape? = some shape ∧
        (d.create now).run.run g = (.ok (d.element shape id seed nonce now), g') := by
  cases hshape : d.shape? with
  | none =>
    refine Or.inl ⟨.unknownKind d.kind, ?_⟩
    rw [create, hshape]
    rfl
  | some shape =>
    obtain ⟨id, g₁, hid⟩ : ∃ id g₁, d.drawId.run g = (id, g₁) := ⟨_, _, rfl⟩
    obtain ⟨seed, g₂, hseed⟩ : ∃ seed g₂, IdSource.nextSeed.run g₁ = (seed, g₂) := ⟨_, _, rfl⟩
    obtain ⟨nonce, g₃, hnonce⟩ : ∃ nonce g₃, IdSource.nextNonce.run g₂ = (nonce, g₃) :=
      ⟨_, _, rfl⟩
    refine Or.inr ⟨shape, id, seed, nonce, g₃, rfl, ?_⟩
    rw [create, hshape]
    show (draw d.drawId >>= _ : Draws G _).run.run g = _
    rw [run_draw_bind, hid, run_draw_bind, hseed, run_draw_bind, hnonce]
    rfl

/-- **Binding.** A line or an arrow is bound to two elements, which are mutated, or nothing
is drawn. -/
theorem bind_cases (now : Int64) (c source target : Element S) (g : SequentialIds) :
    (c.kind.isLinear = false ∧
      (bind now c source target).run.run g = (.error (.notConnector c.id c.kind), g)) ∨
    (c.kind.isLinear = true ∧ ∃ source' target' g',
      (bind now c source target).run.run g =
        (.ok ⟨c.attached source target, source', target'⟩, g') ∧
      source.Mutated source' ∧ target.Mutated target') := by
  cases hlinear : c.kind.isLinear with
  | false =>
    refine Or.inl ⟨rfl, ?_⟩
    rw [bind, if_neg (by rw [hlinear]; decide)]
    rfl
  | true =>
    obtain ⟨source', g₁, hsource⟩ : ∃ source' g₁,
      (source.noteConnector now c.id c.kind).run g = (source', g₁) := ⟨_, _, rfl⟩
    obtain ⟨target', g₂, htarget⟩ : ∃ target' g₂,
      (target.noteConnector now c.id c.kind).run g₁ = (target', g₂) := ⟨_, _, rfl⟩
    refine Or.inr ⟨rfl, source', target', g₂, ?_, ?_, ?_⟩
    · rw [bind, if_pos hlinear, run_draw_bind, hsource, run_draw_bind, htarget]
      rfl
    · have hmutated := source.mutated_noteConnector c.id c.kind now g
      rwa [hsource] at hmutated
    · have hmutated := target.mutated_noteConnector c.id c.kind now g₁
      rwa [htarget] at hmutated

/-- Two elements are joined by a new connector, and mutated. -/
theorem join_mutates (now : Int64) (source target : Element S) (look : ConnectorLook)
    (g : SequentialIds) :
    ∃ j g', (join now source target look).run.run g = (.ok j, g') ∧ j.connector.version = 1 ∧
      source.Mutated j.source ∧ target.Mutated j.target := by
  obtain ⟨shape, hshape, hkind⟩ := shape?_draft (Route.plan source target) look
  obtain ⟨c, g₁, hcreate, hckind, hversion⟩ : ∃ c g₁,
      (((Route.plan source target).draft look).create now).run.run g = (.ok c, g₁) ∧
      c.kind = look.kind ∧ c.version = 1 := by
    rcases Draft.create_cases now ((Route.plan source target).draft look) g with
      ⟨cause, hcreate⟩ | ⟨shape', id, seed, nonce, g₁, hshape', hcreate⟩
    · rw [Draft.create, hshape] at hcreate
      cases hcreate
    · obtain rfl : shape = shape' := Option.some.inj (hshape.symm.trans hshape')
      exact ⟨_, g₁, hcreate, hkind, rfl⟩
  rcases bind_cases now c source target g₁ with
    ⟨hlinear, -⟩ | ⟨-, source', target', g₂, hbind, hsource, htarget⟩
  · rw [hckind, isLinear_kind] at hlinear
    cases hlinear
  · exact ⟨_, g₂, (run_bind_of_ok hcreate _).trans hbind, hversion, hsource, htarget⟩

/-- **Connecting.** The elements with two ids are mutated and a new one comes on top, or
nothing is drawn. -/
theorem Document.connect_cases (now : Int64) (d : Document S) (source target : String)
    (look : ConnectorLook) (g : SequentialIds) :
    (∃ cause, (d.connect now source target look).run.run g = (.error cause, g)) ∨
      ∃ p : d.Pair, d.pair source target = .ok p ∧ ∃ c source' target' g',
        (d.connect now source target look).run.run g =
          (.ok (c.id, (p.put source' target').push c), g') ∧
        c.version = 1 ∧ p.firstElement.Mutated source' ∧ p.secondElement.Mutated target' := by
  unfold connect
  cases hpair : d.pair source target with
  | error cause => exact Or.inl ⟨cause, rfl⟩
  | ok p =>
    obtain ⟨j, g', hjoin, hversion, hsource, htarget⟩ :=
      join_mutates now p.firstElement p.secondElement look g
    exact Or.inr ⟨p, rfl, j.connector, j.source, j.target, g', run_bind_of_ok hjoin _, hversion,
      hsource, htarget⟩

end Whiteboard.Drawing
