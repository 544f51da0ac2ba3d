import Whiteboard.Proofs.Drawing.Appearance
import Whiteboard.Proofs.Drawing.Decoded

/-!
# Whiteboard — changes that keep numbers finite

A revision that was decoded names finite numbers only, and puts them into an element as they
are: nothing is computed. So a finite element stays finite when it is revised, marked as
changed or attached to a connector. Only the creation of an element computes numbers, those of
its size; all others are the draft's or those that every element starts with.

Main results:

* `Revision.isFinite_of_decode?`, `Element.IsFinite.update` — revisions keep elements finite.
* `Element.Noted.isFinite` — so does noting a connector.
* `Draft.IsFinite.create_iff` — a new element is finite exactly if its size is.
-/

namespace Whiteboard.Drawing

open Decode

variable {S : Type} [Scalar S]

/-! ## Numbers in fields -/

section

variable [Numeral S] [LawfulNumeral S] {fs : Fields} {key : String}

theorem isFinite_of_optional? {v? : Option S} (h : fs.optional? key scalar? = some v?) :
    ∀ v ∈ v?, Scalar.isFinite v = true := by
  intro v hv
  obtain ⟨t, ht⟩ := Fields.exists_of_optional? h hv
  exact isFinite_of_scalar? ht

theorem isFinite_of_optional_list? {vs? : Option (List S)}
    (h : fs.optional? key (list? scalar?) = some vs?) :
    ∀ vs ∈ vs?, ∀ v ∈ vs, Scalar.isFinite v = true := by
  intro vs hvs v hv
  obtain ⟨t, ht⟩ := Fields.exists_of_optional? h hvs
  obtain ⟨t', ht'⟩ := exists_of_mem_list? ht hv
  exact isFinite_of_scalar? ht'

theorem isFinite_of_optional_points? {ps? : Option (List (Point S))}
    (h : fs.optional? key (list? point?) = some ps?) : ∀ ps ∈ ps?, ∀ p ∈ ps, p.IsFinite := by
  intro ps hps p hp
  obtain ⟨t, ht⟩ := Fields.exists_of_optional? h hps
  obtain ⟨t', ht'⟩ := exists_of_mem_list? ht hp
  exact isFinite_of_point? ht'

theorem isFinite_of_nullable_roundness? {r?? : Option (Option (Roundness S))}
    (h : fs.nullable? key Roundness.decode? = some r??) :
    ∀ r? ∈ r??, ∀ r ∈ r?, ∀ v ∈ r.value, Scalar.isFinite v = true := by
  intro r? hr? r hr
  obtain ⟨t, ht⟩ := Fields.exists_of_nullable? h hr? hr
  exact Roundness.isFinite_of_decode? ht

theorem isFinite_of_nullable_binding? {b?? : Option (Option (Binding S))}
    (h : fs.nullable? key Binding.decode? = some b??) : ∀ b? ∈ b??, ∀ b ∈ b?, b.IsFinite := by
  intro b? hb? b hb
  obtain ⟨t, ht⟩ := Fields.exists_of_nullable? h hb? hb
  exact Binding.isFinite_of_decode? ht

end

/-! ## Revisions -/

/-- All numbers that a revision names are finite. -/
structure Revision.IsFinite (u : Revision S) : Prop where
  x : ∀ v ∈ u.x, Scalar.isFinite v = true
  y : ∀ v ∈ u.y, Scalar.isFinite v = true
  width : ∀ v ∈ u.width, Scalar.isFinite v = true
  height : ∀ v ∈ u.height, Scalar.isFinite v = true
  angle : ∀ v ∈ u.angle, Scalar.isFinite v = true
  strokeWidth : ∀ v ∈ u.strokeWidth, Scalar.isFinite v = true
  roundness : ∀ r? ∈ u.roundness, ∀ r ∈ r?, ∀ v ∈ r.value, Scalar.isFinite v = true
  fontSize : ∀ v ∈ u.fontSize, Scalar.isFinite v = true
  points : ∀ ps ∈ u.points, ∀ p ∈ ps, p.IsFinite
  startBinding : ∀ b? ∈ u.startBinding, ∀ b ∈ b?, b.IsFinite
  endBinding : ∀ b? ∈ u.endBinding, ∀ b ∈ b?, b.IsFinite
  pressures : ∀ vs ∈ u.pressures, ∀ v ∈ vs, Scalar.isFinite v = true

section

variable [Numeral S] [LawfulNumeral S]

/-- **A decoded revision names finite numbers only.** -/
theorem Revision.isFinite_of_decode? {t : Tree} :
    ∀ u : Revision S, Revision.decode? t = some u → u.IsFinite := by
  rw [Revision.decode?]
  -- the steps of the decoder, in their order
  refine forall_bind_eq_some fun fs _ => forall_bind_eq_some fun x hx =>
    forall_bind_eq_some fun y hy => forall_bind_eq_some fun width hwidth =>
    forall_bind_eq_some fun height hheight => forall_bind_eq_some fun angle hangle =>
    forall_bind_eq_some fun stroke _ => forall_bind_eq_some fun background _ =>
    forall_bind_eq_some fun fill _ => forall_bind_eq_some fun strokeWidth hstrokeWidth =>
    forall_bind_eq_some fun style _ => forall_bind_eq_some fun roughness _ =>
    forall_bind_eq_some fun opacity _ => forall_bind_eq_some fun roundness hroundness =>
    forall_bind_eq_some fun groups _ => forall_bind_eq_some fun frame _ =>
    forall_bind_eq_some fun link _ => forall_bind_eq_some fun locked _ =>
    forall_bind_eq_some fun deleted _ => forall_bind_eq_some fun text _ =>
    forall_bind_eq_some fun size hsize => forall_bind_eq_some fun family _ =>
    forall_bind_eq_some fun align _ => forall_bind_eq_some fun vertical _ =>
    forall_bind_eq_some fun points hpoints => forall_bind_eq_some fun start hstart =>
    forall_bind_eq_some fun finish hfinish => forall_bind_eq_some fun startHead _ =>
    forall_bind_eq_some fun endHead _ => forall_bind_eq_some fun pressures hpressures => ?_
  intro u hu
  cases hu
  exact ⟨isFinite_of_optional? hx, isFinite_of_optional? hy, isFinite_of_optional? hwidth,
    isFinite_of_optional? hheight, isFinite_of_optional? hangle,
    isFinite_of_optional? hstrokeWidth, isFinite_of_nullable_roundness? hroundness,
    isFinite_of_optional? hsize, isFinite_of_optional_points? hpoints,
    isFinite_of_nullable_binding? hstart, isFinite_of_nullable_binding? hfinish,
    isFinite_of_optional_list? hpressures⟩

end

/-- A value and what it is replaced by, if by anything. -/
theorem getD_of_forall_mem {α : Type} {P : α → Prop} {new? : Option α} {old : α}
    (hnew : ∀ a ∈ new?, P a) (hold : P old) : P (new?.getD old) := by
  cases new? with
  | none => exact hold
  | some a => exact hnew a rfl

theorem Revision.IsFinite.onShape {u : Revision S} (h : u.IsFinite) {s : Shape S}
    (hs : s.IsFinite) : (u.onShape s).IsFinite := by
  cases s with
  | rectangle | ellipse | diamond => trivial
  | text body => exact ⟨getD_of_forall_mem h.fontSize hs.1, hs.2⟩
  | line path | arrow path =>
    exact ⟨getD_of_forall_mem h.points hs.points, hs.lastCommittedPoint,
      getD_of_forall_mem h.startBinding hs.startBinding,
      getD_of_forall_mem h.endBinding hs.endBinding⟩
  | freedraw stroke =>
    exact ⟨getD_of_forall_mem h.points hs.points, getD_of_forall_mem h.pressures hs.pressures,
      hs.lastCommittedPoint⟩

/-- **Revisions keep elements finite.** -/
theorem Element.IsFinite.revise {e : Element S} (he : e.IsFinite) {u : Revision S}
    (hu : u.IsFinite) : (e.revise u).IsFinite :=
  ⟨hu.onShape he.shape, getD_of_forall_mem hu.x he.x, getD_of_forall_mem hu.y he.y,
    getD_of_forall_mem hu.width he.width, getD_of_forall_mem hu.height he.height,
    getD_of_forall_mem hu.angle he.angle, getD_of_forall_mem hu.strokeWidth he.strokeWidth,
    getD_of_forall_mem hu.roundness he.roundness⟩

/-! ## Histories -/

/-- Whether an element is finite does not depend on its history. -/
theorem Element.IsFinite.update {G : Type} [IdSource G] {e : Element S} (he : e.IsFinite)
    {u : Revision S} (hu : u.IsFinite) (now : Int64) (g : G) :
    ((e.update now u).run g).1.IsFinite := by
  have h := he.revise hu
  exact ⟨h.shape, h.x, h.y, h.width, h.height, h.angle, h.strokeWidth, h.roundness⟩

theorem Element.Noted.isFinite {now : Int64} {link : BoundElement} {old new : Element S}
    (h : old.Noted now link new) (hold : old.IsFinite) : new.IsFinite := by
  obtain ⟨entries, nonce, rfl⟩ := h.eq_with
  exact ⟨hold.shape, hold.x, hold.y, hold.width, hold.height, hold.angle, hold.strokeWidth,
    hold.roundness⟩

/-! ## New elements -/

/-- All numbers that a draft names are finite. -/
structure Draft.IsFinite (d : Draft S) : Prop where
  x : Scalar.isFinite d.x = true
  y : Scalar.isFinite d.y = true
  width : ∀ v ∈ d.width, Scalar.isFinite v = true
  height : ∀ v ∈ d.height, Scalar.isFinite v = true
  angle : ∀ v ∈ d.angle, Scalar.isFinite v = true
  strokeWidth : ∀ v ∈ d.strokeWidth, Scalar.isFinite v = true
  roundness : ∀ r? ∈ d.roundness, ∀ r ∈ r?, ∀ v ∈ r.value, Scalar.isFinite v = true
  fontSize : ∀ v ∈ d.fontSize, Scalar.isFinite v = true
  points : ∀ ps ∈ d.points, ∀ p ∈ ps, p.IsFinite
  pressures : ∀ vs ∈ d.pressures, ∀ v ∈ vs, Scalar.isFinite v = true

/-- Scalars among which the numbers that new elements start with are finite. -/
class FiniteDefaults (S : Type) [Scalar S] : Prop where
  zero : Scalar.isFinite (0.0 : S) = true
  strokeWidth : Scalar.isFinite (defaultStrokeWidth : S) = true
  length : Scalar.isFinite (defaultLength : S) = true
  fontSize : Scalar.isFinite (defaultFontSize : S) = true
  lineHeight : Scalar.isFinite (lineHeight : S) = true

instance : FiniteDefaults Float := by
  constructor <;> decide +kernel

section

variable [Numeral S] [LawfulNumeral S] [FiniteDefaults S]

/-- **A decoded draft names finite numbers only.** -/
theorem Draft.isFinite_of_decode? {t : Tree} :
    ∀ d : Draft S, Draft.decode? t = some d → d.IsFinite := by
  rw [Draft.decode?]
  refine forall_bind_eq_some fun fs _ => forall_bind_eq_some fun kind _ =>
    forall_bind_eq_some fun id _ => forall_bind_eq_some fun x hx =>
    forall_bind_eq_some fun y hy => forall_bind_eq_some fun width hwidth =>
    forall_bind_eq_some fun height hheight => forall_bind_eq_some fun angle hangle =>
    forall_bind_eq_some fun stroke _ => forall_bind_eq_some fun background _ =>
    forall_bind_eq_some fun fill _ => forall_bind_eq_some fun strokeWidth hstrokeWidth =>
    forall_bind_eq_some fun style _ => forall_bind_eq_some fun roughness _ =>
    forall_bind_eq_some fun opacity _ => forall_bind_eq_some fun roundness hroundness =>
    forall_bind_eq_some fun groups _ => forall_bind_eq_some fun frame _ =>
    forall_bind_eq_some fun link _ => forall_bind_eq_some fun locked _ =>
    forall_bind_eq_some fun text _ => forall_bind_eq_some fun size hsize =>
    forall_bind_eq_some fun family _ => forall_bind_eq_some fun align _ =>
    forall_bind_eq_some fun vertical _ => forall_bind_eq_some fun points hpoints =>
    forall_bind_eq_some fun startHead _ => forall_bind_eq_some fun endHead _ =>
    forall_bind_eq_some fun pressures hpressures => ?_
  intro d hd
  cases hd
  -- only the corner may be left out and is a number all the same
  have hcorner : ∀ {key : String} {v : S}, fs.defaulted? key 0.0 scalar? = some v →
      Scalar.isFinite v = true := fun h => by
    rcases Fields.exists_of_defaulted? h with rfl | ⟨t, ht⟩
    · exact FiniteDefaults.zero
    · exact isFinite_of_scalar? ht
  exact ⟨hcorner hx, hcorner hy, isFinite_of_optional? hwidth, isFinite_of_optional? hheight,
    isFinite_of_optional? hangle, isFinite_of_optional? hstrokeWidth,
    isFinite_of_nullable_roundness? hroundness, isFinite_of_optional? hsize,
    isFinite_of_optional_points? hpoints, isFinite_of_optional_list? hpressures⟩

end

omit [Scalar S] in
/-- What a draft leaves open is rounded without a value. -/
theorem value_defaultRoundness (shape : Shape S) :
    ∀ r ∈ defaultRoundness shape, r.value = none := by
  unfold defaultRoundness
  split <;> simp

/-- **The rounding of a new element is finite**, if the one that its draft asks for is. -/
theorem Element.Shows.isFinite_roundness {e : Element S} {draft : Draft S} (h : e.Shows draft)
    (hdraft : ∀ r? ∈ draft.roundness, ∀ r ∈ r?, ∀ v ∈ r.value, Scalar.isFinite v = true) :
    ∀ r ∈ e.roundness, ∀ x ∈ r.value, Scalar.isFinite x = true := by
  obtain ⟨shape, -, heq⟩ := h
  have hround : e.roundness = draft.roundness.getD (defaultRoundness shape) :=
    congrArg Element.roundness heq
  rw [hround]
  refine getD_of_forall_mem hdraft fun r hr x hx => ?_
  rw [value_defaultRoundness shape r hr] at hx
  cases hx

/-- What a draft is made into, whatever its id. -/
theorem Draft.create_eq_ok {G : Type} [IdSource G] {now : Int64} {d : Draft S} {e : Element S}
    {g g' : G} (h : (d.create now).run.run g = (.ok e, g')) :
    ∃ shape id seed nonce, d.shape? = some shape ∧ e = d.element shape id seed nonce now := by
  unfold Draft.create at h
  cases hshape : d.shape? with
  | none =>
    rw [hshape] at h
    cases h
  | some shape =>
    rw [hshape] at h
    cases h
    exact ⟨shape, _, _, _, rfl, rfl⟩

/-- The shape that a draft describes takes its numbers from the draft. -/
theorem Draft.IsFinite.of_shape? [FiniteDefaults S] {d : Draft S} (hd : d.IsFinite)
    {shape : Shape S} (h : d.shape? = some shape) : shape.IsFinite := by
  have hzero : Scalar.isFinite (0.0 : S) = true := FiniteDefaults.zero
  have hpath : ∀ head, (d.polyline head).IsFinite := fun head => by
    refine ⟨getD_of_forall_mem hd.points fun p hp => ?_, nofun, nofun, nofun⟩
    rcases List.mem_pair.mp hp with rfl | rfl
    · exact ⟨hzero, hzero⟩
    · exact ⟨FiniteDefaults.length, hzero⟩
  unfold Draft.shape? at h
  split at h <;> cases h
  -- the kinds that can be drafted
  · trivial
  · trivial
  · trivial
  · exact ⟨getD_of_forall_mem hd.fontSize FiniteDefaults.fontSize, FiniteDefaults.lineHeight⟩
  · exact hpath _
  · exact hpath _
  · refine ⟨getD_of_forall_mem hd.points fun p hp => ?_, getD_of_forall_mem hd.pressures nofun,
      nofun⟩
    rw [List.mem_singleton.mp hp]
    exact ⟨hzero, hzero⟩

/-- **Of a new element only the size is computed.** So it is finite, if the size is. -/
theorem Draft.IsFinite.create_iff [FiniteDefaults S] {d : Draft S} (hd : d.IsFinite) {G : Type}
    [IdSource G] {now : Int64} {e : Element S} {g g' : G}
    (h : (d.create now).run.run g = (.ok e, g')) :
    e.IsFinite ↔ Scalar.isFinite e.width = true ∧ Scalar.isFinite e.height = true := by
  refine ⟨fun he => ⟨he.width, he.height⟩, fun ⟨hwidth, hheight⟩ => ?_⟩
  obtain ⟨shape, id, seed, nonce, hshape, rfl⟩ := Draft.create_eq_ok h
  have hshows : (d.element shape id seed nonce now).Shows d := ⟨shape, hshape, rfl⟩
  refine ⟨hd.of_shape? hshape, hd.x, hd.y, hwidth, hheight,
    getD_of_forall_mem hd.angle FiniteDefaults.zero,
    getD_of_forall_mem hd.strokeWidth FiniteDefaults.strokeWidth, ?_⟩
  exact hshows.isFinite_roundness hd.roundness

end Whiteboard.Drawing
