import Whiteboard.Drawing.Reading
import Whiteboard.Proofs.Drawing.Encoded
import Whiteboard.Proofs.Json.Decoding

/-!
# Whiteboard — what is decoded is finite

Wherever a decoder takes a number from, it is one that a text can spell, and such a
number is finite. So whatever is decoded can be encoded without losing a number. Of
attached files this is so because they are read as any JSON value is.

Main results:

* `Element.isFinite_of_decode?`, `Document.isFinite_of_decode?` — what is decoded holds
  finite numbers only.
* `readable_of_files?` — decoded files are as a reader builds them.
-/

namespace Whiteboard.Drawing

open Decode

variable {S : Type} [Scalar S] [Numeral S] [LawfulNumeral S]

/-! ## Parts of elements -/

theorem Roundness.isFinite_of_decode? {t : Tree} {r : Roundness S}
    (h : Roundness.decode? t = some r) : ∀ x ∈ r.value, Scalar.isFinite x = true := by
  simp only [Roundness.decode?, Option.bind_eq_bind, Option.bind_eq_some_iff] at h
  obtain ⟨fs, -, algorithm, -, value, hvalue, heq⟩ := h
  cases heq
  intro x hx
  obtain ⟨t, ht⟩ := Fields.exists_of_optional? hvalue hx
  exact isFinite_of_scalar? ht

theorem Binding.isFinite_of_decode? {t : Tree} {b : Binding S} (h : Binding.decode? t = some b) :
    b.IsFinite := by
  simp only [Binding.decode?, Option.bind_eq_bind, Option.bind_eq_some_iff] at h
  obtain ⟨fs, -, id, -, focus, hfocus, gap, hgap, heq⟩ := h
  cases heq
  obtain ⟨t₁, hfocus⟩ := Fields.exists_of_required? hfocus
  obtain ⟨t₂, hgap⟩ := Fields.exists_of_required? hgap
  exact ⟨isFinite_of_scalar? hfocus, isFinite_of_scalar? hgap⟩

theorem TextBody.isFinite_of_decode? {fields : List (Option String × Tree)} {body : TextBody S}
    (h : TextBody.decode? fields = some body) : (Shape.text body).IsFinite := by
  simp only [TextBody.decode?, Option.bind_eq_bind, Option.bind_eq_some_iff] at h
  obtain ⟨fs, -, text, -, size, hsize, family, -, align, -, vertical, -, container, -, original, -,
    height, hheight, resize, -, heq⟩ := h
  cases heq
  obtain ⟨t₁, hsize⟩ := Fields.exists_of_required? hsize
  obtain ⟨t₂, hheight⟩ := Fields.exists_of_required? hheight
  exact ⟨isFinite_of_scalar? hsize, isFinite_of_scalar? hheight⟩

theorem Polyline.isFinite_of_decode? {fields : List (Option String × Tree)} {path : Polyline S}
    (h : Polyline.decode? fields = some path) : path.IsFinite := by
  simp only [Polyline.decode?, Option.bind_eq_bind, Option.bind_eq_some_iff] at h
  obtain ⟨fs, -, points, hpoints, last, hlast, start, hstart, finish, hfinish, startHead, -,
    endHead, -, heq⟩ := h
  cases heq
  obtain ⟨list, hlist⟩ := Fields.exists_of_required? hpoints
  refine ⟨fun p hp => ?_, fun p hp => ?_, fun b hb => ?_, fun b hb => ?_⟩
  · obtain ⟨t, ht⟩ := exists_of_mem_list? hlist hp
    exact isFinite_of_point? ht
  · obtain ⟨t, ht⟩ := Fields.exists_of_optional? hlast hp
    exact isFinite_of_point? ht
  · obtain ⟨t, ht⟩ := Fields.exists_of_optional? hstart hb
    exact Binding.isFinite_of_decode? ht
  · obtain ⟨t, ht⟩ := Fields.exists_of_optional? hfinish hb
    exact Binding.isFinite_of_decode? ht

theorem Freehand.isFinite_of_decode? {fields : List (Option String × Tree)} {stroke : Freehand S}
    (h : Freehand.decode? fields = some stroke) : stroke.IsFinite := by
  simp only [Freehand.decode?, Option.bind_eq_bind, Option.bind_eq_some_iff] at h
  obtain ⟨fs, -, points, hpoints, pressures, hpressures, simulate, -, last, hlast, heq⟩ := h
  cases heq
  obtain ⟨list, hlist⟩ := Fields.exists_of_required? hpoints
  refine ⟨fun p hp => ?_, fun x hx => ?_, fun p hp => ?_⟩
  · obtain ⟨t, ht⟩ := exists_of_mem_list? hlist hp
    exact isFinite_of_point? ht
  · rcases Fields.exists_of_defaulted? hpressures with rfl | ⟨t, ht⟩
    · cases hx
    · obtain ⟨t, ht⟩ := exists_of_mem_list? ht hx
      exact isFinite_of_scalar? ht
  · obtain ⟨t, ht⟩ := Fields.exists_of_optional? hlast hp
    exact isFinite_of_point? ht

theorem Shape.isFinite_of_decode? {fields : List (Option String × Tree)} {kind : Kind} {s : Shape S}
    (h : Shape.decode? fields kind = some s) : s.IsFinite := by
  cases kind with
  | rectangle | ellipse | diamond =>
    cases h
    trivial
  | text =>
    obtain ⟨body, hbody, rfl⟩ := Option.map_eq_some_iff.mp h
    exact TextBody.isFinite_of_decode? hbody
  | line | arrow =>
    obtain ⟨path, hpath, rfl⟩ := Option.map_eq_some_iff.mp h
    exact Polyline.isFinite_of_decode? hpath
  | freedraw =>
    obtain ⟨stroke, hstroke, rfl⟩ := Option.map_eq_some_iff.mp h
    exact Freehand.isFinite_of_decode? hstroke
  | image | frame | magicFrame | embeddable | iframe | selection => cases h

/-- **A decoded element holds finite numbers only.** -/
theorem Element.isFinite_of_decode? {room : Nat} {t : Tree} :
    ∀ e : Element S, Element.decode? room t = some e → e.IsFinite := by
  cases t with
  | null | bool | number | string | array => exact fun _ h => by cases h
  | object fields =>
    rw [Element.decode?]
    -- the steps of the decoder, in their order
    refine forall_bind_eq_some fun fs _ => forall_bind_eq_some fun judged _ =>
      forall_bind_eq_some fun tag _ => forall_bind_eq_some fun kind _ =>
      forall_bind_eq_some fun id _ => forall_bind_eq_some fun shape hshape =>
      forall_bind_eq_some fun x hx => forall_bind_eq_some fun y hy =>
      forall_bind_eq_some fun width hwidth => forall_bind_eq_some fun height hheight =>
      forall_bind_eq_some fun angle hangle => forall_bind_eq_some fun stroke _ =>
      forall_bind_eq_some fun background _ => forall_bind_eq_some fun fill _ =>
      forall_bind_eq_some fun strokeWidth hstrokeWidth => forall_bind_eq_some fun style _ =>
      forall_bind_eq_some fun roughness _ => forall_bind_eq_some fun opacity _ =>
      forall_bind_eq_some fun roundness hroundness => forall_bind_eq_some fun seed _ =>
      forall_bind_eq_some fun version _ => forall_bind_eq_some fun nonce _ =>
      forall_bind_eq_some fun deleted _ => forall_bind_eq_some fun groups _ =>
      forall_bind_eq_some fun frame _ => forall_bind_eq_some fun bound _ =>
      forall_bind_eq_some fun updated _ => forall_bind_eq_some fun link _ =>
      forall_bind_eq_some fun locked _ => ?_
    intro e he
    cases he
    have hscalar : ∀ {key : String} {x : S}, fs.required? key scalar? = some x →
        Scalar.isFinite x = true := fun h => by
      obtain ⟨t, ht⟩ := Fields.exists_of_required? h
      exact isFinite_of_scalar? ht
    refine ⟨Shape.isFinite_of_decode? hshape, hscalar hx, hscalar hy, hscalar hwidth,
      hscalar hheight, hscalar hangle, hscalar hstrokeWidth, fun r hr => ?_⟩
    obtain ⟨t, ht⟩ := Fields.exists_of_optional? hroundness hr
    exact Roundness.isFinite_of_decode? ht

theorem Canvas.isFinite_of_decode? {t : Tree} {c : Canvas S} (h : Canvas.decode? t = some c) :
    ∀ x ∈ c.gridSize, Scalar.isFinite x = true := by
  simp only [Canvas.decode?, Option.bind_eq_bind, Option.bind_eq_some_iff] at h
  obtain ⟨fs, -, background, -, grid, hgrid, heq⟩ := h
  cases heq
  intro x hx
  obtain ⟨t, ht⟩ := Fields.exists_of_optional? hgrid hx
  exact isFinite_of_scalar? ht

theorem readable_of_files? {room : Nat} {t : Tree} {files : List (String × Json S)}
    (h : files? room t = some files) : (Json.object files).Readable room := by
  obtain ⟨v, hv, hfiles⟩ := Option.bind_eq_some_iff.mp h
  have hreadable := Json.readable_of_value? hv
  cases v with
  | object fields =>
    cases hfiles
    exact hreadable
  | null | bool | number | string | array => cases hfiles

/-- **A decoded document holds finite numbers only**, and files in order that nest no
deeper than was read. -/
theorem Document.isFinite_of_decode? {room : Nat} {t : Tree} {d : Document S}
    (h : Document.decode? (room + 1) t = some d) (hroom : 1 ≤ room) :
    d.IsFinite ∧ (Json.object d.files).Readable room := by
  simp only [Document.decode?, Option.bind_eq_bind, Option.bind_eq_some_iff] at h
  obtain ⟨fs, -, format, -, version, -, source, -, elements, helements, canvas, hcanvas, files,
    hfiles, heq⟩ := h
  cases heq
  have hreadable : (Json.object files).Readable room := by
    rcases Fields.exists_of_defaulted? hfiles with rfl | ⟨t, ht⟩
    · obtain ⟨room, rfl⟩ := Nat.exists_eq_add_of_le' hroom
      exact Json.readable_object_iff.mpr ⟨List.Pairwise.nil, fun _ hf => by cases hf⟩
    · exact readable_of_files? ht
  obtain ⟨list, hlist⟩ := Fields.exists_of_required? helements
  refine ⟨⟨fun e he => ?_, ?_, hreadable.inRange⟩, hreadable⟩
  · obtain ⟨t, ht⟩ := exists_of_mem_list? hlist he
    exact Element.isFinite_of_decode? e ht
  · rcases Fields.exists_of_defaulted? hcanvas with rfl | ⟨t, ht⟩
    · intro x hx
      cases hx
    · exact Canvas.isFinite_of_decode? ht

end Whiteboard.Drawing
