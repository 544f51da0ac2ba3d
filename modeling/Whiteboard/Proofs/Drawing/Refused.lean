import Whiteboard.Proofs.Drawing.Decoding

/-!
# Whiteboard — what is not finite is not read back

A number that is not finite is written as `null`, and where a number must stand a reader
refuses that. So the form of an element is decoded only if all of its numbers are finite,
and one element that is not makes a whole document unreadable. The value of a rounding is
the one number that may be missing; where it is not finite, it is lost instead.

Main results:

* `Element.isFinite_of_decode?_tree` — an element that is decoded from its form is finite.
* `Document.decode?_tree_eq_none` — no document with another element is decoded.
-/

namespace Whiteboard.Drawing

open Audit (record keys_nodup)
open Decode
open Json (fieldTrees)

variable {S : Type} [Scalar S] [Numeral S]

/-! ## Numbers in fields -/

theorem isFinite_of_points_field {fs : Fields} {own : List (String × Json S)} {key : String}
    {ps qs : List (Point S)} (h : fs.Holds own) (hv : (key, Json.list Json.point ps) ∈ own)
    (hps : fs.required? key (list? point?) = some qs) : ∀ p ∈ ps, p.IsFinite := by
  intro p hp
  obtain ⟨q, hq⟩ := exists_of_list?_tree (h.of_required? hv hps) hp
  exact isFinite_of_point?_tree hq

theorem isFinite_of_point_field {fs : Fields} {own : List (String × Json S)} {key : String}
    {p? q? : Option (Point S)} (h : fs.Holds own) (hv : (key, Json.option Json.point p?) ∈ own)
    (hp : fs.optional? key point? = some q?) : ∀ p ∈ p?, p.IsFinite := by
  intro p hmem
  obtain ⟨q, hq⟩ := h.of_optional? hmem hv Tree.noConfusion hp
  exact isFinite_of_point?_tree hq

theorem isFinite_of_scalar_field {fs : Fields} {own : List (String × Json S)} {key : String}
    {x y : S} (h : fs.Holds own) (hv : (key, Json.scalar x) ∈ own)
    (hx : fs.required? key scalar? = some y) : Scalar.isFinite x = true :=
  isFinite_of_scalar?_tree (h.of_required? hv hx)

/-! ## Shapes -/

theorem Binding.isFinite_of_decode?_tree {b b' : Binding S}
    (h : Binding.decode? b.toJson.tree = some b') : b.IsFinite := by
  obtain ⟨fs, hknown, hfs⟩ : ∃ fs, record? ["elementId", "focus", "gap"] 3 b.toJson.tree = some fs ∧
      fs.Holds [("elementId", .string b.elementId), ("focus", Json.scalar b.focus),
        ("gap", Json.scalar b.gap)] :=
    exists_known? _ (by simp) (List.Subset.refl _) (List.Subset.refl _)
  simp only [Binding.decode?, hknown, Option.bind_eq_bind, Option.bind_some,
    Option.bind_eq_some_iff] at h
  obtain ⟨id, -, focus, hfocus, gap, hgap, -⟩ := h
  exact ⟨isFinite_of_scalar_field hfs (by simp) hfocus,
    isFinite_of_scalar_field hfs (by simp) hgap⟩

theorem TextBody.isFinite_of_decode?_fields {body body' : TextBody S}
    {fields : List (String × Json S)} (hkeys : (fields.map Prod.fst).Nodup)
    (hown : body.fields ⊆ fields) (h : TextBody.decode? (fieldTrees fields) = some body') :
    (Shape.text body).IsFinite := by
  obtain ⟨fs, hknown, hfs⟩ := exists_known? TextBody.fieldNames hkeys hown (List.Subset.refl _)
  simp only [TextBody.decode?, hknown, Option.bind_eq_bind, Option.bind_some,
    Option.bind_eq_some_iff] at h
  obtain ⟨text, -, size, hsize, family, -, align, -, vertical, -, container, -, original, -,
    height, hheight, -⟩ := h
  exact ⟨isFinite_of_scalar_field hfs (by simp [TextBody.fields]) hsize,
    isFinite_of_scalar_field hfs (by simp [TextBody.fields]) hheight⟩

theorem Polyline.isFinite_of_decode?_fields {path path' : Polyline S}
    {fields : List (String × Json S)} (hkeys : (fields.map Prod.fst).Nodup)
    (hown : path.fields ⊆ fields) (h : Polyline.decode? (fieldTrees fields) = some path') :
    path.IsFinite := by
  obtain ⟨fs, hknown, hfs⟩ := exists_known? Polyline.fieldNames hkeys hown (List.Subset.refl _)
  simp only [Polyline.decode?, hknown, Option.bind_eq_bind, Option.bind_some,
    Option.bind_eq_some_iff] at h
  obtain ⟨points, hpoints, last, hlast, start, hstart, finish, hfinish, -⟩ := h
  -- a binding may be missing, but it may not be half a binding
  have hbinding : ∀ {b? : Option (Binding S)} {key : String} {b'? : Option (Binding S)},
      (key, Json.option Binding.toJson b?) ∈ path.fields →
      fs.optional? key Binding.decode? = some b'? → ∀ b ∈ b?, b.IsFinite := by
    intro b? key b'? hv hdecoded b hb
    obtain ⟨b', hb'⟩ := hfs.of_optional? hb hv Tree.noConfusion hdecoded
    exact Binding.isFinite_of_decode?_tree hb'
  exact ⟨isFinite_of_points_field hfs (by simp [Polyline.fields]) hpoints,
    isFinite_of_point_field hfs (by simp [Polyline.fields]) hlast,
    hbinding (by simp [Polyline.fields]) hstart, hbinding (by simp [Polyline.fields]) hfinish⟩

theorem Freehand.isFinite_of_decode?_fields {stroke stroke' : Freehand S}
    {fields : List (String × Json S)} (hkeys : (fields.map Prod.fst).Nodup)
    (hown : stroke.fields ⊆ fields) (h : Freehand.decode? (fieldTrees fields) = some stroke') :
    stroke.IsFinite := by
  obtain ⟨fs, hknown, hfs⟩ := exists_known? Freehand.fieldNames hkeys hown (List.Subset.refl _)
  simp only [Freehand.decode?, hknown, Option.bind_eq_bind, Option.bind_some,
    Option.bind_eq_some_iff] at h
  obtain ⟨points, hpoints, pressures, hpressures, simulate, -, last, hlast, -⟩ := h
  have hlist : list? scalar? (Json.list Json.scalar stroke.pressures).tree = some pressures :=
    hfs.of_defaulted? (by simp [Freehand.fields]) hpressures
  refine ⟨isFinite_of_points_field hfs (by simp [Freehand.fields]) hpoints, fun x hx => ?_,
    isFinite_of_point_field hfs (by simp [Freehand.fields]) hlast⟩
  obtain ⟨x', hx'⟩ := exists_of_list?_tree hlist hx
  exact isFinite_of_scalar?_tree hx'

/-- A shape that is decoded from its fields is finite. -/
theorem Shape.isFinite_of_decode?_fields {s s' : Shape S} {fields : List (String × Json S)}
    (hkeys : (fields.map Prod.fst).Nodup) (hown : s.fields ⊆ fields)
    (h : Shape.decode? (fieldTrees fields) s.kind = some s') : s.IsFinite := by
  cases s with
  | rectangle | ellipse | diamond => trivial
  | text body =>
    obtain ⟨body', hbody, -⟩ := Option.map_eq_some_iff.mp h
    exact TextBody.isFinite_of_decode?_fields hkeys hown hbody
  | line path | arrow path =>
    obtain ⟨path', hpath, -⟩ := Option.map_eq_some_iff.mp h
    exact Polyline.isFinite_of_decode?_fields hkeys hown hpath
  | freedraw stroke =>
    obtain ⟨stroke', hstroke, -⟩ := Option.map_eq_some_iff.mp h
    exact Freehand.isFinite_of_decode?_fields hkeys hown hstroke

/-! ## Elements -/

/-- **An element that is decoded from its form is finite**, if the value of its rounding
is. -/
theorem Element.isFinite_of_decode?_tree {e : Element S} {room : Nat}
    (hround : ∀ r ∈ e.roundness, ∀ x ∈ r.value, Scalar.isFinite x = true) :
    ∀ e' : Element S, Element.decode? room e.toJson.tree = some e' → e.IsFinite := by
  have hcommon : ("id", Json.string e.id) :: e.commonFields ⊆ record e :=
    List.cons_subset_cons _ (List.subset_cons_of_subset _ (List.subset_append_right _ _))
  obtain ⟨fs, hknown, hfs⟩ := exists_known? Element.fieldNames (keys_nodup e) hcommon
    (List.Subset.refl _)
  obtain ⟨tag, htag, hkind⟩ := exists_kind_kindFields e
  show ∀ e', Element.decode? room (.object (fieldTrees (record e))) = some e' → _
  rw [Element.decode?, filter_fieldTrees_record]
  -- the steps of the decoder, in their order
  refine forall_bind_eq_some fun fs' hfs' => forall_bind_eq_some fun judged _ =>
    forall_bind_eq_some fun tag' htag' => forall_bind_eq_some fun kind' hkind' =>
    forall_bind_eq_some fun id _ => forall_bind_eq_some fun shape hshape =>
    forall_bind_eq_some fun x hx => forall_bind_eq_some fun y hy =>
    forall_bind_eq_some fun width hwidth => forall_bind_eq_some fun height hheight =>
    forall_bind_eq_some fun angle hangle => forall_bind_eq_some fun stroke _ =>
    forall_bind_eq_some fun background _ => forall_bind_eq_some fun fill _ =>
    forall_bind_eq_some fun strokeWidth hstrokeWidth => fun _ _ => ?_
  obtain rfl := Option.some.inj (hknown.symm.trans hfs')
  obtain rfl := Option.some.inj (htag.symm.trans htag')
  obtain rfl := Option.some.inj (hkind.symm.trans hkind')
  have hscalar : ∀ {key : String} {x x' : S}, (key, Json.scalar x) ∈ e.commonFields →
      fs.required? key scalar? = some x' → Scalar.isFinite x = true := fun hv h =>
    isFinite_of_scalar_field hfs (List.mem_cons_of_mem _ hv) h
  exact ⟨Shape.isFinite_of_decode?_fields (kindFields_nodup e) (List.subset_cons_self _ _) hshape,
    hscalar (by simp [Element.commonFields]) hx, hscalar (by simp [Element.commonFields]) hy,
    hscalar (by simp [Element.commonFields]) hwidth,
    hscalar (by simp [Element.commonFields]) hheight,
    hscalar (by simp [Element.commonFields]) hangle,
    hscalar (by simp [Element.commonFields]) hstrokeWidth, hround⟩

/-! ## Documents -/

/-- **One element that is not finite makes a document unreadable**, if it is not for the
value of a rounding. -/
theorem Document.decode?_tree_eq_none {d : Document S} {e : Element S} (he : e ∈ d.elements)
    (hround : ∀ r ∈ e.roundness, ∀ x ∈ r.value, Scalar.isFinite x = true) (hnot : ¬e.IsFinite)
    (room : Nat) : (Document.decode? room d.toJson.tree : Option (Document S)) = none := by
  rw [Option.eq_none_iff_forall_ne_some]
  -- a document that was decoded would have a decoded form of every element
  intro d' h
  obtain ⟨fs, hknown, hfs⟩ : ∃ fs,
      record? ["type", "version", "source", "elements", "appState", "files"] 4 d.toJson.tree =
        some fs ∧
      fs.Holds [("type", .string d.format), ("version", Json.uint32 d.version),
        ("source", .string d.source), ("elements", Json.list Element.toJson d.elements),
        ("appState", d.canvas.toJson), ("files", .object d.files)] :=
    exists_known? _ (by simp) (List.Subset.refl _) (List.Subset.refl _)
  simp only [Document.decode?, hknown, Option.bind_eq_bind, Option.bind_some,
    Option.bind_eq_some_iff] at h
  obtain ⟨format, -, version, -, source, -, elements, helements, -⟩ := h
  have hlist : list? (Element.decode? (room - 3)) (Json.list Element.toJson d.elements).tree =
      some elements := hfs.of_required? (by simp) helements
  obtain ⟨e', he'⟩ := exists_of_list?_tree hlist he
  exact hnot (Element.isFinite_of_decode?_tree hround e' he')

end Whiteboard.Drawing
