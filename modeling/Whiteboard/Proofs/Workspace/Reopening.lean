import Whiteboard.Proofs.Drawing.Kept
import Whiteboard.Proofs.Drawing.Refused
import Whiteboard.Proofs.Drawing.RoundTrip
import Whiteboard.Proofs.Workspace.Committing

/-!
# Whiteboard — opening a file again

What an operation has put into a file is to be read by the next one. It is, as long as all
numbers are finite, and numbers that come from a file or from what a caller hands in are. What
is read is the document with its numbers read again, and so the document itself if the reader
is exact. But the size of a new element and the ends of a connector are computed, and what
overflows on the way is written as `null`, which no reader takes for a number: the operation
succeeds, and from then on the file holds no document.

Main results:

* `Storable.readBack` — what can be read from a text can be stored in a file.
* `reopens_documentText` — one element that is not finite decides whether anything is read.
* `update_leaves`, `add_leaves`, `connect_leaves` — what is read from a file after a
  document in it was changed.
-/

namespace Whiteboard.Workspace

open Drawing (ConnectorLook Document Draft Element IdSource Revision)

variable {S : Type} [Scalar S] [Numeral S] [LawfulNumeral S]

/-! ## Documents that can be stored -/

/-- A document that is read back from what is written of it. -/
structure Storable (d : Document S) : Prop where
  finite : d.IsFinite
  ordered : (Json.object d.files).Ordered
  depth_le : d.toJson.depth ≤ Tree.nestingLimit

theorem storable_of_read? {text : String} {d : Document S} (h : Document.read? text = some d) :
    Storable d := by
  obtain ⟨hfinite, hordered, hdepth⟩ := Document.isFinite_of_read? h
  exact ⟨hfinite, hordered, hdepth⟩

omit [Numeral S] [LawfulNumeral S] in
/-- A new document can be stored. -/
theorem storable_empty : Storable (.empty : Document S) := by
  have hdepth : (Document.empty : Document S).toJson.depth ≤ 126 + 1 := by
    rw [Document.depth_toJson_le_iff (by decide)]
    show 1 ≤ 126
    decide
  refine ⟨⟨?_, ?_, ?_⟩, ?_, hdepth⟩
  · exact fun e he => absurd he List.not_mem_nil
  · exact fun x hx => absurd hx (Option.not_mem_none x)
  · exact .object fun f hf => absurd hf List.not_mem_nil
  · exact .object List.Pairwise.nil fun f hf => absurd hf List.not_mem_nil

omit [Numeral S] [LawfulNumeral S] in
/-- Other finite elements can be stored as well. -/
theorem Storable.of_elements {d d' : Document S} (h : Storable d) (hcanvas : d'.canvas = d.canvas)
    (hfiles : d'.files = d.files) (helements : ∀ e ∈ d'.elements, e.IsFinite) : Storable d' := by
  have hdepth : (Json.object d.files).depth ≤ 126 :=
    (Document.depth_toJson_le_iff (by decide)).mp h.depth_le
  refine ⟨⟨helements, hcanvas ▸ h.finite.gridSize, hfiles ▸ h.finite.files⟩, hfiles ▸ h.ordered, ?_⟩
  show d'.toJson.depth ≤ 126 + 1
  exact (Document.depth_toJson_le_iff (by decide)).mpr (hfiles ▸ hdepth)

omit [LawfulNumeral S] in
/-- A document is read back: its numbers are read again, and where reading is exact it is the
very document. -/
structure ReadBack (d? : Option (Document S)) (d : Document S) : Prop where
  reread : d? = some d.reread
  exactly : ∀ [ExactNumeral S], d? = some d

omit [LawfulNumeral S] in
theorem ReadBack.ne_none {d? : Option (Document S)} {d : Document S} (h : ReadBack d? d) :
    d? ≠ none := by
  rw [h.reread]
  exact Option.some_ne_none _

/-- **What can be stored is read back.** -/
theorem Storable.readBack {d : Document S} (h : Storable d) :
    ReadBack (Document.read? (documentText d)) d := by
  have hread : Document.read? (documentText d) = some d.reread := by
    have hdecode : Document.decode? (126 + 1) d.toJson.tree = some d.reread :=
      Document.decode?_tree h.finite h.ordered (by decide) h.depth_le
    have hrange : d.toJson.InRange := Document.inRange_toJson h.finite.files
    rw [Document.read?, documentText, Json.read?_pretty_newline hrange, Option.bind_some,
      Tree.nestingLimit, hdecode]
  refine ⟨hread, ?_⟩
  intro _
  rw [hread, Document.reread_eq h.finite]

/-- What is read back after one element was written beside others: the document, if the
element is finite, and nothing at all otherwise. -/
def Reopens (d? : Option (Document S)) (d : Document S) (e : Element S) : Prop :=
  (e.IsFinite → ReadBack d? d) ∧ (¬e.IsFinite → d? = none)

omit [LawfulNumeral S] in
theorem Reopens.eq_none_iff {d? : Option (Document S)} {d : Document S} {e : Element S}
    (h : Reopens d? d e) : d? = none ↔ ¬e.IsFinite :=
  ⟨fun hnone he => (h.1 he).ne_none hnone, h.2⟩

/-- **One element.** Where all others are finite, it decides. -/
theorem reopens_documentText {old d : Document S} {e : Element S} (hold : Storable old)
    (hcanvas : d.canvas = old.canvas) (hfiles : d.files = old.files) (he : e ∈ d.elements)
    (hothers : ∀ x ∈ d.elements, x = e ∨ x.IsFinite)
    (hround : ∀ r ∈ e.roundness, ∀ x ∈ r.value, Scalar.isFinite x = true) :
    Reopens (Document.read? (documentText d)) d e := by
  refine ⟨fun hfinite => ?_, fun hnot => ?_⟩
  · -- then all elements are finite
    refine (hold.of_elements hcanvas hfiles fun x hx => ?_).readBack
    rcases hothers x hx with rfl | hx
    · exact hfinite
    · exact hx
  · -- the text is still JSON, but a number is missing in it
    have hrange : d.toJson.InRange := Document.inRange_toJson (hfiles ▸ hold.finite.files)
    rw [Document.read?, documentText, Json.read?_pretty_newline hrange, Option.bind_some]
    exact Document.decode?_tree_eq_none he hround hnot _

/-! ## Documents in files -/

theorem fromUTF8?_toUTF8 (text : String) : String.fromUTF8? text.toUTF8 = some text := by
  unfold String.fromUTF8?
  rw [String.toUTF8_eq_toByteArray, dif_pos text.isValidUTF8]
  rfl

omit [LawfulNumeral S] in
/-- A document is read from the bytes of its text. -/
theorem Memory.document?_of_read? {m : Memory} {path : String} {d : Document S}
    (h : m.read? path = some (documentText d).toUTF8) :
    m.document? S path = Document.read? (documentText d) := by
  rw [Memory.document?, Memory.text?, h, Option.bind_some, fromUTF8?_toUTF8, Option.bind_some]

variable {G : Type} {α : Type} {path : String}

/-- What is read from a file after work that succeeds; if it fails, that is what was there
before. -/
def Leaves (path : String) (act : Work (StateM Unreliable) G α) (g : G) (s : Unreliable)
    (meets : α → G → Option (Document S) → Prop) : Prop :=
  ∃ r g' s', outcome act g s = ((r, g'), s') ∧
    match r with
    | .ok a => meets a g' (s'.memory.document? S path)
    | .error _ => s'.memory.document? S path = s.memory.document? S path

omit [LawfulNumeral S] in
theorem Commits.leaves {act : Work (StateM Unreliable) G α} {g : G} {s : Unreliable}
    {meets : α → Document S → G → Prop} {meets' : α → G → Option (Document S) → Prop}
    (h : Commits path act g s meets)
    (hmeets : ∀ a d g', meets a d g' → meets' a g' (Document.read? (documentText d))) :
    Leaves path act g s meets' := by
  obtain ⟨r, g', s', hact, hcommits⟩ := h
  refine ⟨r, g', s', hact, ?_⟩
  cases r with
  | error e =>
    have hread : s'.memory.read? path = s.memory.read? path := congrArg Prod.snd hcommits
    show s'.memory.document? S path = _
    unfold Memory.document? Memory.text?
    rw [hread]
  | ok a =>
    obtain ⟨d, hd, hread⟩ := hcommits
    show meets' a g' (s'.memory.document? S path)
    rw [Memory.document?_of_read? hread]
    exact hmeets a d g' hd

omit [LawfulNumeral S] in
/-- What is read after work that has succeeded. -/
theorem Leaves.of_ok {act : Work (StateM Unreliable) G α} {g g' : G} {s s' : Unreliable} {a : α}
    {meets : α → G → Option (Document S) → Prop} (h : Leaves path act g s meets)
    (hact : outcome act g s = ((.ok a, g'), s')) :
    meets a g' (s'.memory.document? S path) := by
  obtain ⟨r, g'', s'', hact', hleaves⟩ := h
  rw [hact] at hact'
  cases hact'
  exact hleaves

omit [LawfulNumeral S] in
/-- After a success nothing more can go wrong. -/
theorem Leaves.pure {β : Type} {act : Work (StateM Unreliable) G α} {g : G} {s : Unreliable}
    {meets : α → G → Option (Document S) → Prop} {meets' : β → G → Option (Document S) → Prop}
    {value : α → β} (h : Leaves path act g s meets)
    (hmeets : ∀ a g' d?, meets a g' d? → meets' (value a) g' d?) :
    Leaves path (act >>= fun a => Pure.pure (value a)) g s meets' := by
  obtain ⟨r, g', s', hact, hleaves⟩ := h
  cases r with
  | error e =>
    refine ⟨.error e, g', s', ?_, hleaves⟩
    rw [outcome_bind, hact]
  | ok a =>
    refine ⟨.ok (value a), g', s', ?_, hmeets a g' _ hleaves⟩
    rw [outcome_bind, hact]
    rfl

/-- What is in a file can be stored. -/
theorem storable_of_document? {m : Memory} {d : Document S} (h : m.document? S path = some d) :
    Storable d := by
  obtain ⟨text, -, hread⟩ := Option.bind_eq_some_iff.mp h
  exact storable_of_read? hread

/-! ## Operations -/

variable [IdSource G]

/-- **Revising.** The file holds the revised document. -/
theorem update_leaves (now : Int64) (path id data : String) (g : G) (s : Unreliable) :
    Leaves path (update S now path id data) g s fun e g' d? =>
      ∃ (u : Revision S) (old d : Document S) (former : Element S), Revision.read? data = some u ∧
        s.memory.document? S path = some old ∧ old.get? id = some former ∧
        (former.update now u).run g = (e, g') ∧ old.replace e = .ok (former, d) ∧
        ReadBack d? d := by
  refine (update_commits now path id data g s).leaves fun e d g' h => ?_
  obtain ⟨u, old, former, hu, hold, hformer, hupdate, hreplace⟩ := h
  refine ⟨u, old, d, former, hu, hold, hformer, hupdate, hreplace, ?_⟩
  have hstorable := storable_of_document? hold
  obtain ⟨t, -, hdecode⟩ := Option.bind_eq_some_iff.mp hu
  -- the element was finite, and so are the numbers that it is revised with
  have he : e.IsFinite := by
    have h := (hstorable.finite.elements former (Document.mem_of_get? hformer).1).update
      (Revision.isFinite_of_decode? u hdecode) now g
    rwa [hupdate] at h
  obtain ⟨i, -, heq⟩ := Document.replace_eq_ok hreplace
  obtain ⟨-, rfl⟩ := Prod.mk.inj heq
  have hrevised : Storable (old.setAt i e) := by
    refine hstorable.of_elements rfl rfl fun x hx => ?_
    rcases List.mem_or_eq_of_mem_set hx with hx | rfl
    · exact hstorable.finite.elements x hx
    · exact he
  exact hrevised.readBack

/-- **Adding.** The file holds the document with the new element, unless the size of that
overflowed. -/
theorem add_leaves [Drawing.FiniteDefaults S] (now : Int64) (path data : String) (g : G)
    (s : Unreliable) :
    Leaves path (add S now path data) g s fun id g' d? =>
      ∃ (draft : Draft S) (old : Document S) (e : Element S), Draft.read? data = some draft ∧
        s.memory.document? S path = some old ∧ (draft.create now).run.run g = (.ok e, g') ∧
        id = e.id ∧
        (e.IsFinite ↔ Scalar.isFinite e.width = true ∧ Scalar.isFinite e.height = true) ∧
        Reopens d? (old.push e) e := by
  refine (add_commits now path data g s).leaves fun id d g' h => ?_
  obtain ⟨draft, old, e, hdraft, hold, hcreate, rfl, hid⟩ := h
  obtain ⟨t, -, hdecode⟩ := Option.bind_eq_some_iff.mp hdraft
  have hfinite := Draft.isFinite_of_decode? draft hdecode
  refine ⟨draft, old, e, hdraft, hold, hcreate, hid, hfinite.create_iff hcreate, ?_⟩
  have hstorable := storable_of_document? hold
  -- the size apart, the element is as finite as the draft
  have hshows : e.Shows draft := by
    obtain ⟨shape, id, seed, nonce, hshape, rfl⟩ := Draft.create_eq_ok hcreate
    exact ⟨shape, hshape, rfl⟩
  refine reopens_documentText hstorable rfl rfl List.mem_concat_self (fun x hx => ?_)
    (hshows.isFinite_roundness hfinite.roundness)
  rcases List.mem_append.mp hx with hx | hx
  · exact Or.inr (hstorable.finite.elements x hx)
  · exact Or.inl (List.mem_singleton.mp hx)

/-- **Connecting.** The file holds the connected document, unless the connector overflowed. -/
theorem connect_leaves (now : Int64) (path source target : String) (look : ConnectorLook) (g : G)
    (s : Unreliable) :
    Leaves path (connect S now path source target look) g s fun id g' d? =>
      ∃ (old d : Document S) (c : Element S), s.memory.document? S path = some old ∧
        (old.connect now source target look).run.run g = (.ok (id, d), g') ∧
        d.elements.getLast? = some c ∧ Reopens d? d c := by
  refine (connect_commits now path source target look g s).leaves fun id d g' h => ?_
  obtain ⟨old, hold, hconnect⟩ := h
  obtain ⟨p, c, source', target', hconnects, hsource, htarget, rfl, -⟩ :=
    Document.connect_eq_ok hconnect
  refine ⟨old, _, c, hold, hconnect, List.getLast?_concat, ?_⟩
  have hstorable := storable_of_document? hold
  -- the route asks for no rounding
  have hround := hconnects.shows.isFinite_roundness nofun
  refine reopens_documentText hstorable rfl rfl List.mem_concat_self (fun x hx => ?_) hround
  rcases List.mem_append.mp hx with hx | hx
  · refine Or.inr ?_
    rcases Document.mem_put hx with rfl | rfl | hx
    · exact hsource.isFinite (hstorable.finite.elements _ (List.get_mem _ _))
    · exact htarget.isFinite (hstorable.finite.elements _ (List.get_mem _ _))
    · exact hstorable.finite.elements x hx
  · exact Or.inl (List.mem_singleton.mp hx)

end Whiteboard.Workspace
