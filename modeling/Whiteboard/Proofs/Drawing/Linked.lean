import Whiteboard.Proofs.Audit.References
import Whiteboard.Proofs.Drawing.Places

/-!
# Whiteboard — links between elements

A connector names the elements that it is bound to, and these list the connector. In
`Linked` documents the one never goes without the other: a connector is bound at both
ends or at none, and whatever an element lists is a connector that is bound to it.
What a document says about links is the `links` of its elements; nothing else of them
matters.

Main results:

* `Linked.of_links_eq` — elements with the same links are linked or not alike.
* `Linked.push`, `Linked.connect` — an element that is bound to nothing, and a new
  connector between two elements, keep a document linked.
* `Linked.resolved` — in a linked document every reference is to one of its elements.
-/

namespace Whiteboard.Drawing

variable {S : Type}

/-! ## What an element is linked to -/

/-- The ids of the elements that a line or an arrow is bound to, that of its start
first. -/
def Element.targets (e : Element S) : List String :=
  match e.shape.polyline? with
  | some path => (path.startBinding.toList ++ path.endBinding.toList).map Binding.elementId
  | none => []

/-- The connectors that an element lists. -/
def Element.connectors (e : Element S) : List BoundElement := e.boundElements.getD []

/-- The element lists the connector, once and with its kind. -/
def Element.ListsOnce (e c : Element S) : Prop :=
  e.connectors.filter (fun entry => entry.id == c.id) = [⟨c.id, c.kind⟩]

/-- Connectors and the elements that they are bound to know of each other. -/
structure Linked (es : List (Element S)) : Prop where
  /-- A connector is bound at no end, or to two different elements that list it. -/
  ends : ∀ c ∈ es, c.targets = [] ∨ ∃ source ∈ es, ∃ target ∈ es, source.id ≠ target.id ∧
    c.targets = [source.id, target.id] ∧ source.ListsOnce c ∧ target.ListsOnce c
  /-- What an element lists is a connector that is bound to it. -/
  entries : ∀ e ∈ es, ∀ entry ∈ e.connectors, ∃ c ∈ es, entry = ⟨c.id, c.kind⟩ ∧
    c.kind.isLinear = true ∧ e.id ∈ c.targets
  /-- There is no list without a connector. -/
  nonempty : ∀ e ∈ es, e.boundElements ≠ some []

theorem Linked.nil : Linked ([] : List (Element S)) :=
  ⟨List.forall_mem_nil _, List.forall_mem_nil _, List.forall_mem_nil _⟩

theorem Element.connectors_of_eq_none {e : Element S} (h : e.boundElements = none) :
    e.connectors = [] := by
  rw [connectors, h]
  rfl

/-- Only lines and arrows are bound to anything. -/
theorem Element.isLinear_of_mem_targets {e : Element S} {id : String} (h : id ∈ e.targets) :
    e.kind.isLinear = true := by
  by_contra hkind
  have hnone : e.shape.polyline? = none :=
    Shape.polyline?_eq_none_iff.mpr (Bool.not_eq_true _ ▸ hkind)
  rw [targets, hnone] at h
  exact List.not_mem_nil h

/-- A shape that is attached at both ends names both. -/
theorem Element.targets_of_ends {e : Element S} {source target : Binding S}
    (h : e.shape.ends = some (some source, some target)) :
    e.targets = [source.elementId, target.elementId] := by
  obtain ⟨path, hpath, hends⟩ := Option.map_eq_some_iff.mp h
  rw [Prod.mk.injEq] at hends
  unfold targets
  rw [hpath]
  simp [hends.1, hends.2]

/-! ## Links alone -/

/-- All that an element says about links. -/
structure Links where
  id : String
  kind : Kind
  targets : List String
  boundElements : Option (List BoundElement)

def Element.links (e : Element S) : Links := ⟨e.id, e.kind, e.targets, e.boundElements⟩

theorem exists_of_links_eq {es es' : List (Element S)}
    (h : es.map Element.links = es'.map Element.links) {e' : Element S} (he' : e' ∈ es') :
    ∃ e ∈ es, e.links = e'.links := by
  have hmem : e'.links ∈ es.map Element.links := h ▸ List.mem_map_of_mem he'
  exact List.mem_map.mp hmem

/-- Elements with the same links list the same connectors. -/
theorem Element.ListsOnce.of_links_eq {e e' c c' : Element S} (h : e.ListsOnce c)
    (he : e.links = e'.links) (hc : c.links = c'.links) : e'.ListsOnce c' := by
  simp only [links, Links.mk.injEq] at he hc
  unfold ListsOnce connectors at *
  rw [← he.2.2.2, ← hc.1, ← hc.2.1]
  exact h

/-- **Links alone.** Whether elements are linked depends on their links. -/
theorem Linked.of_links_eq {es es' : List (Element S)} (h : Linked es)
    (hlinks : es.map Element.links = es'.map Element.links) : Linked es' := by
  -- whatever is on the one side has a counterpart with the same links on the other
  have hold : ∀ {e' : Element S}, e' ∈ es' → ∃ e ∈ es, e.links = e'.links :=
    exists_of_links_eq hlinks
  have hnew : ∀ {e : Element S}, e ∈ es → ∃ e' ∈ es', e.links = e'.links := fun he => by
    obtain ⟨e', he', heq⟩ := exists_of_links_eq hlinks.symm he
    exact ⟨e', he', heq.symm⟩
  refine ⟨?_, ?_, ?_⟩
  · intro c' hc'
    obtain ⟨c, hc, heq⟩ := hold hc'
    have hfields := heq
    simp only [Element.links, Links.mk.injEq] at hfields
    obtain ⟨-, -, htargets, -⟩ := hfields
    rcases h.ends c hc with hnone | ⟨source, hsource, target, htarget, hne, hboth, hlists, hlists'⟩
    · exact Or.inl (htargets ▸ hnone)
    · -- the counterparts of the two elements that it is bound to
      obtain ⟨source', hsource', hs⟩ := hnew hsource
      obtain ⟨target', htarget', ht⟩ := hnew htarget
      have hsid : source.id = source'.id := congrArg Links.id hs
      have htid : target.id = target'.id := congrArg Links.id ht
      refine Or.inr ⟨source', hsource', target', htarget', hsid ▸ htid ▸ hne, ?_,
        hlists.of_links_eq hs heq, hlists'.of_links_eq ht heq⟩
      rw [← htargets, hboth, hsid, htid]
  · intro e' he' entry hentry
    obtain ⟨e, he, heq⟩ := hold he'
    have hbound : e.boundElements = e'.boundElements := congrArg Links.boundElements heq
    have hid : e.id = e'.id := congrArg Links.id heq
    unfold Element.connectors at hentry
    rw [← hbound] at hentry
    obtain ⟨c, hc, hentry, hlinear, hmem⟩ := h.entries e he entry hentry
    obtain ⟨c', hc', hceq⟩ := hnew hc
    simp only [Element.links, Links.mk.injEq] at hceq
    obtain ⟨hcid, hckind, hctargets, -⟩ := hceq
    exact ⟨c', hc', hcid ▸ hckind ▸ hentry, hckind ▸ hlinear, hid ▸ hctargets ▸ hmem⟩
  · intro e' he'
    obtain ⟨e, he, heq⟩ := hold he'
    have hbound : e.boundElements = e'.boundElements := congrArg Links.boundElements heq
    exact hbound ▸ h.nonempty e he

/-! ## One element more -/

/-- **Pushing.** An element that is bound to nothing and lists nothing keeps a document
linked. -/
theorem Linked.push {es : List (Element S)} (h : Linked es) {e : Element S}
    (htargets : e.targets = []) (hbound : e.boundElements = none) : Linked (es ++ [e]) := by
  have hmem : ∀ {x : Element S}, x ∈ es ++ [e] ↔ x ∈ es ∨ x = e := by simp
  refine ⟨?_, ?_, ?_⟩
  · -- what a connector is bound to is still there
    intro c hc
    rcases hmem.mp hc with hc | rfl
    · rcases h.ends c hc with hnone | ⟨source, hsource, target, htarget, hrest⟩
      · exact Or.inl hnone
      · exact Or.inr ⟨source, hmem.mpr (Or.inl hsource), target, hmem.mpr (Or.inl htarget), hrest⟩
    · exact Or.inl htargets
  · -- and so is every connector that is listed
    intro x hx entry hentry
    rcases hmem.mp hx with hx | rfl
    · obtain ⟨c, hc, hrest⟩ := h.entries x hx entry hentry
      exact ⟨c, hmem.mpr (Or.inl hc), hrest⟩
    · rw [Element.connectors_of_eq_none hbound] at hentry
      cases hentry
  · intro x hx
    rcases hmem.mp hx with hx | rfl
    · exact h.nonempty x hx
    · rw [hbound]
      simp

/-! ## One connector more -/

/-- What becomes of the elements below a new connector: those that it is bound to list it
last, and nothing else about links changes. -/
structure Attaching (es : List (Element S)) (c : Element S) (f : Element S → Element S) :
    Prop where
  id_eq : ∀ e ∈ es, (f e).id = e.id
  kind_eq : ∀ e ∈ es, (f e).kind = e.kind
  targets_eq : ∀ e ∈ es, (f e).targets = e.targets
  boundElements_eq : ∀ e ∈ es, (f e).boundElements =
    if e.id ∈ c.targets then some (e.connectors ++ [⟨c.id, c.kind⟩]) else e.boundElements

namespace Attaching

variable {es : List (Element S)} {c : Element S} {f : Element S → Element S}

theorem connectors_eq (h : Attaching es c f) {e : Element S} (he : e ∈ es) :
    (f e).connectors = e.connectors ++ if e.id ∈ c.targets then [⟨c.id, c.kind⟩] else [] := by
  unfold Element.connectors
  rw [h.boundElements_eq e he]
  split
  · rfl
  · rw [List.append_nil]

/-- A connector that was listed once still is. -/
theorem listsOnce (h : Attaching es c f) {e k : Element S} (he : e ∈ es) (hk : k ∈ es)
    (hne : c.id ≠ k.id) (hlists : e.ListsOnce k) : (f e).ListsOnce (f k) := by
  unfold Element.ListsOnce
  rw [h.connectors_eq he, h.id_eq k hk, h.kind_eq k hk, List.filter_append, hlists]
  split <;> simp [hne]

/-- An element that did not list the new connector now lists it once, if bound to it. -/
theorem listsOnce_new (h : Attaching es c f) {e : Element S} (he : e ∈ es)
    (hend : e.id ∈ c.targets) (hunlisted : ∀ entry ∈ e.connectors, entry.id ≠ c.id) :
    (f e).ListsOnce c := by
  have hnone : e.connectors.filter (fun entry => entry.id == c.id) = [] := by
    rw [List.filter_eq_nil_iff]
    intro entry hentry
    simp [hunlisted entry hentry]
  unfold Element.ListsOnce
  rw [h.connectors_eq he, if_pos hend, List.filter_append, hnone]
  simp

end Attaching

/-- In a linked document nobody lists an id that no element has. -/
theorem Linked.unlisted {es : List (Element S)} (h : Linked es) {id : String}
    (hfresh : id ∉ es.map Element.id) {e : Element S} (he : e ∈ es) :
    ∀ entry ∈ e.connectors, entry.id ≠ id := by
  rintro entry hentry rfl
  obtain ⟨k, hk, rfl, -⟩ := h.entries e he entry hentry
  exact hfresh (List.mem_map_of_mem hk)

/-- **Attaching.** A new connector that is bound to two elements, which list it last, keeps
a document linked. -/
theorem Linked.attach {es : List (Element S)} (h : Linked es) {c : Element S}
    {f : Element S → Element S} (hf : Attaching es c f) (hfresh : c.id ∉ es.map Element.id)
    {source target : Element S} (hsource : source ∈ es) (htarget : target ∈ es)
    (hne : source.id ≠ target.id) (hboth : c.targets = [source.id, target.id])
    (hbound : c.boundElements = none) : Linked (es.map f ++ [c]) := by
  have hmem : ∀ {x : Element S}, x ∈ es.map f ++ [c] ↔ (∃ e ∈ es, f e = x) ∨ x = c := by simp
  have hkept : ∀ {e : Element S}, e ∈ es → f e ∈ es.map f ++ [c] := fun he =>
    hmem.mpr (Or.inl ⟨_, he, rfl⟩)
  refine ⟨?_, ?_, ?_⟩
  · intro x hx
    rcases hmem.mp hx with ⟨k, hk, rfl⟩ | rfl
    · -- a connector that was there is bound to what it was bound to
      have hck : c.id ≠ k.id := fun heq => hfresh (heq ▸ List.mem_map_of_mem hk)
      rcases h.ends k hk with hnone | ⟨s, hs, t, ht, hst, hkboth, hlists, hlists'⟩
      · exact Or.inl ((hf.targets_eq k hk).trans hnone)
      · refine Or.inr ⟨_, hkept hs, _, hkept ht, ?_, ?_, hf.listsOnce hs hk hck hlists,
          hf.listsOnce ht hk hck hlists'⟩
        · rw [hf.id_eq s hs, hf.id_eq t ht]
          exact hst
        · rw [hf.targets_eq k hk, hkboth, hf.id_eq s hs, hf.id_eq t ht]
    · -- the new one is bound to two elements that did not list it yet
      have hs : source.id ∈ x.targets := by simp [hboth]
      have ht : target.id ∈ x.targets := by simp [hboth]
      refine Or.inr ⟨_, hkept hsource, _, hkept htarget, ?_, ?_,
        hf.listsOnce_new hsource hs (h.unlisted hfresh hsource),
        hf.listsOnce_new htarget ht (h.unlisted hfresh htarget)⟩
      · rw [hf.id_eq _ hsource, hf.id_eq _ htarget]
        exact hne
      · rw [hboth, hf.id_eq _ hsource, hf.id_eq _ htarget]
  · intro x hx entry hentry
    rcases hmem.mp hx with ⟨e, he, rfl⟩ | rfl
    · rw [hf.connectors_eq he] at hentry
      rcases List.mem_append.mp hentry with hold | hnew
      · -- an entry that was there before
        obtain ⟨k, hk, rfl, hlinear, hek⟩ := h.entries e he entry hold
        refine ⟨_, hkept hk, ?_, ?_, ?_⟩
        · rw [hf.id_eq k hk, hf.kind_eq k hk]
        · rw [hf.kind_eq k hk]
          exact hlinear
        · rw [hf.id_eq e he, hf.targets_eq k hk]
          exact hek
      · -- the entry of the new connector
        split at hnew
        · rename_i hec
          refine ⟨c, hmem.mpr (Or.inr rfl), List.mem_singleton.mp hnew,
            Element.isLinear_of_mem_targets hec, ?_⟩
          rw [hf.id_eq e he]
          exact hec
        · cases hnew
    · rw [Element.connectors_of_eq_none hbound] at hentry
      cases hentry
  · intro x hx
    rcases hmem.mp hx with ⟨e, he, rfl⟩ | rfl
    · rw [hf.boundElements_eq e he]
      split
      · simp
      · exact h.nonempty e he
    · rw [hbound]
      simp

/-! ## Connecting -/

/-- Two elements that have noted a connector attach it, once they have taken the places of
the elements with their ids. -/
theorem attaching_replacing {now : Int64} {es : List (Element S)} (h : Linked es)
    (hnodup : (es.map Element.id).Nodup) {source target source' target' c : Element S}
    (hsource : source ∈ es) (htarget : target ∈ es) (hfresh : c.id ∉ es.map Element.id)
    (hboth : c.targets = [source.id, target.id])
    (hsourceNoted : source.Noted now ⟨c.id, c.kind⟩ source')
    (htargetNoted : target.Noted now ⟨c.id, c.kind⟩ target') :
    Attaching es c (Document.replacing source' target') := by
  -- an element is one of the two, or it stays as it is
  have hcases : ∀ e ∈ es, (e.id ∈ c.targets ∧
        e.Noted now ⟨c.id, c.kind⟩ (Document.replacing source' target' e)) ∨
      (e.id ∉ c.targets ∧ Document.replacing source' target' e = e) := by
    intro e he
    unfold Document.replacing
    rw [hsourceNoted.id_eq, htargetNoted.id_eq, hboth]
    -- ids are distinct, so an element with the id of one of the two is that one
    by_cases hs : e.id = source.id
    · obtain rfl := List.inj_on_of_nodup_map hnodup he hsource hs
      rw [if_pos rfl]
      exact Or.inl ⟨by simp, hsourceNoted⟩
    · rw [if_neg hs]
      by_cases ht : e.id = target.id
      · obtain rfl := List.inj_on_of_nodup_map hnodup he htarget ht
        rw [if_pos rfl]
        exact Or.inl ⟨by simp, htargetNoted⟩
      · rw [if_neg ht]
        exact Or.inr ⟨by simp [hs, ht], rfl⟩
  have hshape : ∀ e ∈ es, (Document.replacing source' target' e).shape = e.shape := by
    intro e he
    rcases hcases e he with ⟨-, hnoted⟩ | ⟨-, hkept⟩
    · exact hnoted.shape_eq
    · rw [hkept]
  refine ⟨fun e _ => Document.id_replacing source' target' e,
    fun e he => congrArg Shape.kind (hshape e he), ?_, ?_⟩
  · intro e he
    unfold Element.targets
    rw [hshape e he]
  · intro e he
    rcases hcases e he with ⟨hend, hnoted⟩ | ⟨hend, hkept⟩
    · -- nobody lists the id of the new connector yet, so it comes last
      have hnew : e.isBoundTo c.id = false := by
        unfold Element.isBoundTo
        rw [List.any_eq_false]
        intro entry hentry
        simp [h.unlisted hfresh he entry hentry]
      rw [if_pos hend]
      exact hnoted.boundElements_eq hnew
    · rw [if_neg hend, hkept]

section

variable [Scalar S]

/-- **Connecting.** In a linked document with distinct ids, a new connector between two
elements, which have noted it, keeps the document linked. -/
theorem Linked.connect {now : Int64} {es : List (Element S)} (h : Linked es)
    (hnodup : (es.map Element.id).Nodup) {source target source' target' c : Element S}
    (hsource : source ∈ es) (htarget : target ∈ es) (hne : source.id ≠ target.id)
    {look : ConnectorLook} (hconnects : c.Connects (.plan source target) look)
    (hfresh : c.id ∉ es.map Element.id)
    (hsourceNoted : source.Noted now ⟨c.id, look.kind⟩ source')
    (htargetNoted : target.Noted now ⟨c.id, look.kind⟩ target') :
    Linked (es.map (Document.replacing source' target') ++ [c]) := by
  have hboth : c.targets = [source.id, target.id] := Element.targets_of_ends hconnects.ends
  rw [← hconnects.kind] at hsourceNoted htargetNoted
  exact h.attach (attaching_replacing h hnodup hsource htarget hfresh hboth hsourceNoted
    htargetNoted) hfresh hsource htarget hne hboth hconnects.unbound

end

/-! ## References -/

/-- **References.** In a linked document every reference is to one of its elements. -/
theorem Linked.resolved {es : List (Element S)} (h : Linked es) : Audit.Resolved es := by
  refine ⟨?_, ?_⟩
  · -- a connector refers to what it is bound to, one of two elements
    intro e he path hpath b hb
    have hmem : b.elementId ∈ e.targets := by
      unfold Element.targets
      rw [hpath]
      refine List.mem_map_of_mem (List.mem_append.mpr ?_)
      rcases hb with hb | hb
      · exact Or.inl (Option.mem_toList.mpr hb)
      · exact Or.inr (Option.mem_toList.mpr hb)
    rcases h.ends e he with hnone | ⟨source, hsource, target, htarget, -, hboth, -⟩
    · rw [hnone] at hmem
      cases hmem
    · rw [hboth] at hmem
      simp only [List.mem_cons, List.not_mem_nil, or_false] at hmem
      rcases hmem with hmem | hmem
      · exact hmem ▸ List.mem_map_of_mem hsource
      · exact hmem ▸ List.mem_map_of_mem htarget
  · -- an element refers to the connectors that it lists
    intro e he entry hentry
    obtain ⟨c, hc, rfl, -⟩ := h.entries e he entry hentry
    exact List.mem_map_of_mem hc

end Whiteboard.Drawing
