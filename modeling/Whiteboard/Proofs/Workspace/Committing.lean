import Whiteboard.Proofs.Drawing.Places
import Whiteboard.Proofs.Workspace.Unreliable

/-!
# Whiteboard — operations on files, whatever fails

An operation on the document in a file is the operation of the library on the document that
the file held before: if it succeeds, the file holds what comes of that, and if it fails —
because a call on files fails or for any other reason — the file is as it was.

Main results:

* `add_commits`, `update_commits`, `connect_commits` — the operations that change a document.
* `create_commits`, `compile_commits` — those that make one.
* `operations_commit` — all of them, and what never changes.
-/

namespace Whiteboard.Workspace

open Drawing (ConnectorLook Document Draft Element IdSource Revision)

variable {S : Type} [Scalar S] [Numeral S] {G : Type}

/-! ## Operations that make a document -/

theorem create_commits (path : String) (force : Bool) (g : G) (s : Unreliable) :
    Commits path (create S path force) g s fun _ (d : Document S) g' => d = .empty ∧ g' = g := by
  unfold create
  refine (requireFree_quiet path force g s).commits fun _ g' s' _ h => ?_
  obtain ⟨-, rfl⟩ := h
  exact writeDocument_commits path .empty g' s'

variable [IdSource G]

theorem compile_commits (now : Int64) (input path : String) (options : Chain.Options)
    (force : Bool) (g : G) (s : Unreliable) :
    Commits path (compile S now input path options force) g s fun counts (d : Document S) g' =>
      ∃ source, s.memory.source? input = some source ∧
        (Chain.compile now options source).run.run g = (.ok d, g') ∧ counts = d.counts := by
  unfold compile
  -- whatever may fail comes before the file is written
  refine (readSource_quiet input g s).commits fun source g₁ s₁ _ h => ?_
  obtain ⟨hsource, rfl⟩ := h
  refine (requireFree_quiet path force g₁ s₁).commits fun _ g₂ s₂ _ h => ?_
  obtain ⟨-, rfl⟩ := h
  refine (onIdentities_quiet .chain _ g₂ s₂).commits fun d g₃ s₃ _ hcompile => ?_
  refine (writeDocument_commits path d g₃ s₃).pure fun _ d' g₄ h => ?_
  obtain ⟨rfl, rfl⟩ := h
  exact ⟨source, hsource, hcompile, rfl⟩

/-! ## Operations that change a document -/

theorem add_commits (now : Int64) (path data : String) (g : G) (s : Unreliable) :
    Commits path (add S now path data) g s fun id d g' =>
      ∃ (draft : Draft S) (old : Document S) (e : Element S), Draft.read? data = some draft ∧
        s.memory.document? S path = some old ∧ (draft.create now).run.run g = (.ok e, g') ∧
        d = old.push e ∧ id = e.id := by
  unfold add
  -- the data are judged before the file is read
  refine (require_quiet .invalidData g s).commits fun draft g₁ s₁ hsame₁ h => ?_
  obtain ⟨hdraft, rfl⟩ := h
  refine (readDocument_quiet path g₁ s₁).commits fun old g₂ s₂ _ h => ?_
  obtain ⟨hold, rfl⟩ := h
  rw [hsame₁] at hold
  refine (onIdentities_quiet .drawing _ g₂ s₂).commits fun e g₃ s₃ _ hcreate => ?_
  refine (writeDocument_commits path (old.push e) g₃ s₃).pure fun _ d g₄ h => ?_
  obtain ⟨rfl, rfl⟩ := h
  exact ⟨draft, old, e, hdraft, hold, hcreate, rfl, rfl⟩

theorem update_commits (now : Int64) (path id data : String) (g : G) (s : Unreliable) :
    Commits path (update S now path id data) g s fun e d g' =>
      ∃ (u : Revision S) (old : Document S) (former : Element S), Revision.read? data = some u ∧
        s.memory.document? S path = some old ∧ old.get? id = some former ∧
        (former.update now u).run g = (e, g') ∧ old.replace e = .ok (former, d) := by
  unfold update
  refine (require_quiet .invalidData g s).commits fun u g₁ s₁ hsame₁ h => ?_
  obtain ⟨hu, rfl⟩ := h
  refine (readDocument_quiet path g₁ s₁).commits fun old g₂ s₂ _ h => ?_
  obtain ⟨hold, rfl⟩ := h
  rw [hsame₁] at hold
  refine (onIdentities_quiet .drawing _ g₂ s₂).commits fun r g₃ s₃ _ hrevise => ?_
  -- the revision succeeded, so there was an element with the id
  obtain ⟨former, hformer, hupdate, hreplace⟩ := Document.revise_eq_ok hrevise
  refine (writeDocument_commits path r.2 g₃ s₃).pure fun _ d g₄ h => ?_
  obtain ⟨rfl, rfl⟩ := h
  exact ⟨u, old, former, hu, hold, hformer, hupdate, hreplace⟩

theorem connect_commits (now : Int64) (path source target : String) (look : ConnectorLook) (g : G)
    (s : Unreliable) :
    Commits path (connect S now path source target look) g s fun id d g' =>
      ∃ old : Document S, s.memory.document? S path = some old ∧
        (old.connect now source target look).run.run g = (.ok (id, d), g') := by
  unfold connect
  refine (readDocument_quiet path g s).commits fun old g₁ s₁ _ h => ?_
  obtain ⟨hold, rfl⟩ := h
  refine (onIdentities_quiet .drawing _ g₁ s₁).commits fun r g₂ s₂ _ hconnect => ?_
  refine (writeDocument_commits path r.2 g₂ s₂).pure fun _ d g₃ h => ?_
  obtain ⟨rfl, rfl⟩ := h
  exact ⟨old, hold, hconnect⟩

/-! ## What never changes -/

omit [IdSource G] in
theorem validate_quiet (path : String) (strict : Bool) (g : G) (s : Unreliable) :
    Quiet (validate S path strict) g s fun report g' => ∃ text v,
      s.memory.text? path = some text ∧ Json.read? text = some v ∧
      report = (if strict then (Audit.document v).strict else Audit.document v) ∧ g' = g := by
  unfold validate
  refine (readText_quiet path g s).bind fun text g₁ s₁ _ h => ?_
  obtain ⟨htext, rfl⟩ := h
  refine (require_quiet (.malformed path) g₁ s₁).bind fun v g₂ s₂ _ h => ?_
  obtain ⟨hv, rfl⟩ := h
  exact .pure ⟨text, v, htext, hv, rfl, rfl⟩

omit [IdSource G] in
/-- Where something stands, no document is created unless that is forced. -/
theorem create_quiet {path : String} {force : Bool} {s : Unreliable}
    (h : ¬(force = true ∨ s.memory.isPresent path = false)) (g : G) :
    Quiet (create S path force) g s fun _ _ => False := by
  unfold create
  exact (requireFree_quiet path force g s).bind fun _ _ _ _ hfree => absurd hfree.1 h

/-- Nor is one compiled. -/
theorem compile_quiet (now : Int64) (input : String) {path : String} (options : Chain.Options)
    {force : Bool} {s : Unreliable} (h : ¬(force = true ∨ s.memory.isPresent path = false))
    (g : G) : Quiet (compile S now input path options force) g s fun _ _ => False := by
  unfold compile
  refine (readSource_quiet input g s).bind fun source g₁ s₁ hsame _ => ?_
  refine (requireFree_quiet path force g₁ s₁).bind fun _ _ _ _ hfree => ?_
  rw [hsame] at hfree
  exact absurd hfree.1 h

/-- **Operations on files.** Whichever calls on files fail: an operation that succeeds puts
into the file, as a whole, what the operation of the library makes of the document that the
file held — or of nothing, or of a chain — and one that fails leaves what is at the path as
it was. An audit changes nothing at all, and neither does an attempt to make a document where
something stands already, which fails unless it is forced. -/
theorem operations_commit (now : Int64) (path : String) (g : G) (s : Unreliable) :
    (∀ force, Commits path (create S path force) g s
      fun _ (d : Document S) g' => d = .empty ∧ g' = g) ∧
    (∀ input options force, Commits path (compile S now input path options force) g s
      fun counts (d : Document S) g' => ∃ source, s.memory.source? input = some source ∧
        (Chain.compile now options source).run.run g = (.ok d, g') ∧ counts = d.counts) ∧
    (∀ data, Commits path (add S now path data) g s fun id d g' =>
      ∃ (draft : Draft S) (old : Document S) (e : Element S), Draft.read? data = some draft ∧
        s.memory.document? S path = some old ∧ (draft.create now).run.run g = (.ok e, g') ∧
        d = old.push e ∧ id = e.id) ∧
    (∀ id data, Commits path (update S now path id data) g s fun e d g' =>
      ∃ (u : Revision S) (old : Document S) (former : Element S), Revision.read? data = some u ∧
        s.memory.document? S path = some old ∧ old.get? id = some former ∧
        (former.update now u).run g = (e, g') ∧ old.replace e = .ok (former, d)) ∧
    (∀ source target look, Commits path (connect S now path source target look) g s
      fun id d g' => ∃ old : Document S, s.memory.document? S path = some old ∧
        (old.connect now source target look).run.run g = (.ok (id, d), g')) ∧
    (∀ strict, Quiet (validate S path strict) g s fun report g' => ∃ text v,
      s.memory.text? path = some text ∧ Json.read? text = some v ∧
      report = (if strict then (Audit.document v).strict else Audit.document v) ∧ g' = g) ∧
    ∀ force, (force = true ∨ s.memory.isPresent path = false) ∨
      (Quiet (create S path force) g s fun _ _ => False) ∧
      ∀ input options, Quiet (compile S now input path options force) g s fun _ _ => False := by
  refine ⟨fun force => create_commits path force g s,
    fun input options force => compile_commits now input path options force g s,
    fun data => add_commits now path data g s, fun id data => update_commits now path id data g s,
    fun source target look => connect_commits now path source target look g s,
    fun strict => validate_quiet path strict g s, fun force => ?_⟩
  -- it is forced or free, or nothing is made
  by_cases h : force = true ∨ s.memory.isPresent path = false
  · exact Or.inl h
  · exact Or.inr ⟨create_quiet h g, fun input options => compile_quiet now input options h g⟩

end Whiteboard.Workspace
