import Whiteboard.Proofs.Workspace.Committing

/-!
# Whiteboard — operations on files that do not fail

What an operation leaves if it succeeds, and what if it fails, is one question; whether it
succeeds is another. It does where its own parts succeed: what the caller handed in can be
read, the file holds a document, the library does its part, and the files are `Ready` — no
call fails by itself, and the paths of the file and of its temporary file lead to places where
files may stand.

Main results:

* `outcome_readDocument`, `writeDocument_succeeds` — reading and writing in ready files.
* `add_succeeds`, `update_succeeds`, `connect_succeeds` — the operations that change a
  document.
* `create_succeeds`, `compile_succeeds` — those that make one.
* `operations_succeed` — all of them, and the one that reports on a document.
-/

namespace Whiteboard.Workspace

open Drawing (ConnectorLook Document Draft Element IdSource Revision)

/-! ## Calls that do not fail -/

/-- No call fails by itself, and a document can be put into the file at the path. -/
structure Unreliable.Ready (s : Unreliable) (path : String) : Prop where
  faults : s.faults = []
  place : (s.memory.place? path).isSome = true
  temporary : (s.memory.place? (temporaryPath path)).isSome = true

namespace Unreliable

variable {α : Type} {s : Unreliable}

theorem run_ask_of_faults (h : s.faults = []) (answer : Memory → Option α) :
    (ask answer).run s = (answer s.memory, s) := by
  obtain ⟨m, faults⟩ := s
  obtain rfl : faults = [] := h
  rfl

theorem run_attempt_of_faults (h : s.faults = []) {change : Memory → Option Memory} {m : Memory}
    (hchange : change s.memory = some m) : (attempt change).run s = (true, ⟨m, []⟩) := by
  obtain ⟨m₀, faults⟩ := s
  obtain rfl : faults = [] := h
  have hunless : (Unreliable.mk m₀ []).unlessFault (change m₀) = some m := hchange
  simp only [StateT.run, attempt, hunless]
  rfl

end Unreliable

/-- Where a file can be written, one can be moved to. -/
theorem Memory.exists_rename? {m m' : Memory} {path : String} {content : ByteArray}
    (hplace : (m.place? path).isSome = true)
    (h : m.write? (temporaryPath path) content = some m') :
    ∃ m'', m'.rename? (temporaryPath path) path = some m'' := by
  have hsame := sameDirectories_of_write? h
  have hread := read?_of_write? h
  rw [← hsame.place?_eq path] at hplace
  obtain ⟨new, hnew⟩ := Option.isSome_iff_exists.mp hplace
  obtain ⟨old, hold, hcontent⟩ := Option.bind_eq_some_iff.mp hread
  refine ⟨(m'.erase old).put new (.file content), ?_⟩
  unfold rename?
  rw [hold, hnew]
  simp only [Option.bind_eq_bind, Option.bind_some, hcontent]
  rfl

/-! ## Reading and writing -/

variable {S : Type} [Scalar S] [Numeral S] {G : Type} {s : Unreliable} {path : String}

/-- The text that is in a file is read from it. -/
theorem outcome_readText {text : String} (hfaults : s.faults = [])
    (h : s.memory.text? path = some text) (g : G) :
    outcome (readText path) g s = ((.ok text, g), s) := by
  obtain ⟨bytes, hbytes, hdecoded⟩ := Option.bind_eq_some_iff.mp h
  have hcall : outcome (onFiles (FileAccess.read path)) g s = ((.ok (some bytes), g), s) := by
    refine outcome_onFiles ?_ g
    rw [← hbytes]
    exact Unreliable.run_ask_of_faults hfaults fun m => m.read? path
  unfold readText
  rw [outcome_bind, hcall]
  simp only [Option.bind_some, hdecoded]
  rfl

/-- The document that is in a file is read from it. -/
theorem outcome_readDocument {d : Document S} (hfaults : s.faults = [])
    (h : s.memory.document? S path = some d) (g : G) :
    outcome (readDocument S path) g s = ((.ok d, g), s) := by
  obtain ⟨text, htext, hread⟩ := Option.bind_eq_some_iff.mp h
  unfold readDocument
  rw [outcome_bind, outcome_readText hfaults htext]
  show outcome (require (.malformed path) (Document.read? text)) g s = _
  rw [hread]
  rfl

/-- Work goes on where nothing stands, or if it is forced. -/
theorem outcome_requireFree {force : Bool} (h : force = true ∨ s.memory.isPresent path = false)
    (g : G) : outcome (requireFree path force) g s = ((.ok (), g), s) := by
  unfold requireFree
  cases force with
  | true => rfl
  | false =>
    have hpresent : s.memory.isPresent path = false := h.resolve_left Bool.false_ne_true
    have hrun : outcome (onFiles (FileAccess.isPresent path)) g s =
        ((.ok (s.memory.isPresent path), g), s) := outcome_onFiles rfl g
    rw [if_pos (show (!false) = true from rfl), outcome_bind, hrun, hpresent]
    rfl

/-- A document can be put into a file that is ready. -/
theorem writeDocument_succeeds (h : s.Ready path) (d : Document S) (g : G) :
    ∃ s', outcome (writeDocument path d) g s = ((.ok (), g), s') := by
  let text := (documentText d).toUTF8
  obtain ⟨l, hl⟩ := Option.isSome_iff_exists.mp h.temporary
  have hwrite : s.memory.write? (temporaryPath path) text = some (s.memory.put l (.file text)) := by
    rw [Memory.write?, hl, Option.map_some]
  obtain ⟨m, hrename⟩ := Memory.exists_rename? h.place hwrite
  have hwriteRun : outcome (onFiles (FileAccess.write (temporaryPath path) text)) g s =
      ((.ok true, g), ⟨s.memory.put l (.file text), []⟩) :=
    outcome_onFiles (Unreliable.run_attempt_of_faults h.faults hwrite) g
  have hrenameRun : outcome (onFiles (FileAccess.rename (temporaryPath path) path)) g
      ⟨s.memory.put l (.file text), []⟩ = ((.ok true, g), ⟨m, []⟩) :=
    outcome_onFiles (Unreliable.run_attempt_of_faults rfl hrename) g
  refine ⟨⟨m, []⟩, ?_⟩
  unfold writeDocument
  rw [outcome_bind, hwriteRun]
  show outcome (onFiles (FileAccess.rename (temporaryPath path) path) >>= _) g _ = _
  rw [outcome_bind, hrenameRun]
  rfl

/-! ## Operations -/

/-- An operation that reads a document, changes it and writes it back succeeds, if the change
does. -/
theorem change_succeeds {α β : Type} (act : Document S → ExceptT Drawing.Error (StateM G) α)
    (made : Document S → α → Document S) (value : α → β) {d : Document S} {a : α} {g g' : G}
    (hready : s.Ready path) (hd : s.memory.document? S path = some d)
    (hact : (act d).run.run g = (.ok a, g')) :
    ∃ s', outcome (do
      let d ← readDocument S path
      let a ← onIdentities .drawing (act d)
      writeDocument path (made d a)
      return value a) g s = ((.ok (value a), g'), s') := by
  obtain ⟨s', hwrite⟩ := writeDocument_succeeds hready (made d a) g'
  have hdraw : outcome (onIdentities .drawing (act d)) g s = ((.ok a, g'), s) := by
    show ((((act d).run.run g).1.mapError Error.drawing, ((act d).run.run g).2), s) = _
    rw [hact]
    rfl
  refine ⟨s', ?_⟩
  rw [outcome_bind, outcome_readDocument hready.faults hd]
  show outcome (onIdentities .drawing (act d) >>= _) g s = _
  rw [outcome_bind, hdraw]
  show outcome (writeDocument path (made d a) >>= _) g' s = _
  rw [outcome_bind, hwrite]
  rfl

/-- A new document is put where nothing stands, or if it is forced. -/
theorem create_succeeds {force : Bool} (hready : s.Ready path)
    (hfree : force = true ∨ s.memory.isPresent path = false) (g : G) :
    ∃ s', outcome (create S path force) g s = ((.ok (), g), s') := by
  obtain ⟨s', hwrite⟩ := writeDocument_succeeds hready (.empty : Document S) g
  refine ⟨s', ?_⟩
  unfold create
  rw [outcome_bind, outcome_requireFree hfree]
  exact hwrite

/-- What stands in a file is reported on, if it is JSON at all. -/
theorem outcome_validate {text : String} {v : Json S} (hfaults : s.faults = [])
    (htext : s.memory.text? path = some text) (hv : Json.read? text = some v) (strict : Bool)
    (g : G) :
    outcome (validate S path strict) g s =
      ((.ok (if strict then (Audit.document v).strict else Audit.document v), g), s) := by
  unfold validate
  rw [outcome_bind, outcome_readText hfaults htext]
  show outcome (require (.malformed path) (Json.read? text) >>= _) g s = _
  rw [hv]
  rfl

variable [IdSource G] {now : Int64} {g g' : G}

theorem add_succeeds {data : String} {draft : Draft S} {old : Document S} {e : Element S}
    (hready : s.Ready path) (hdraft : Draft.read? data = some draft)
    (hold : s.memory.document? S path = some old)
    (hcreate : (draft.create now).run.run g = (.ok e, g')) :
    ∃ s', outcome (add S now path data) g s = ((.ok e.id, g'), s') := by
  unfold add
  rw [hdraft]
  exact change_succeeds (fun _ => draft.create now) Document.push Element.id hready hold hcreate

theorem update_succeeds {id data : String} {u : Revision S} {old d : Document S} {e : Element S}
    (hready : s.Ready path) (hu : Revision.read? data = some u)
    (hold : s.memory.document? S path = some old)
    (hrevise : (old.revise now id u).run.run g = (.ok (e, d), g')) :
    ∃ s', outcome (update S now path id data) g s = ((.ok e, g'), s') := by
  unfold update
  rw [hu]
  exact change_succeeds (fun d => d.revise now id u) (fun _ r => r.2) Prod.fst hready hold hrevise

theorem connect_succeeds {source target id : String} {look : ConnectorLook} {old d : Document S}
    (hready : s.Ready path) (hold : s.memory.document? S path = some old)
    (hconnect : (old.connect now source target look).run.run g = (.ok (id, d), g')) :
    ∃ s', outcome (connect S now path source target look) g s = ((.ok id, g'), s') := by
  unfold connect
  exact change_succeeds (fun d => d.connect now source target look) (fun _ r => r.2) Prod.fst
    hready hold hconnect

theorem compile_succeeds {input source : String} {options : Chain.Options} {force : Bool}
    {d : Document S} (hready : s.Ready path) (hinput : input ≠ standardInputPath)
    (hsource : s.memory.text? input = some source)
    (hfree : force = true ∨ s.memory.isPresent path = false)
    (hcompile : (Chain.compile now options source).run.run g = (.ok d, g')) :
    ∃ s', outcome (compile S now input path options force) g s = ((.ok d.counts, g'), s') := by
  obtain ⟨s', hwrite⟩ := writeDocument_succeeds hready d g'
  have hdraw : outcome (onIdentities .chain (Chain.compile now options source)) g s =
      ((.ok d, g'), s) := by
    show ((((Chain.compile now options source).run.run g).1.mapError Error.chain,
      ((Chain.compile now options source).run.run g).2), s) = _
    rw [hcompile]
    rfl
  refine ⟨s', ?_⟩
  unfold compile
  rw [outcome_bind, readSource, if_neg hinput, outcome_readText hready.faults hsource]
  show outcome (requireFree path force >>= _) g s = _
  rw [outcome_bind, outcome_requireFree hfree]
  show outcome (onIdentities .chain _ >>= _) g s = _
  rw [outcome_bind, hdraw]
  show outcome (writeDocument path d >>= _) g' s = _
  rw [outcome_bind, hwrite]
  rfl

/-- **Operations succeed where their parts do.** In ready files a document is made if nothing
stands in the way, drawn if the source in a file can be compiled, changed if there is one and
the change is possible, and reported on if there is JSON. No other reason to fail is left. -/
theorem operations_succeed (now : Int64) {path : String} {s : Unreliable} (hready : s.Ready path)
    (g : G) :
    (∀ force, (force = true ∨ s.memory.isPresent path = false) →
      ∃ s', outcome (create S path force) g s = ((.ok (), g), s')) ∧
    (∀ input options force source g' (d : Document S), input ≠ standardInputPath →
      s.memory.text? input = some source → (force = true ∨ s.memory.isPresent path = false) →
      (Chain.compile now options source).run.run g = (.ok d, g') →
      ∃ s', outcome (compile S now input path options force) g s = ((.ok d.counts, g'), s')) ∧
    (∀ old : Document S, s.memory.document? S path = some old →
      (∀ data (draft : Draft S) e g', Draft.read? data = some draft →
        (draft.create now).run.run g = (.ok e, g') →
        ∃ s', outcome (add S now path data) g s = ((.ok e.id, g'), s')) ∧
      (∀ id data (u : Revision S) e d g', Revision.read? data = some u →
        (old.revise now id u).run.run g = (.ok (e, d), g') →
        ∃ s', outcome (update S now path id data) g s = ((.ok e, g'), s')) ∧
      ∀ source target look id d g', (old.connect now source target look).run.run g =
          (.ok (id, d), g') →
        ∃ s', outcome (connect S now path source target look) g s = ((.ok id, g'), s')) ∧
    ∀ text (v : Json S) strict, s.memory.text? path = some text → Json.read? text = some v →
      outcome (validate S path strict) g s =
        ((.ok (if strict then (Audit.document v).strict else Audit.document v), g), s) :=
  ⟨fun _ hfree => create_succeeds hready hfree g,
    fun _ _ _ _ _ _ hinput hsource hfree hcompile =>
      compile_succeeds hready hinput hsource hfree hcompile,
    fun _ hold => ⟨fun _ _ _ _ hdraft hcreate => add_succeeds hready hdraft hold hcreate,
      fun _ _ _ _ _ _ hu hrevise => update_succeeds hready hu hold hrevise,
      fun _ _ _ _ _ _ hconnect => connect_succeeds hready hold hconnect⟩,
    fun _ _ strict htext hv => outcome_validate hready.faults htext hv strict g⟩

end Whiteboard.Workspace
