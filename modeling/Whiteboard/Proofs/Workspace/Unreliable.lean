import Whiteboard.Proofs.Workspace.Memory

/-!
# Whiteboard — files that may fail

A disk may be full, or a file unreadable: `Unreliable` is a memory whose calls fail whenever a
schedule says so, and then change nothing. What is shown for every schedule holds whichever
of its calls fail.

`Quiet` work only looks at files. Work that `Commits` changes a file as a whole or not at all.

Main results:

* `Quiet.bind`, `Quiet.commits` — work that looks at files may go before other work.
* `readText_quiet`, `readDocument_quiet` — what reading a file tells.
* `writeDocument_cases`, `writeDocument_commits` — a document is put into a file as a whole or
  not at all.
-/

namespace Whiteboard.Workspace

open Drawing (Document)

/-- A memory, and which of the next calls fail. -/
structure Unreliable where
  memory : Memory
  /-- One entry a call; after the last no call fails by itself. -/
  faults : List Bool

namespace Unreliable

/-- What the next call comes to, unless it fails by itself. -/
def unlessFault {α : Type} (s : Unreliable) (outcome : Option α) : Option α :=
  if s.faults.headD false then none else outcome

/-- A call that tells something. -/
def ask {α : Type} (answer : Memory → Option α) : StateM Unreliable (Option α) := fun s =>
  (s.unlessFault (answer s.memory), ⟨s.memory, s.faults.tail⟩)

/-- A call that changes something. -/
def attempt (change : Memory → Option Memory) : StateM Unreliable Bool := fun s =>
  match s.unlessFault (change s.memory) with
  | some changed => (true, ⟨changed, s.faults.tail⟩)
  | none => (false, ⟨s.memory, s.faults.tail⟩)

/-- Whether something stands at a path is told without fail. -/
instance : FileAccess (StateM Unreliable) where
  read path := ask fun m => m.read? path
  isPresent path := return (← get).memory.isPresent path
  write path content := attempt fun m => m.write? path content
  rename path target := attempt fun m => m.rename? path target
  nearest name := ask fun m => m.nearest? name
  standardInput := ask fun m => some m.input

variable {α : Type}

theorem eq_of_unlessFault {s : Unreliable} {outcome : Option α} {a : α}
    (h : s.unlessFault outcome = some a) : outcome = some a := by
  unfold unlessFault at h
  split at h
  · cases h
  · exact h

/-- A call that asks changes nothing, and its answer is the right one. -/
theorem run_ask (answer : Memory → Option α) (s : Unreliable) :
    ∃ a? s', (ask answer).run s = (a?, s') ∧ s'.memory = s.memory ∧
      ∀ a, a? = some a → answer s.memory = some a :=
  ⟨_, _, rfl, rfl, fun _ => eq_of_unlessFault⟩

/-- A call that changes something fails and changes nothing, or succeeds as a whole. -/
theorem run_attempt (change : Memory → Option Memory) (s : Unreliable) :
    ∃ b s', (attempt change).run s = (b, s') ∧
      (b = false ∧ s'.memory = s.memory ∨ b = true ∧ change s.memory = some s'.memory) := by
  cases h : s.unlessFault (change s.memory) with
  | none =>
    refine ⟨false, ⟨s.memory, s.faults.tail⟩, ?_, Or.inl ⟨rfl, rfl⟩⟩
    simp only [StateT.run, attempt, h]
  | some changed =>
    refine ⟨true, ⟨changed, s.faults.tail⟩, ?_, Or.inr ⟨rfl, eq_of_unlessFault h⟩⟩
    simp only [StateT.run, attempt, h]

end Unreliable

/-! ## The outcome of work -/

variable {G : Type} {α β : Type}

/-- What work comes to from a state of the identities and a state of the files. -/
def outcome (act : Work (StateM Unreliable) G α) (g : G) (s : Unreliable) :
    (Except Error α × G) × Unreliable :=
  (act.run.run g).run s

/-- Work after work that fails fails, and work after work that succeeds goes on from there. -/
theorem outcome_bind (act : Work (StateM Unreliable) G α)
    (next : α → Work (StateM Unreliable) G β) (g : G) (s : Unreliable) :
    outcome (act >>= next) g s =
      match outcome act g s with
      | ((.ok a, g'), s') => outcome (next a) g' s'
      | ((.error e, g'), s') => ((.error e, g'), s') := by
  unfold outcome
  rw [ExceptT.run_bind, StateT.run_bind, StateT.run_bind]
  -- on what the first part comes to
  rcases (act.run.run g).run s with ⟨⟨⟨e⟩ | ⟨a⟩, g'⟩, s'⟩
  · rfl
  · rfl

/-- The work changes no file, whatever fails; what it yields is as it should be. -/
def Quiet (act : Work (StateM Unreliable) G α) (g : G) (s : Unreliable) (meets : α → G → Prop) :
    Prop :=
  ∃ r g' s', outcome act g s = ((r, g'), s') ∧ s'.memory = s.memory ∧ ∀ a, r = .ok a → meets a g'

/-- The work puts a document into the file at a path, as a whole, and that document is as it
should be; or it fails, and nothing is to be seen of it at the path. -/
def Commits {S : Type} [Scalar S] [Numeral S] (path : String)
    (act : Work (StateM Unreliable) G α) (g : G) (s : Unreliable)
    (meets : α → Document S → G → Prop) : Prop :=
  ∃ r g' s', outcome act g s = ((r, g'), s') ∧
    match r with
    | .ok a => ∃ d, meets a d g' ∧ s'.memory.read? path = some (documentText d).toUTF8
    | .error _ => s'.memory.look path = s.memory.look path

variable {act : Work (StateM Unreliable) G α} {next : α → Work (StateM Unreliable) G β} {g : G}
  {s : Unreliable}

theorem Quiet.pure {a : α} {meets : α → G → Prop} (h : meets a g) :
    Quiet (Pure.pure a) g s meets :=
  ⟨.ok a, g, s, rfl, rfl, fun _ heq => Except.ok.inj heq ▸ h⟩

theorem Quiet.mono {meets meets' : α → G → Prop} (h : Quiet act g s meets)
    (hmeets : ∀ a g', meets a g' → meets' a g') : Quiet act g s meets' := by
  obtain ⟨r, g', s', hact, hmemory, hr⟩ := h
  exact ⟨r, g', s', hact, hmemory, fun a ha => hmeets a g' (hr a ha)⟩

/-- Work that looks at files may go before work that does. -/
theorem Quiet.bind {meets : α → G → Prop} {meets' : β → G → Prop} (h : Quiet act g s meets)
    (hnext : ∀ a g' s', s'.memory = s.memory → meets a g' → Quiet (next a) g' s' meets') :
    Quiet (act >>= next) g s meets' := by
  obtain ⟨r, g', s', hact, hmemory, hmeets⟩ := h
  cases r with
  | error e =>
    refine ⟨.error e, g', s', ?_, hmemory, fun _ heq => by cases heq⟩
    rw [outcome_bind, hact]
  | ok a =>
    obtain ⟨r', g'', s'', hrun, hmemory', hmeets'⟩ := hnext a g' s' hmemory (hmeets a rfl)
    refine ⟨r', g'', s'', ?_, hmemory'.trans hmemory, hmeets'⟩
    rw [outcome_bind, hact]
    exact hrun

section

variable {S : Type} [Scalar S] [Numeral S] {path : String}

/-- It may go before work that changes a file. -/
theorem Quiet.commits {meets : α → G → Prop} {meets' : β → Document S → G → Prop}
    (h : Quiet act g s meets)
    (hnext : ∀ a g' s', s'.memory = s.memory → meets a g' → Commits path (next a) g' s' meets') :
    Commits path (act >>= next) g s meets' := by
  obtain ⟨r, g', s', hact, hmemory, hmeets⟩ := h
  cases r with
  | error e =>
    -- it failed while looking, so the change was not begun
    refine ⟨.error e, g', s', ?_, by rw [hmemory]⟩
    rw [outcome_bind, hact]
  | ok a =>
    obtain ⟨r', g'', s'', hrun, hcommits⟩ := hnext a g' s' hmemory (hmeets a rfl)
    refine ⟨r', g'', s'', ?_, ?_⟩
    · rw [outcome_bind, hact]
      exact hrun
    · rw [← hmemory]
      exact hcommits

/-- What the file holds after work that has succeeded. -/
theorem Commits.of_ok {meets : α → Document S → G → Prop} (h : Commits path act g s meets) {a : α}
    {g' : G} {s' : Unreliable} (hact : outcome act g s = ((.ok a, g'), s')) :
    ∃ d, meets a d g' ∧ s'.memory.read? path = some (documentText d).toUTF8 := by
  obtain ⟨r, g'', s'', hact', hcommits⟩ := h
  rw [hact] at hact'
  cases hact'
  exact hcommits

/-- After a change nothing more can go wrong. -/
theorem Commits.pure {meets : α → Document S → G → Prop} {meets' : β → Document S → G → Prop}
    {value : α → β} (h : Commits path act g s meets)
    (hmeets : ∀ a d g', meets a d g' → meets' (value a) d g') :
    Commits path (act >>= fun a => Pure.pure (value a)) g s meets' := by
  obtain ⟨r, g', s', hact, hcommits⟩ := h
  cases r with
  | error e =>
    refine ⟨.error e, g', s', ?_, hcommits⟩
    rw [outcome_bind, hact]
  | ok a =>
    obtain ⟨d, hd, hread⟩ := hcommits
    refine ⟨.ok (value a), g', s', ?_, d, hmeets a d g' hd, hread⟩
    rw [outcome_bind, hact]
    rfl

end

/-! ## Parts of the operations -/

theorem require_quiet {a? : Option α} (e : Error) (g : G) (s : Unreliable) :
    Quiet (require e a?) g s fun a g' => a? = some a ∧ g' = g := by
  cases a? with
  | none => exact ⟨.error e, g, s, rfl, rfl, fun _ heq => by cases heq⟩
  | some a => exact .pure ⟨rfl, rfl⟩

/-- Drawing identities leaves the files alone. -/
theorem onIdentities_quiet {ε : Type} (cause : ε → Error) (act : ExceptT ε (StateM G) α) (g : G)
    (s : Unreliable) :
    Quiet (onIdentities cause act) g s fun a g' => act.run.run g = (.ok a, g') := by
  refine ⟨_, _, s, rfl, rfl, fun a ha => ?_⟩
  rcases h : act.run.run g with ⟨⟨e⟩ | ⟨b⟩, g'⟩
  · rw [h] at ha
    cases ha
  · rw [h] at ha
    cases ha
    rfl

theorem outcome_onFiles {call : StateM Unreliable α} {a : α} {s s' : Unreliable}
    (h : call.run s = (a, s')) (g : G) : outcome (onFiles call) g s = ((.ok a, g), s') := by
  have hrun : outcome (onFiles call) g s = ((.ok (call.run s).1, g), (call.run s).2) := rfl
  rw [hrun, h]

/-- A call that asks is answered right, if at all. -/
theorem onFiles_ask_quiet (answer : Memory → Option α) (g : G) (s : Unreliable) :
    Quiet (onFiles (Unreliable.ask answer)) g s fun a? g' =>
      (∀ a, a? = some a → answer s.memory = some a) ∧ g' = g := by
  obtain ⟨a?, s', hrun, hmemory, hanswer⟩ := Unreliable.run_ask answer s
  refine ⟨.ok a?, g, s', outcome_onFiles hrun g, hmemory, fun _ heq => ?_⟩
  obtain rfl := Except.ok.inj heq
  exact ⟨hanswer, rfl⟩

/-- The text in the file at a path. -/
def Memory.text? (m : Memory) (path : String) : Option String :=
  (m.read? path).bind String.fromUTF8?

/-- The text at a path or in standard input. -/
def Memory.source? (m : Memory) (path : String) : Option String :=
  if path = standardInputPath then String.fromUTF8? m.input else m.text? path

/-- The document in the file at a path. -/
def Memory.document? (S : Type) [Scalar S] [Numeral S] (m : Memory) (path : String) :
    Option (Document S) :=
  (m.text? path).bind Document.read?

theorem readText_quiet (path : String) (g : G) (s : Unreliable) :
    Quiet (readText path) g s fun text g' => s.memory.text? path = some text ∧ g' = g := by
  refine (onFiles_ask_quiet (fun m => m.read? path) g s).bind fun content g' s' hmemory h => ?_
  obtain ⟨hcontent, rfl⟩ := h
  refine (require_quiet (.inaccessible path) g' s').mono fun text g'' h => ?_
  obtain ⟨htext, rfl⟩ := h
  obtain ⟨bytes, hbytes, hdecoded⟩ := Option.bind_eq_some_iff.mp htext
  refine ⟨?_, rfl⟩
  rw [Memory.text?, hcontent bytes hbytes]
  exact hdecoded

theorem readSource_quiet (path : String) (g : G) (s : Unreliable) :
    Quiet (readSource path) g s fun text g' => s.memory.source? path = some text ∧ g' = g := by
  unfold readSource Memory.source?
  by_cases hpath : path = standardInputPath
  · simp only [if_pos hpath]
    refine (onFiles_ask_quiet (fun m => some m.input) g s).bind fun content g' s' hmemory h => ?_
    obtain ⟨hcontent, rfl⟩ := h
    refine (require_quiet (.inaccessible path) g' s').mono fun text g'' h => ?_
    obtain ⟨htext, rfl⟩ := h
    obtain ⟨bytes, hbytes, hdecoded⟩ := Option.bind_eq_some_iff.mp htext
    rw [Option.some.inj (hcontent bytes hbytes)]
    exact ⟨hdecoded, rfl⟩
  · simp only [if_neg hpath]
    exact readText_quiet path g s

/-- Where something stands, nothing goes on unless it is forced. -/
theorem requireFree_quiet (path : String) (force : Bool) (g : G) (s : Unreliable) :
    Quiet (requireFree path force) g s fun _ g' =>
      (force = true ∨ s.memory.isPresent path = false) ∧ g' = g := by
  unfold requireFree
  cases force with
  | true => exact .pure ⟨Or.inl rfl, rfl⟩
  | false =>
    have hrun : outcome (onFiles (FileAccess.isPresent path)) g s =
        ((.ok (s.memory.isPresent path), g), s) := outcome_onFiles rfl g
    rw [if_pos (show (!false) = true from rfl)]
    cases hpresent : s.memory.isPresent path with
    | true =>
      -- something stands there
      refine ⟨.error (.outputExists path), g, s, ?_, rfl, fun _ heq => by cases heq⟩
      rw [outcome_bind, hrun, hpresent]
      rfl
    | false =>
      refine ⟨.ok (), g, s, ?_, rfl, fun _ _ => ⟨Or.inr rfl, rfl⟩⟩
      rw [outcome_bind, hrun, hpresent]
      rfl

section

variable {S : Type} [Scalar S] [Numeral S]

theorem readDocument_quiet (path : String) (g : G) (s : Unreliable) :
    Quiet (readDocument S path) g s fun d g' => s.memory.document? S path = some d ∧ g' = g := by
  refine (readText_quiet path g s).bind fun text g' s' hmemory h => ?_
  obtain ⟨htext, rfl⟩ := h
  refine (require_quiet (.malformed path) g' s').mono fun d g'' h => ?_
  obtain ⟨hd, rfl⟩ := h
  exact ⟨by rw [Memory.document?, htext, Option.bind_some, hd], rfl⟩

/-- Writing a document is two calls, and the second is made if the first has succeeded. -/
theorem writeDocument_cases (path : String) (d : Document S) (g : G) (s : Unreliable) :
    ∃ r s', outcome (writeDocument path d) g s = ((r, g), s') ∧
      (r = .error (.inaccessible (temporaryPath path)) ∧ s'.memory = s.memory ∨
        ∃ m, s.memory.write? (temporaryPath path) (documentText d).toUTF8 = some m ∧
          (r = .error (.inaccessible path) ∧ s'.memory = m ∨
            r = .ok () ∧ m.rename? (temporaryPath path) path = some s'.memory)) := by
  let text := (documentText d).toUTF8
  obtain ⟨b, s₁, hwrite, hwritten⟩ :=
    Unreliable.run_attempt (fun m => m.write? (temporaryPath path) text) s
  obtain ⟨b', s₂, hrename, hrenamed⟩ :=
    Unreliable.run_attempt (fun m => m.rename? (temporaryPath path) path) s₁
  have hwriteRun : outcome (onFiles (FileAccess.write (temporaryPath path) text)) g s =
      ((.ok b, g), s₁) := outcome_onFiles hwrite g
  have hrenameRun : outcome (onFiles (FileAccess.rename (temporaryPath path) path)) g s₁ =
      ((.ok b', g), s₂) := outcome_onFiles hrename g
  unfold writeDocument
  rcases hwritten with ⟨rfl, hkept⟩ | ⟨rfl, hput⟩
  · -- the temporary file could not be written
    refine ⟨.error (.inaccessible (temporaryPath path)), s₁, ?_, Or.inl ⟨rfl, hkept⟩⟩
    rw [outcome_bind, hwriteRun]
    rfl
  · rcases hrenamed with ⟨rfl, hkept⟩ | ⟨rfl, hmoved⟩
    · -- it was written but could not be moved, and stays behind
      refine ⟨.error (.inaccessible path), s₂, ?_, Or.inr ⟨s₁.memory, hput, Or.inl ⟨rfl, hkept⟩⟩⟩
      rw [outcome_bind, hwriteRun]
      show outcome (onFiles (FileAccess.rename (temporaryPath path) path) >>= _) g s₁ = _
      rw [outcome_bind, hrenameRun]
      rfl
    · -- it has taken the place of the file
      refine ⟨.ok (), s₂, ?_, Or.inr ⟨s₁.memory, hput, Or.inr ⟨rfl, hmoved⟩⟩⟩
      rw [outcome_bind, hwriteRun]
      show outcome (onFiles (FileAccess.rename (temporaryPath path) path) >>= _) g s₁ = _
      rw [outcome_bind, hrenameRun]
      rfl

/-- **Writing a document.** The file holds all of the text then, or nothing is to be seen of
it there. -/
theorem writeDocument_commits (path : String) (d : Document S) (g : G) (s : Unreliable) :
    Commits path (writeDocument path d) g s fun _ d' g' => d' = d ∧ g' = g := by
  obtain ⟨r, s', hrun, ⟨rfl, hkept⟩ | ⟨m, hwrite, ⟨rfl, rfl⟩ | ⟨rfl, hmoved⟩⟩⟩ :=
    writeDocument_cases path d g s
  · exact ⟨_, g, s', hrun, by rw [hkept]⟩
  · exact ⟨_, g, s', hrun, Memory.look_of_write? hwrite⟩
  · refine ⟨_, g, s', hrun, d, ⟨rfl, rfl⟩, ?_⟩
    rw [Memory.read?_of_rename? hmoved, Memory.read?_of_write? hwrite]

end

end Whiteboard.Workspace
