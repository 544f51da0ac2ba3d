import Whiteboard.Proofs.Workspace.Calls

/-!
# Whiteboard — files that an operation leaves alone

An operation on the document in a file writes it under a name beside its own and moves it to
its place. So two locations may change, that of the file and that of the temporary file, and
no other: not even where calls fail on the way, and whatever other paths lead to. After an
operation that succeeded nothing stands at the temporary path any more — also if something
did before. An operation that fails changes nothing, unless the file itself could not be
replaced, when the temporary file had been written already.

The paths of the file and of the temporary file may lead anywhere, or nowhere: `a/` leads to
no file, but `a/.tmp` may. And a user's own file may have the name of a temporary one.

Main results:

* `Memory.Spares` — memories that differ at some locations at most, and what that means for
  all paths.
* `writeDocument_touches` — what writing a document changes.
* `operations_touch` — what all operations leave alone.
-/

namespace Whiteboard.Workspace

open Drawing (ConnectorLook Document IdSource SequentialIds)

/-! ## Memories that differ at some locations -/

namespace Memory

/-- Two memories that differ at some locations at most, and only by files. -/
structure Spares (touched : Location → Prop) (m m' : Memory) : Prop where
  entry?_eq : ∀ l, ¬ touched l → m'.entry? l = m.entry? l
  sameDirectories : SameDirectories m m'
  input_eq : m'.input = m.input

namespace Spares

variable {touched touched' : Location → Prop} {m m' m'' : Memory}

theorem refl (touched : Location → Prop) (m : Memory) : Spares touched m m :=
  ⟨fun _ _ => rfl, ⟨rfl, fun _ => rfl⟩, rfl⟩

theorem trans (h : Spares touched m m') (h' : Spares touched m' m'') : Spares touched m m'' :=
  ⟨fun l hl => (h'.entry?_eq l hl).trans (h.entry?_eq l hl),
    h.sameDirectories.trans h'.sameDirectories, h'.input_eq.trans h.input_eq⟩

theorem mono (h : Spares touched m m') (hsub : ∀ l, touched l → touched' l) :
    Spares touched' m m' :=
  ⟨fun l hl => h.entry?_eq l (mt (hsub l) hl), h.sameDirectories, h.input_eq⟩

/-- A path that leads to none of the locations shows what it showed before. -/
theorem look_eq (h : Spares touched m m') {path : String}
    (hpath : ∀ l, m.place? path = some l → ¬ touched l) : m'.look path = m.look path := by
  refine Memory.look_eq h.sameDirectories fun l hl => ?_
  rw [file?, h.entry?_eq l (hpath l hl), file?]

theorem source?_eq (h : Spares touched m m') {path : String}
    (hpath : ∀ l, m.place? path = some l → ¬ touched l) : m'.source? path = m.source? path := by
  have hread : m'.read? path = m.read? path := congrArg Prod.snd (h.look_eq hpath)
  unfold source? text?
  rw [h.input_eq, hread]

end Spares

/-- Writing a file changes no other location. -/
theorem spares_of_write? {m m' : Memory} {path : String} {content : ByteArray}
    (h : m.write? path content = some m') : Spares (m.place? path = some ·) m m' := by
  refine ⟨fun l hl => ?_, sameDirectories_of_write? h, ?_⟩
  · obtain ⟨l', hl', rfl⟩ := Option.map_eq_some_iff.mp h
    rw [entry?_put, if_neg]
    rintro rfl
    exact hl hl'
  · obtain ⟨l', -, rfl⟩ := Option.map_eq_some_iff.mp h
    rfl

/-- Moving a file changes the locations that it leaves and takes, and no other. -/
theorem spares_of_rename? {m m' : Memory} {path target : String}
    (h : m.rename? path target = some m') :
    Spares (fun l => m.place? target = some l ∨ m.place? path = some l) m m' := by
  obtain ⟨old, content, new, hold, -, hnew, rfl⟩ := rename?_eq_some h
  refine ⟨fun l hl => ?_,
    sameDirectories_move (isDirectory_of_place? hold) (isDirectory_of_place? hnew) content, rfl⟩
  have hlnew : l ≠ new := fun heq => hl (Or.inl (heq ▸ hnew))
  have hlold : l ≠ old := fun heq => hl (Or.inr (heq ▸ hold))
  rw [entry?_put, if_neg hlnew, entry?_erase, if_neg hlold]

/-- A temporary file that was moved into place is gone. -/
theorem isPresent_of_rename? {m m' : Memory} {path : String}
    (h : m.rename? (temporaryPath path) path = some m') :
    m'.isPresent (temporaryPath path) = false := by
  have hsame := (spares_of_rename? h).sameDirectories
  obtain ⟨old, content, new, hold, -, hnew, rfl⟩ := rename?_eq_some h
  rw [isPresent_of_place? ((hsame.place?_eq _).trans hold), file?_put,
    if_neg (ne_of_place?_temporaryPath hnew hold).symm, file?, entry?_erase, if_pos rfl]
  rfl

/-- A path that leads neither to the file at another nor to the temporary file beside it. -/
def Apart (m : Memory) (path p : String) : Prop :=
  ∀ l, m.place? p = some l → m.place? path ≠ some l ∧ m.place? (temporaryPath path) ≠ some l

end Memory

/-! ## What an operation leaves alone -/

variable {G α β : Type}

/-- What an operation on the file at a path may change. -/
structure Memory.Touched (path : String) (r : Except Error α) (m m' : Memory) : Prop where
  /-- Nothing at other locations, directories and standard input included. -/
  spares : Spares (fun l => m.place? path = some l ∨ m.place? (temporaryPath path) = some l) m m'
  /-- Nothing that can be seen at other paths. -/
  look_eq : ∀ p, m.Apart path p → m'.look p = m.look p
  /-- Nothing of what was read from elsewhere. -/
  source?_eq : ∀ p, m.Apart path p → m'.source? p = m.source? p
  /-- After a success there is no temporary file. -/
  ok : ∀ a, r = .ok a → m'.isPresent (temporaryPath path) = false
  /-- A failure changes nothing, unless the file could not be replaced at last. -/
  error : ∀ e, r = .error e → m' = m ∨
    e = .inaccessible path ∧ Spares (m.place? (temporaryPath path) = some ·) m m'

/-- The work touches the file at a path and nothing else, whatever fails. -/
def Touches (path : String) (act : Work (StateM Unreliable) G α) (g : G) (s : Unreliable) : Prop :=
  ∃ r g' s', outcome act g s = ((r, g'), s') ∧ Memory.Touched path r s.memory s'.memory

theorem Memory.Touched.of_spares {path : String} {r : Except Error α} {m m' : Memory}
    (h : Spares (fun l => m.place? path = some l ∨ m.place? (temporaryPath path) = some l) m m')
    (hok : ∀ a, r = .ok a → m'.isPresent (temporaryPath path) = false)
    (herror : ∀ e, r = .error e → m' = m ∨
      e = .inaccessible path ∧ Spares (m.place? (temporaryPath path) = some ·) m m') :
    Touched path r m m' :=
  have hapart : ∀ p, m.Apart path p → ∀ l, m.place? p = some l →
      ¬ (m.place? path = some l ∨ m.place? (temporaryPath path) = some l) :=
    fun _ hp l hl => not_or.mpr (hp l hl)
  ⟨h, fun p hp => h.look_eq (hapart p hp), fun p hp => h.source?_eq (hapart p hp), hok, herror⟩

/-- Work that failed before it changed anything. -/
theorem Memory.Touched.of_eq {path : String} {e : Error} {m m' : Memory} (h : m' = m) :
    Touched path (.error e : Except Error α) m m' := by
  refine .of_spares ?_ (fun _ heq => by cases heq) fun _ _ => Or.inl h
  rw [h]
  exact .refl _ m

variable {act : Work (StateM Unreliable) G α} {next : α → Work (StateM Unreliable) G β} {g : G}
  {s : Unreliable} {path : String}

/-- Work that only looks at files may go before. -/
theorem Quiet.touches {meets : α → G → Prop} (h : Quiet act g s meets)
    (hnext : ∀ a g' s', Touches path (next a) g' s') : Touches path (act >>= next) g s := by
  obtain ⟨r, g', s', hact, hmemory, -⟩ := h
  cases r with
  | error e =>
    refine ⟨.error e, g', s', ?_, .of_eq hmemory⟩
    rw [outcome_bind, hact]
  | ok a =>
    obtain ⟨r', g'', s'', hrun, htouched⟩ := hnext a g' s'
    refine ⟨r', g'', s'', ?_, hmemory ▸ htouched⟩
    rw [outcome_bind, hact]
    exact hrun

/-- And what it yields does not matter. -/
theorem Touches.pure {value : α → β} (h : Touches path act g s) :
    Touches path (act >>= fun a => Pure.pure (value a)) g s := by
  obtain ⟨r, g', s', hact, htouched⟩ := h
  cases r with
  | error e =>
    -- the same error, at another type
    refine ⟨.error e, g', s', ?_, .of_spares htouched.spares (fun _ heq => by cases heq) ?_⟩
    · rw [outcome_bind, hact]
    · rintro _ ⟨⟩
      exact htouched.error e rfl
  | ok a =>
    refine ⟨.ok (value a), g', s', ?_, .of_spares htouched.spares ?_ fun _ heq => by cases heq⟩
    · rw [outcome_bind, hact]
      rfl
    · exact fun _ _ => htouched.ok a rfl

/-! ## Operations -/

section

variable {S : Type} [Scalar S] [Numeral S]

/-- **Writing a document.** It is written beside the file and then moved into its place; no
other location changes, whichever of the two calls fails. -/
theorem writeDocument_touches (path : String) (d : Document S) (g : G) (s : Unreliable) :
    Touches path (writeDocument path d) g s := by
  obtain ⟨r, s', hrun, ⟨rfl, hkept⟩ | ⟨m, hwrite, hmoved⟩⟩ := writeDocument_cases path d g s
  · -- nothing was written
    exact ⟨_, g, s', hrun, .of_eq hkept⟩
  have hspares := Memory.spares_of_write? hwrite
  rcases hmoved with ⟨rfl, rfl⟩ | ⟨rfl, hmoved⟩
  · -- only the temporary file was written
    refine ⟨_, g, s', hrun, .of_spares (hspares.mono fun _ => Or.inr) ?_ ?_⟩
    · exact fun _ heq => by cases heq
    · rintro _ ⟨⟩
      exact Or.inr ⟨rfl, hspares⟩
  · -- it was moved then, and paths lead where they did before it was written
    have hspares' := Memory.spares_of_rename? hmoved
    simp only [hspares.sameDirectories.place?_eq] at hspares'
    refine ⟨_, g, s', hrun, .of_spares ((hspares.mono fun _ => Or.inr).trans hspares') ?_ ?_⟩
    · exact fun _ _ => Memory.isPresent_of_rename? hmoved
    · exact fun _ heq => by cases heq

theorem create_touches (path : String) (force : Bool) (g : G) (s : Unreliable) :
    Touches path (create S path force) g s :=
  (requireFree_quiet path force g s).touches fun _ g' s' => writeDocument_touches path _ g' s'

variable [IdSource G]

theorem compile_touches (now : Int64) (input path : String) (options : Chain.Options)
    (force : Bool) (g : G) (s : Unreliable) :
    Touches path (compile S now input path options force) g s := by
  unfold compile
  -- until the document is there, files are only looked at
  refine (readSource_quiet input g s).touches fun source g₁ s₁ => ?_
  refine (requireFree_quiet path force g₁ s₁).touches fun _ g₂ s₂ => ?_
  refine (onIdentities_quiet .chain _ g₂ s₂).touches fun d g₃ s₃ => ?_
  exact (writeDocument_touches path d g₃ s₃).pure

theorem add_touches (now : Int64) (path data : String) (g : G) (s : Unreliable) :
    Touches path (add S now path data) g s := by
  unfold add
  refine (require_quiet .invalidData g s).touches fun draft g₁ s₁ => ?_
  refine (readDocument_quiet path g₁ s₁).touches fun d g₂ s₂ => ?_
  refine (onIdentities_quiet .drawing _ g₂ s₂).touches fun e g₃ s₃ => ?_
  exact (writeDocument_touches path (d.push e) g₃ s₃).pure

theorem update_touches (now : Int64) (path id data : String) (g : G) (s : Unreliable) :
    Touches path (update S now path id data) g s := by
  unfold update
  refine (require_quiet .invalidData g s).touches fun u g₁ s₁ => ?_
  refine (readDocument_quiet path g₁ s₁).touches fun d g₂ s₂ => ?_
  refine (onIdentities_quiet .drawing _ g₂ s₂).touches fun r g₃ s₃ => ?_
  exact (writeDocument_touches path r.2 g₃ s₃).pure

theorem connect_touches (now : Int64) (path source target : String) (look : ConnectorLook) (g : G)
    (s : Unreliable) : Touches path (connect S now path source target look) g s := by
  unfold connect
  refine (readDocument_quiet path g s).touches fun d g₁ s₁ => ?_
  refine (onIdentities_quiet .drawing _ g₁ s₁).touches fun r g₂ s₂ => ?_
  exact (writeDocument_touches path r.2 g₂ s₂).pure

/-- **What operations leave alone.** Whichever calls on files fail: an operation on the file
at a path changes what stands there and at the temporary path, and nothing else, neither
elsewhere nor in the directories nor in what it has read. If it succeeds, nothing stands at
the temporary path; if it fails, nothing at all has changed, unless the file could not be
replaced at last. An audit changes nothing. -/
theorem operations_touch (now : Int64) (path : String) (g : G) (s : Unreliable) :
    (∀ force, Touches path (create S path force) g s) ∧
    (∀ input options force, Touches path (compile S now input path options force) g s) ∧
    (∀ data, Touches path (add S now path data) g s) ∧
    (∀ id data, Touches path (update S now path id data) g s) ∧
    (∀ source target look, Touches path (connect S now path source target look) g s) ∧
    ∀ strict, ∃ r g' s', outcome (validate S path strict) g s = ((r, g'), s') ∧
      s'.memory = s.memory := by
  refine ⟨fun force => create_touches path force g s,
    fun input options force => compile_touches now input path options force g s,
    fun data => add_touches now path data g s, fun id data => update_touches now path id data g s,
    fun source target look => connect_touches now path source target look g s, fun strict => ?_⟩
  obtain ⟨r, g', s', hrun, hmemory, -⟩ := validate_quiet (S := S) path strict g s
  exact ⟨r, g', s', hrun, hmemory⟩

end

/-! ## A source that is lost -/

/-- Files of which one is a diagram in a place for a temporary file. -/
def temporarySource : Unreliable := ⟨⟨[(["a.tmp"], .file "[x]".toUTF8)], [], .empty⟩, []⟩

theorem place?_temporarySource {name : String} (h : name = "a" ∨ name = "a.tmp") :
    temporarySource.memory.place? name = some [name] := by
  unfold Memory.place?
  rw [ofString?_name h]
  rcases h with rfl | rfl <;> rfl

theorem compile_box : ∃ d g', (Chain.compile (S := Float) 0 {} "[x]").run.run
    (SequentialIds.fresh "el") = (.ok d, g') := by
  have hsize : ((Chain.compile (S := Float) 0 {} "[x]").run.run
      (SequentialIds.fresh "el")).1.toOption.map Document.size = some 2 := by
    decide +kernel
  obtain ⟨d, g', hcompile, -⟩ := Drawing.exists_of_toOption_map hsize
  exact ⟨d, g', hcompile⟩

/-- **Files of other paths can get lost.** A diagram in `a.tmp` is compiled to `a`. This
succeeds, and there is no `a.tmp` any more. -/
theorem not_kept_of_temporarySource : ∃ counts g' s',
    outcome (compile Float 0 "a.tmp" "a" {} false) (SequentialIds.fresh "el") temporarySource =
      ((.ok counts, g'), s') ∧
    temporarySource.memory.isPresent "a.tmp" = true ∧
    s'.memory.isPresent "a.tmp" = false := by
  -- `a` is free, and the source can be read
  have htemporary : temporaryPath "a" = "a.tmp" := by decide
  have hplace := place?_temporarySource (Or.inl rfl)
  have hbeside := place?_temporarySource (Or.inr rfl)
  have hready : temporarySource.Ready "a" :=
    ⟨rfl, by rw [hplace]; rfl, by rw [htemporary, hbeside]; rfl⟩
  have hsource : temporarySource.memory.text? "a.tmp" = some "[x]" := by
    have hread : temporarySource.memory.read? "a.tmp" = some "[x]".toUTF8 := by
      rw [Memory.read?, hbeside]
      rfl
    rw [Memory.text?, hread, Option.bind_some, fromUTF8?_toUTF8]
  have hfree : temporarySource.memory.isPresent "a" = false := by
    rw [Memory.isPresent_of_place? hplace]
    rfl
  obtain ⟨d, g', hcompile⟩ := compile_box
  obtain ⟨s', hrun⟩ := compile_succeeds hready (by decide) hsource (Or.inr hfree) hcompile
  refine ⟨d.counts, g', s', hrun, ?_, ?_⟩
  · rw [Memory.isPresent_of_place? hbeside]
    rfl
  · -- what was there gave way to the document, which was moved then
    obtain ⟨r, g'', s'', hrun', htouched⟩ := compile_touches (S := Float) 0 "a.tmp" "a" {} false
      (SequentialIds.fresh "el") temporarySource
    obtain ⟨hr, rfl⟩ := Prod.mk.inj (hrun'.symm.trans hrun)
    obtain ⟨rfl, -⟩ := Prod.mk.inj hr
    rw [← htemporary]
    exact htouched.ok _ rfl

end Whiteboard.Workspace
