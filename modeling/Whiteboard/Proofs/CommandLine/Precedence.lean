import Whiteboard.CommandLine.Run
import Whiteboard.Proofs.Workspace.Succeeding
import Whiteboard.Proofs.Workspace.Untouched

/-!
# Whiteboard — options and settings

An option of the command line takes precedence over the variable that sets its default. A
drawing for which all three options are given depends on no variable — as long as all of them
make sense: the settings are read as a whole before any command runs, so a variable that makes
no sense ends the program, also where an option stands in its place and even if the command
has no use for it.

Main results:

* `readable_iff` — when the settings of an environment can be read.
* `run_compile` — what a drawing with all options comes to under an environment.
* `options_win_iff` — when two environments lead to the same.
* `not_same_of_spacing` — a variable that has an option in its place can end a command.
-/

namespace Whiteboard

/-! ## Settings that can be read -/

namespace Settings

/-- Every variable is unset or blank, or has a value that makes sense. -/
structure Readable (env : Environment) : Prop where
  direction : ∀ v, value? env directionVariable = some v → ∃ a, Settings.direction v = .ok a
  spacing : ∀ v, value? env spacingVariable = some v → ∃ a, Settings.spacing v = .ok a
  theme : ∀ v, value? env themeVariable = some v → ∃ a, Settings.theme v = .ok a
  strict : ∀ v, value? env strictVariable = some v → ∃ a, Settings.boolean v = .ok a

theorem exists_bind_iff {ε α β : Type} {x : Except ε α} {f : α → Except ε β} :
    (∃ b, (x >>= f) = .ok b) ↔ ∃ a, x = .ok a ∧ ∃ b, f a = .ok b := by
  cases x with
  | error e =>
    constructor
    · rintro ⟨b, hb⟩
      cases hb
    · rintro ⟨a, ha, -⟩
      cases ha
  | ok a =>
    constructor
    · exact fun h => ⟨a, rfl, h⟩
    · rintro ⟨a', ha, h⟩
      cases ha
      exact h

/-- A variable can be read exactly if a value that it has makes sense. -/
theorem exists_readOr_iff {α : Type} {env : Environment} {name : String} {default : α}
    {read : String → Except Problem α} :
    (∃ a, readOr env name default read = .ok a) ↔
      ∀ v, value? env name = some v → ∃ a, read v = .ok a := by
  unfold readOr
  cases value? env name with
  | none => simp
  | some v =>
    simp only [Option.some.injEq, forall_eq']
    cases read v <;> simp [Except.mapError]

/-- **Reading settings.** The settings of an environment can be read exactly if every
variable makes sense. -/
theorem readable_iff {env : Environment} :
    (∃ settings, ofEnvironment env = .ok settings) ↔ Readable env := by
  -- one variable after the other; what is made of the four values cannot fail
  have hmade : ∀ settings : Settings,
      (∃ b, (pure settings : Except Error Settings) = .ok b) ↔ True :=
    fun settings => iff_true_intro ⟨settings, rfl⟩
  unfold ofEnvironment
  simp only [exists_bind_iff, hmade, and_true, exists_and_right, exists_readOr_iff]
  exact ⟨fun ⟨hdirection, hspacing, htheme, hstrict⟩ => ⟨hdirection, hspacing, htheme, hstrict⟩,
    fun h => ⟨h.direction, h.spacing, h.theme, h.strict⟩⟩

end Settings

namespace CommandLine

open Drawing (Counts IdSource SequentialIds)
open Workspace (Unreliable outcome)

variable {S : Type} [Scalar S] [Numeral S] {G : Type} [IdSource G]

/-! ## A command line under an environment -/

/-- The environment that the settings are read from: what the nearest environment file adds to
it is there, unless the file cannot be read. -/
def settled (env : Environment) (s : Unreliable) : Environment :=
  match s.unlessFault (s.memory.nearest? environmentFileName) with
  | none => env
  | some content => env.withFile content

/-- The files after the call that looks for the environment file. -/
def afterLooking (s : Unreliable) : Unreliable := ⟨s.memory, s.faults.tail⟩

theorem run_fullEnvironment (env : Environment) (s : Unreliable) :
    (fullEnvironment env : StateM Unreliable Environment).run s =
      (settled env s, afterLooking s) := by
  have hnearest : (Workspace.FileAccess.nearest environmentFileName :
      StateM Unreliable (Option ByteArray)).run s =
        (s.unlessFault (s.memory.nearest? environmentFileName), afterLooking s) := rfl
  rw [fullEnvironment, StateT.run_bind, hnearest, settled]
  cases s.unlessFault (s.memory.nearest? environmentFileName) <;> rfl

variable (S) in
/-- What a command line comes to under an environment: what is answered, the state of the
identities and the files. -/
def answer (now : Int64) (arguments : List String) (g : G) (s : Unreliable) (env : Environment) :
    (Outcome × G) × Unreliable :=
  ((run S now env arguments : StateT G (StateM Unreliable) Outcome).run g).run s

/-- What a drawing that was put into a file comes to, as it is told. -/
def told (output : String) : (Except Workspace.Error Counts × G) × Unreliable →
    (Outcome × G) × Unreliable
  | ((.ok counts, g), s) => ((.line (writtenText output counts), g), s)
  | ((.error e, g), s) => ((.failure e.message, g), s)

omit [IdSource G] in
/-- The answer to work is what it yields, or why it failed. -/
theorem run_answered (act : Workspace.Work (StateM Unreliable) G Outcome) (g : G) (s : Unreliable) :
    ((act.run >>= fun r => match r with
        | .ok o => pure o
        | .error e => pure (Outcome.failure e.message) :
          StateT G (StateM Unreliable) Outcome).run g).run s =
      match outcome act g s with
      | ((.ok o, g'), s') => ((o, g'), s')
      | ((.error e, g'), s') => ((.failure e.message, g'), s') := by
  unfold outcome
  rw [StateT.run_bind, StateT.run_bind]
  -- on what the work comes to
  rcases (act.run.run g).run s with ⟨⟨⟨e⟩ | ⟨o⟩, g'⟩, s'⟩
  · rfl
  · rfl

/-- The environment file is looked for, and then the command is carried out under what the
settings are then. -/
theorem answer_eq (now : Int64) {arguments : List String} {command : Command}
    (hread : readArguments arguments = .ok command) (g : G) (s : Unreliable) (env : Environment) :
    answer S now arguments g s env =
      ((command.run S now (settled env s) : StateT G (StateM Unreliable) Outcome).run g).run
        (afterLooking s) := by
  have hfirst : answer S now arguments g s env =
      ((fullEnvironment env : StateM Unreliable Environment) >>= fun env =>
        (command.run S now env : StateT G (StateM Unreliable) Outcome).run g).run s := by
    unfold answer run
    simp only [hread]
    rw [StateT.run_bind, StateT.run_lift]
    rfl
  rw [hfirst, StateT.run_bind, run_fullEnvironment]
  rfl

/-- Settings that cannot be read end every command before anything is done. -/
theorem answer_of_error (now : Int64) {arguments : List String} {command : Command}
    (hread : readArguments arguments = .ok command) (g : G) {s : Unreliable} {env : Environment}
    {e : Settings.Error} (h : Settings.ofEnvironment (settled env s) = .error e) :
    answer S now arguments g s env = ((.failure e.message, g), afterLooking s) := by
  rw [answer_eq now hread, Command.run, h]
  rfl

/-- **Drawing from the command line.** Under settings that can be read it draws under the
options, each from the command line or the settings. -/
theorem answer_compile (now : Int64) {arguments : List String} {input output : String}
    {direction : Option Chain.Direction} {spacing : Option UInt32} {theme : Option Chain.Theme}
    {force : Bool}
    (hread : readArguments arguments = .ok (.compile input output direction spacing theme force))
    (g : G) {s : Unreliable} {env : Environment} {settings : Settings}
    (h : Settings.ofEnvironment (settled env s) = .ok settings) :
    answer S now arguments g s env = told output (outcome (Workspace.compile S now input output
      (drawingOptions settings direction spacing theme) force) g (afterLooking s)) := by
  have hperform : outcome ((Command.compile input output direction spacing theme force).perform S
      now settings) g (afterLooking s) = outcome (Workspace.compile S now input output
        (drawingOptions settings direction spacing theme) force >>= fun counts =>
          pure (.line (writtenText output counts))) g (afterLooking s) := rfl
  rw [Workspace.outcome_bind] at hperform
  rw [answer_eq now hread, Command.run, h]
  refine (run_answered _ g (afterLooking s)).trans ?_
  rw [hperform]
  -- the drawing was put into the file, or it was not
  rcases outcome (Workspace.compile S now input output
    (drawingOptions settings direction spacing theme) force) g (afterLooking s)
    with ⟨⟨⟨e⟩ | ⟨counts⟩, g'⟩, s'⟩
  · rfl
  · rfl

/-! ## Options before settings -/

/-- **Options win.** A command line that draws a diagram and gives all three options comes to
the same under all environments in which every variable makes sense, also to the same files.
Under any other it fails before anything is done. So where it succeeds, it succeeds under
another environment exactly if every variable makes sense there. -/
theorem options_win_iff {arguments : List String} {input output : String}
    {direction : Chain.Direction} {spacing : UInt32} {theme : Chain.Theme} {force : Bool}
    (hread : readArguments arguments =
      .ok (.compile input output (some direction) (some spacing) (some theme) force))
    (now : Int64) (g : G) (s : Unreliable) (env env' : Environment) :
    (Settings.Readable (settled env s) → Settings.Readable (settled env' s) →
      answer S now arguments g s env = answer S now arguments g s env') ∧
    (¬ Settings.Readable (settled env' s) →
      ∃ e, Settings.ofEnvironment (settled env' s) = .error e ∧
        answer S now arguments g s env' = ((.failure e.message, g), afterLooking s)) ∧
    ((answer S now arguments g s env).1.1.exit = .success →
      ((answer S now arguments g s env').1.1.exit = .success ↔
        Settings.Readable (settled env' s))) := by
  -- what the settings say does not matter, only that they can be read
  have hreadable : ∀ env, Settings.Readable (settled env s) → answer S now arguments g s env =
      told output (outcome (Workspace.compile S now input output ⟨direction, spacing, theme⟩ force)
        g (afterLooking s)) := by
    intro env h
    obtain ⟨settings, hsettings⟩ := Settings.readable_iff.mpr h
    exact answer_compile now hread g hsettings
  have hunreadable : ∀ env, ¬ Settings.Readable (settled env s) →
      ∃ e, Settings.ofEnvironment (settled env s) = .error e ∧
        answer S now arguments g s env = ((.failure e.message, g), afterLooking s) := by
    intro env h
    cases hsettings : Settings.ofEnvironment (settled env s) with
    | ok settings => exact absurd (Settings.readable_iff.mp ⟨settings, hsettings⟩) h
    | error e => exact ⟨e, rfl, answer_of_error now hread g hsettings⟩
  have hsuccess : ∀ env, (answer S now arguments g s env).1.1.exit = .success →
      Settings.Readable (settled env s) := by
    intro env h
    by_contra hnot
    obtain ⟨e, -, hfails⟩ := hunreadable env hnot
    rw [hfails] at h
    cases h
  refine ⟨fun h h' => (hreadable env h).trans (hreadable env' h').symm, hunreadable env', ?_⟩
  intro h
  refine ⟨hsuccess env', fun h' => ?_⟩
  rw [hreadable env' h', ← hreadable env (hsuccess env h)]
  exact h

/-! ## A drawing with all options -/

/-- A diagram that is to be replaced by its drawing. -/
def diagramFile : Unreliable := Workspace.oneFile "[x]".toUTF8

def allOptions : List String :=
  ["compile", "a", "-o", "a", "--direction", "horizontal", "--spacing", "50", "--style",
    "default", "--force"]

theorem readArguments_allOptions : readArguments allOptions =
    .ok (.compile "a" "a" (some .horizontal) (some 50) (some .default) true) := by
  decide +kernel

/-- There is no environment file. -/
theorem settled_diagramFile (env : Environment) : settled env diagramFile = env := rfl

theorem success_allOptions :
    (answer Float 0 allOptions (SequentialIds.fresh "el") diagramFile []).1.1.exit = .success := by
  have hready : diagramFile.Ready "a" := Workspace.ready_oneFile _
  have hsource : diagramFile.memory.text? "a" = some "[x]" := by
    rw [Workspace.Memory.text?, diagramFile, Workspace.read?_oneFile, Option.bind_some,
      Workspace.fromUTF8?_toUTF8]
  obtain ⟨d, g', hcompile⟩ := Workspace.compile_box
  obtain ⟨s', hrun⟩ :=
    Workspace.compile_succeeds hready (by decide) hsource (Or.inl rfl) hcompile
  have hdefaults : Settings.ofEnvironment (settled [] diagramFile) = .ok {} := rfl
  rw [answer_compile 0 readArguments_allOptions _ hdefaults]
  -- all options are the defaults, and no call fails by itself
  change (told "a" (outcome (Workspace.compile Float 0 "a" "a" {} true) _ diagramFile)).1.1.exit = _
  rw [hrun]
  rfl

theorem options_win_of_allOptions :
    answer Float 0 allOptions (SequentialIds.fresh "el") diagramFile
        [("SKETCHC_SPACING", "80"), ("SKETCHC_STYLE", "blueprint")] =
      answer Float 0 allOptions (SequentialIds.fresh "el") diagramFile [] ∧
    (answer Float 0 allOptions (SequentialIds.fresh "el") diagramFile
      [("SKETCHC_STRICT", "maybe")]).1.1.exit ≠ .success := by
  have hwin := options_win_iff (S := Float) readArguments_allOptions 0 (SequentialIds.fresh "el")
    diagramFile []
  have hempty : Settings.Readable [] := Settings.readable_iff.mp ⟨_, rfl⟩
  have hother : Settings.Readable [("SKETCHC_SPACING", "80"), ("SKETCHC_STYLE", "blueprint")] :=
    Settings.readable_iff.mp ⟨⟨⟨.horizontal, 80, .blueprint⟩, false⟩, by decide +kernel⟩
  refine ⟨((hwin _).1 hempty hother).symm, fun hsuccess => ?_⟩
  have hstrict := ((hwin [("SKETCHC_STRICT", "maybe")]).2.2 success_allOptions).mp hsuccess
  obtain ⟨settings, hsettings⟩ := Settings.readable_iff.mpr hstrict
  have herror : Settings.ofEnvironment [("SKETCHC_STRICT", "maybe")] =
      .error ⟨"SKETCHC_STRICT", .notBoolean "maybe"⟩ := by
    decide +kernel
  rw [settled_diagramFile, herror] at hsettings
  cases hsettings

/-- **A variable that has an option in its place.** The spacing is given on the command line,
and yet the variable of its default ends the command. -/
theorem not_same_of_spacing :
    (answer Float 0 allOptions (SequentialIds.fresh "el") diagramFile []).1.1.exit = .success ∧
    (answer Float 0 allOptions (SequentialIds.fresh "el") diagramFile
      [("SKETCHC_SPACING", "abc")]).1.1 =
      .failure "invalid SKETCHC_SPACING: invalid digit found in string" := by
  refine ⟨success_allOptions, ?_⟩
  have herror : Settings.ofEnvironment (settled [("SKETCHC_SPACING", "abc")] diagramFile) =
      .error ⟨"SKETCHC_SPACING", .spacing .invalidDigit⟩ := by
    rw [settled_diagramFile]
    decide +kernel
  rw [answer_of_error 0 readArguments_allOptions _ herror]
  rfl

end CommandLine

end Whiteboard
