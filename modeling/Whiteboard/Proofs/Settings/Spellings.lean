import Whiteboard.Proofs.Number.Whole
import Whiteboard.Proofs.Text.Trim
import Whiteboard.Settings.Environment

/-!
# Whiteboard — spellings of settings

A user may write the value of a variable with blanks around it and in capital letters. Each of the
four variables is read in a way of its own, some trim their value again and some never look at
letters, but all of them see no more of it than its trimmed text in lower case. So the spelling
makes no difference to the settings, nor to what is said about a value that makes no sense, which
shows the text as it was looked up.

Main results:

* `Text.alike_iff` — texts are looked up as one exactly if they differ in spelling only.
* `ofEnvironment_congr` — environments that differ in spelling only have one result.
* `explains_ofEnvironment` — the value of each variable, or the first that makes no sense.
* `settings_of_environment` — all together.
-/

namespace Whiteboard

/-! ## Texts that differ in spelling -/

namespace Text

/-- The texts are the same but for blanks at their ends and the case of ASCII letters. -/
def Alike (s t : String) : Prop :=
  ∃ a b, TrimsTo s.toList a ∧ TrimsTo t.toList b ∧ a.map Char.toLower = b.map Char.toLower

theorem toList_trim (s : String) : (trim s).toList = trimmed s.toList := String.toList_ofList

theorem toList_folded (s : String) : (folded s).toList = (trimmed s.toList).map Char.toLower := by
  rw [folded, lowerAscii, String.toList_ofList, toList_trim]

/-- **Spelling.** Texts are looked up as one exactly if they differ in spelling only. -/
theorem alike_iff {s t : String} : Alike s t ↔ folded s = folded t := by
  rw [← String.toList_inj, toList_folded, toList_folded]
  constructor
  · rintro ⟨a, b, ha, hb, heq⟩
    rw [trimmed_of_trimsTo ha, trimmed_of_trimsTo hb]
    exact heq
  · intro heq
    exact ⟨_, _, trimsTo_trimmed _, trimsTo_trimmed _, heq⟩

/-- Words that are as they are looked up are found by their spellings. -/
theorem exists_alike_iff {words : List String} (h : ∀ w ∈ words, folded w = w) (s : String) :
    (∃ w ∈ words, Alike s w) ↔ words.contains (folded s) = true := by
  rw [List.contains_iff_mem]
  constructor
  · rintro ⟨w, hw, halike⟩
    rw [alike_iff, h w hw] at halike
    rwa [halike]
  · intro hmem
    exact ⟨folded s, hmem, alike_iff.mpr (h _ hmem).symm⟩

theorem isEmpty_trim_iff {s : String} : (trim s).isEmpty = true ↔ AllBlank s.toList := by
  rw [String.isEmpty_iff, ← String.toList_eq_nil_iff, toList_trim, trimmed_eq_nil_iff]

/-- Being blank is a matter of spelling. -/
theorem Alike.allBlank_iff {s t : String} (h : Alike s t) :
    AllBlank s.toList ↔ AllBlank t.toList := by
  have hfolded := congrArg String.toList (alike_iff.mp h)
  rw [toList_folded, toList_folded] at hfolded
  rw [← trimmed_eq_nil_iff, ← trimmed_eq_nil_iff, ← List.map_eq_nil_iff (f := Char.toLower),
    hfolded, List.map_eq_nil_iff]

end Text

namespace Settings

open Text (AllBlank Alike TrimsTo folded)

/-! ## Values by their spelling -/

theorem direction_congr {s t : String} (h : Alike s t) : direction s = direction t := by
  rw [direction, direction, Chain.Direction.ofUserName, Chain.Direction.ofUserName,
    Text.alike_iff.mp h]

theorem theme_congr {s t : String} (h : Alike s t) : theme s = theme t := by
  rw [theme, theme, Chain.Theme.ofUserName, Chain.Theme.ofUserName, Text.alike_iff.mp h]

theorem boolean_congr {s t : String} (h : Alike s t) : boolean s = boolean t := by
  rw [boolean, boolean, Text.alike_iff.mp h]

/-- A number is not looked up in lower case, but it might as well be. -/
theorem spacing_congr {s t : String} (h : Alike s t) : spacing s = spacing t := by
  have hlower : ∀ u : String, Whole.read (Text.trim u).toList = Whole.read (folded u).toList := by
    intro u
    rw [Text.toList_folded, Whole.read_map_toLower, Text.toList_trim]
  rw [spacing, spacing, readUInt32, readUInt32, hlower, hlower, Text.alike_iff.mp h]

/-! ## What values mean -/

/-- One of the words for the one choice or for the other, in some spelling. -/
def Chooses {α : Type} (xs : List String) (x : α) (ys : List String) (y : α) (text : String)
    (a : α) : Prop :=
  (∃ w ∈ xs, Alike text w) ∧ a = x ∨ (∃ w ∈ ys, Alike text w) ∧ a = y

def MeansDirection : String → Chain.Direction → Prop :=
  Chooses ["horizontal", "h", "lr"] .horizontal ["vertical", "v", "tb"] .vertical

/-- The digits of a number of 32 bits, with blanks around them or without. -/
def MeansSpacing (text : String) (spacing : UInt32) : Prop :=
  ∃ inner, TrimsTo text.toList inner ∧ Whole.Denotes inner spacing.toNat

def MeansTheme (text : String) (theme : Chain.Theme) : Prop := Alike text (Named.name theme)

def MeansStrict : String → Bool → Prop :=
  Chooses ["1", "true", "yes", "on"] true ["0", "false", "no", "off"] false

/-- The reader takes exactly the texts that mean something, as what they mean. -/
structure Understands {α : Type} (read : String → Except Problem α) (means : String → α → Prop) :
    Prop where
  ok : ∀ {text a}, read text = .ok a → means text a
  error : ∀ {text problem}, read text = .error problem → ∀ a, ¬ means text a

/-- A reader that looks for the words of the one choice, and then for those of the other. -/
theorem understands_choice {α : Type} {xs ys : List String} {x y : α}
    {read : String → Except Problem α} {problem : String → Problem}
    (hxs : ∀ w ∈ xs, folded w = w) (hys : ∀ w ∈ ys, folded w = w)
    (hread : ∀ text, read text = if xs.contains (folded text) then .ok x
      else if ys.contains (folded text) then .ok y else .error (problem text)) :
    Understands read (Chooses xs x ys y) := by
  constructor
  · intro text a h
    rw [hread] at h
    split at h
    · rename_i hmem
      exact Or.inl ⟨(Text.exists_alike_iff hxs text).mpr hmem, (Except.ok.inj h).symm⟩
    · split at h
      · rename_i hmem
        exact Or.inr ⟨(Text.exists_alike_iff hys text).mpr hmem, (Except.ok.inj h).symm⟩
      · cases h
  · intro text problem h a hmeans
    -- a word of either list would have been found
    rw [hread] at h
    rcases hmeans with ⟨hword, -⟩ | ⟨hword, -⟩
    · rw [if_pos ((Text.exists_alike_iff hxs text).mp hword)] at h
      cases h
    · rw [if_pos ((Text.exists_alike_iff hys text).mp hword)] at h
      split at h
      · cases h
      · cases h

theorem understands_direction : Understands direction MeansDirection := by
  have hread : ∀ text, direction text =
      if ["horizontal", "h", "lr"].contains (folded text) then .ok .horizontal
      else if ["vertical", "v", "tb"].contains (folded text) then .ok .vertical
      else .error (.chain (.unknownDirection (folded text))) := by
    intro text
    rw [direction, Chain.Direction.ofUserName, apply_ite (Except.mapError _),
      apply_ite (Except.mapError _)]
    rfl
  exact understands_choice (by decide +kernel) (by decide +kernel) hread

theorem understands_boolean : Understands boolean MeansStrict := by
  have hread : ∀ text, boolean text =
      if ["1", "true", "yes", "on"].contains (folded text) then .ok true
      else if ["0", "false", "no", "off"].contains (folded text) then .ok false
      else .error (.notBoolean (folded text)) := by
    intro text
    rw [boolean]
  exact understands_choice (by decide +kernel) (by decide +kernel) hread

theorem understands_theme : Understands theme MeansTheme := by
  have hnames : ∀ t : Chain.Theme, folded (Named.name t) = Named.name t ∧
      Named.ofName? (Named.name t) = some t := by
    intro t
    cases t <;> exact ⟨by decide +kernel, rfl⟩
  constructor
  · intro text t h
    rw [theme, Chain.Theme.ofUserName] at h
    cases hfound : (Named.ofName? (folded text) : Option Chain.Theme) with
    | none =>
      rw [hfound] at h
      cases h
    | some found =>
      rw [hfound] at h
      obtain rfl : found = t := Except.ok.inj h
      have hname : Named.name found = folded text := beq_iff_eq.mp (List.find?_some hfound :)
      rw [MeansTheme, Text.alike_iff, (hnames found).1, hname]
  · intro text problem h t halike
    -- it would have been found
    rw [MeansTheme, Text.alike_iff, (hnames t).1] at halike
    rw [theme, Chain.Theme.ofUserName, halike, (hnames t).2] at h
    cases h

theorem understands_spacing : Understands spacing MeansSpacing := by
  have hread : ∀ text, spacing text =
      ((Whole.read (Text.trimmed text.toList)).map UInt32.ofNat).mapError .spacing := by
    intro text
    rw [spacing, readUInt32, Text.toList_trim]
  constructor
  · intro text a h
    rw [hread] at h
    cases hvalue : Whole.read (Text.trimmed text.toList) with
    | error problem =>
      rw [hvalue] at h
      cases h
    | ok n =>
      rw [hvalue] at h
      obtain rfl : UInt32.ofNat n = a := Except.ok.inj h
      obtain ⟨hdenotes, hsize⟩ := Whole.read_eq_ok_iff.mp hvalue
      refine ⟨_, Text.trimsTo_trimmed _, ?_⟩
      rw [UInt32.toNat_ofNat_of_lt' hsize]
      exact hdenotes
  · rintro text problem h a ⟨inner, hinner, hdenotes⟩
    rw [← Text.trimmed_of_trimsTo hinner] at hdenotes
    rw [hread, Whole.read_eq_ok_iff.mpr ⟨hdenotes, a.toNat_lt⟩] at h
    cases h

/-! ## Variables -/

/-- The variables. -/
inductive Variable where
  | direction | spacing | theme | strict
  deriving DecidableEq

namespace Variable

/-- The variables in the order in which they are read. -/
def all : List Variable := [.direction, .spacing, .theme, .strict]

def name : Variable → String
  | .direction => directionVariable
  | .spacing => spacingVariable
  | .theme => themeVariable
  | .strict => strictVariable

/-- The values of a variable. -/
def Value : Variable → Type
  | .direction => Chain.Direction
  | .spacing => UInt32
  | .theme => Chain.Theme
  | .strict => Bool

def default : (v : Variable) → v.Value
  | .direction => Chain.Direction.horizontal
  | .spacing => Chain.defaultSpacing
  | .theme => Chain.Theme.default
  | .strict => false

def read : (v : Variable) → String → Except Problem v.Value
  | .direction => Settings.direction
  | .spacing => Settings.spacing
  | .theme => Settings.theme
  | .strict => Settings.boolean

/-- The value that settings have for a variable. -/
def value (s : Settings) : (v : Variable) → v.Value
  | .direction => s.drawing.direction
  | .spacing => s.drawing.spacing
  | .theme => s.drawing.theme
  | .strict => s.strict

def Means : (v : Variable) → String → v.Value → Prop
  | .direction => MeansDirection
  | .spacing => MeansSpacing
  | .theme => MeansTheme
  | .strict => MeansStrict

/-- The text of a variable. One that is not set is as good as blank. -/
def text (v : Variable) (env : Environment) : String := (env.get? v.name).getD ""

/-- The value is what an environment has for a variable. -/
structure Holds (v : Variable) (env : Environment) (a : v.Value) : Prop where
  unset : AllBlank (v.text env).toList → a = v.default
  set : ¬ AllBlank (v.text env).toList → v.Means (v.text env) a

/-- The variable is blank, or means something. -/
def WellFormed (v : Variable) (env : Environment) : Prop :=
  AllBlank (v.text env).toList ∨ ∃ a, v.Means (v.text env) a

theorem Holds.wellFormed {v : Variable} {env : Environment} {a : v.Value} (h : v.Holds env a) :
    v.WellFormed env := by
  by_cases hblank : AllBlank (v.text env).toList
  · exact Or.inl hblank
  · exact Or.inr ⟨a, h.set hblank⟩

theorem read_congr (v : Variable) {s t : String} (h : Alike s t) : v.read s = v.read t := by
  cases v with
  | direction =>
    rw [read]
    exact direction_congr h
  | spacing =>
    rw [read]
    exact spacing_congr h
  | theme =>
    rw [read]
    exact theme_congr h
  | strict =>
    rw [read]
    exact boolean_congr h

theorem understands (v : Variable) : Understands v.read v.Means := by
  cases v with
  | direction => exact understands_direction
  | spacing => exact understands_spacing
  | theme => exact understands_theme
  | strict => exact understands_boolean

/-! ## Reading a variable -/

/-- What an environment has for a variable. -/
def readIn (env : Environment) (v : Variable) : Except Error v.Value :=
  readOr env v.name v.default v.read

theorem readIn_eq (env : Environment) (v : Variable) :
    readIn env v =
      if (Text.trim (v.text env)).isEmpty then .ok v.default
      else (v.read (v.text env)).mapError fun problem => ⟨v.name, problem⟩ := by
  rw [readIn, readOr, value?, text]
  cases env.get? v.name with
  | none => rfl
  | some s =>
    rw [Option.getD_some]
    -- a blank text is passed over as if there were none
    by_cases hblank : (Text.trim s).isEmpty = true
    · rw [if_pos hblank, Option.filter_some, hblank]
      rfl
    · rw [if_neg hblank, Option.filter_some, Bool.eq_false_iff.mpr hblank]
      rfl

theorem readIn_congr {env env' : Environment} {v : Variable}
    (h : Alike (v.text env) (v.text env')) : readIn env v = readIn env' v := by
  have hblank : (Text.trim (v.text env)).isEmpty = (Text.trim (v.text env')).isEmpty := by
    rw [Bool.eq_iff_iff, Text.isEmpty_trim_iff, Text.isEmpty_trim_iff, h.allBlank_iff]
  rw [readIn_eq, readIn_eq, v.read_congr h, hblank]

theorem holds_of_readIn {env : Environment} {v : Variable} {a : v.Value}
    (h : readIn env v = .ok a) : v.Holds env a := by
  rw [readIn_eq] at h
  constructor
  · intro hblank
    rw [if_pos (Text.isEmpty_trim_iff.mpr hblank)] at h
    exact (Except.ok.inj h).symm
  · intro hblank
    rw [if_neg (fun hempty => hblank (Text.isEmpty_trim_iff.mp hempty))] at h
    cases hvalue : v.read (v.text env) with
    | ok b =>
      rw [hvalue] at h
      obtain rfl : b = a := Except.ok.inj h
      exact v.understands.ok hvalue
    | error problem =>
      rw [hvalue] at h
      cases h

theorem not_wellFormed_of_readIn {env : Environment} {v : Variable} {e : Error}
    (h : readIn env v = .error e) : ¬ v.WellFormed env ∧ e.name = v.name := by
  rw [readIn_eq] at h
  by_cases hempty : (Text.trim (v.text env)).isEmpty = true
  · rw [if_pos hempty] at h
    cases h
  · rw [if_neg hempty] at h
    cases hvalue : v.read (v.text env) with
    | ok b =>
      rw [hvalue] at h
      cases h
    | error problem =>
      rw [hvalue] at h
      obtain rfl : (⟨v.name, problem⟩ : Error) = e := Except.error.inj h
      refine ⟨?_, rfl⟩
      rintro (hblank | ⟨a, hmeans⟩)
      · exact hempty (Text.isEmpty_trim_iff.mpr hblank)
      · exact v.understands.error hvalue a hmeans

end Variable

/-! ## Reading an environment -/

open Variable (readIn)

theorem ofEnvironment_eq (env : Environment) : ofEnvironment env = (do
    let direction ← readIn env .direction
    let spacing ← readIn env .spacing
    let theme ← readIn env .theme
    let strict ← readIn env .strict
    return ⟨⟨direction, spacing, theme⟩, strict⟩) := rfl

/-- **Spelling of settings.** Environments whose variables differ in spelling only lead to the
same settings, or to the same error. -/
theorem ofEnvironment_congr {env env' : Environment}
    (h : ∀ v : Variable, Alike (v.text env) (v.text env')) :
    ofEnvironment env = ofEnvironment env' := by
  have hread : ∀ v, readIn env v = readIn env' v := fun v => Variable.readIn_congr (h v)
  rw [ofEnvironment_eq, ofEnvironment_eq, hread, hread, hread, hread]

/-- What the outcome of reading an environment says: the value of each variable, or the first
variable that makes no sense. -/
def Explains (env : Environment) : Except Error Settings → Prop
  | .ok s => ∀ v : Variable, v.Holds env (v.value s)
  | .error e => ∃ before v after, Variable.all = before ++ v :: after ∧
      (∀ u ∈ before, u.WellFormed env) ∧ ¬ v.WellFormed env ∧ e.name = v.name

theorem explains_error {env : Environment} {v : Variable} {e : Error} (h : readIn env v = .error e)
    (before : List Variable) {after : List Variable} (hall : Variable.all = before ++ v :: after)
    (hbefore : ∀ u ∈ before, u.WellFormed env) : Explains env (.error e) :=
  ⟨before, v, after, hall, hbefore, Variable.not_wellFormed_of_readIn h⟩

/-- **Outcome of reading settings.** One variable after the other is read, up to the first that
makes no sense. -/
theorem explains_ofEnvironment (env : Environment) : Explains env (ofEnvironment env) := by
  rw [ofEnvironment_eq]
  -- a variable is read only where those before it could be, and these are well-formed then
  cases hdirection : readIn env .direction with
  | error e => exact explains_error hdirection [] rfl (List.forall_mem_nil _)
  | ok direction =>
    have hdirection := Variable.holds_of_readIn hdirection
    cases hspacing : readIn env .spacing with
    | error e =>
      refine explains_error hspacing [.direction] rfl ?_
      simpa using hdirection.wellFormed
    | ok spacing =>
      have hspacing := Variable.holds_of_readIn hspacing
      cases htheme : readIn env .theme with
      | error e =>
        refine explains_error htheme [.direction, .spacing] rfl ?_
        simpa using ⟨hdirection.wellFormed, hspacing.wellFormed⟩
      | ok theme =>
        have htheme := Variable.holds_of_readIn htheme
        cases hstrict : readIn env .strict with
        | error e =>
          refine explains_error hstrict [.direction, .spacing, .theme] rfl ?_
          simpa using ⟨hdirection.wellFormed, hspacing.wellFormed, htheme.wellFormed⟩
        | ok strict =>
          have hstrict := Variable.holds_of_readIn hstrict
          intro v
          cases v
          · exact hdirection
          · exact hspacing
          · exact htheme
          · exact hstrict

/-- **Settings of an environment.** The settings, and the error if there is one, depend on what
the variables are but for the blanks around them and the case of their letters. A variable that
is unset or blank yields its default and every other what it means, unless some variable means
nothing: then the error names the first of these. -/
theorem settings_of_environment (env : Environment) :
    (∀ env', (∀ v : Variable, Alike (v.text env) (v.text env')) →
      ofEnvironment env = ofEnvironment env') ∧
    Explains env (ofEnvironment env) :=
  ⟨fun _ => ofEnvironment_congr, explains_ofEnvironment env⟩

/-- An environment in two spellings, with one variable that means nothing. -/
theorem settings_of_respelled :
    let env := [("SKETCHC_DIRECTION", " Vertical\t"), ("SKETCHC_SPACING", "+80 "),
      ("SKETCHC_STRICT", " MayBe")]
    let env' := [("SKETCHC_STYLE", " "), ("SKETCHC_STRICT", "maybe"), ("SKETCHC_SPACING", " +80"),
      ("SKETCHC_DIRECTION", "vertical")]
    (∀ v : Variable, Alike (v.text env) (v.text env')) ∧
      ofEnvironment env = .error ⟨"SKETCHC_STRICT", .notBoolean "maybe"⟩ ∧
      ofEnvironment env' = .error ⟨"SKETCHC_STRICT", .notBoolean "maybe"⟩ := by
  intro env env'
  have halike : ∀ v : Variable, Alike (v.text env) (v.text env') := by
    intro v
    rw [Text.alike_iff]
    cases v <;> decide +kernel
  have herror : ofEnvironment env = .error ⟨"SKETCHC_STRICT", .notBoolean "maybe"⟩ := by
    decide +kernel
  exact ⟨halike, herror, ((settings_of_environment env).1 env' halike).symm.trans herror⟩

end Settings

end Whiteboard
