import Whiteboard.Chain.Compilation
import Whiteboard.Number.Whole

/-!
# Whiteboard — settings from the environment

Four variables set the defaults of the command line. A variable that is unset or
blank leaves its default; of several that make no sense, the first in the order
direction, spacing, style, strictness is reported.
-/

namespace Whiteboard

/-- Variables with their values. -/
abbrev Environment := List (String × String)

/-- The value of a variable that is set. -/
def Environment.get? (env : Environment) (name : String) : Option String :=
  (env.find? fun v => v.1 == name).map Prod.snd

/-- What the command line takes for granted where its options say nothing. -/
structure Settings where
  drawing : Chain.Options := {}
  /-- Whether warnings count as errors. -/
  strict : Bool := false
  deriving DecidableEq, Repr

namespace Settings

/-! ## Variables -/

def directionVariable : String := "SKETCHC_DIRECTION"

def spacingVariable : String := "SKETCHC_SPACING"

def themeVariable : String := "SKETCHC_STYLE"

def strictVariable : String := "SKETCHC_STRICT"

/-- What is wrong with a value. -/
inductive Problem where
  | chain (cause : Chain.Error)
  | spacing (cause : WholeError)
  | notBoolean (text : String)
  deriving DecidableEq, Repr

def Problem.message : Problem → String
  | .chain cause => cause.message
  | .spacing cause => cause.message
  | .notBoolean text => "expected a boolean, got '" ++ text ++ "'"

/-- A variable whose value makes no sense. -/
structure Error where
  name : String
  problem : Problem
  deriving DecidableEq, Repr

def Error.message (e : Error) : String := "invalid " ++ e.name ++ ": " ++ e.problem.message

/-! ## Values -/

/-- The words for true and false, in any case. -/
def boolean (s : String) : Except Problem Bool :=
  let word := Text.folded s
  if ["1", "true", "yes", "on"].contains word then .ok true
  else if ["0", "false", "no", "off"].contains word then .ok false
  else .error (.notBoolean word)

def direction (s : String) : Except Problem Chain.Direction :=
  (Chain.Direction.ofUserName s).mapError .chain

def theme (s : String) : Except Problem Chain.Theme := (Chain.Theme.ofUserName s).mapError .chain

def spacing (s : String) : Except Problem UInt32 := (readUInt32 (Text.trim s)).mapError .spacing

/-- The value of a variable that is set and not blank. -/
def value? (env : Environment) (name : String) : Option String :=
  (env.get? name).filter fun s => !(Text.trim s).isEmpty

/-- A variable's value, or the default where it has none. -/
def readOr {α : Type} (env : Environment) (name : String) (default : α)
    (read : String → Except Problem α) : Except Error α :=
  match value? env name with
  | none => .ok default
  | some s => (read s).mapError fun problem => ⟨name, problem⟩

/-- The settings that an environment asks for. -/
def ofEnvironment (env : Environment) : Except Error Settings := do
  let defaults : Settings := {}
  let direction ← readOr env directionVariable defaults.drawing.direction direction
  let spacing ← readOr env spacingVariable defaults.drawing.spacing spacing
  let theme ← readOr env themeVariable defaults.drawing.theme theme
  let strict ← readOr env strictVariable defaults.strict boolean
  return ⟨⟨direction, spacing, theme⟩, strict⟩

end Settings

end Whiteboard
