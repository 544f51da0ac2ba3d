import Whiteboard.Audit.Report
import Whiteboard.CommandLine.Arguments
import Whiteboard.Settings.EnvFile
import Whiteboard.Workspace.DocumentFile

/-!
# Whiteboard — running a command line

`run` carries out what a command line asks for and says what is printed and how
the program ends. The settings of the environment are read before the command
runs, so one that makes no sense ends every command; options of the command line
take precedence over the settings.
-/

namespace Whiteboard.CommandLine

open Workspace (FileAccess)
open Drawing (Counts IdSource)

/-! ## Outcomes -/

/-- How a command ends. -/
inductive Exit where
  | success
  /-- The command did its work and found a document invalid. -/
  | invalid
  | failure
  deriving DecidableEq, Repr

/-- The number that an exit is reported as. -/
def Exit.code : Exit → UInt8
  | .success => 0
  | .invalid => 1
  | .failure => 2

/-- What a command line leads to, apart from files. -/
structure Outcome where
  exit : Exit
  /-- What is printed. -/
  output : String := ""
  /-- What is complained about. -/
  complaint : String := ""
  deriving DecidableEq, Repr

/-- A failure with its reason. -/
def Outcome.failure (reason : String) : Outcome where
  exit := .failure
  complaint := "error: " ++ reason ++ "\n"

/-- A success that prints a line. -/
def Outcome.line (text : String) : Outcome where
  exit := .success
  output := text ++ "\n"

/-- The answer to a command line that runs no command. -/
def Stop.outcome : Stop → Outcome
  | .notice n => ⟨.success, n.text, ""⟩
  | .usage e => .failure e.message

/-! ## Answers -/

/-- What is said about a document that was drawn. -/
def writtenText (path : String) (counts : Counts) : String :=
  "wrote " ++ toString counts.elements ++ " elements (" ++ toString counts.shapes ++
    " shapes, " ++ toString counts.texts ++ " texts, " ++ toString counts.connectors ++
    " connectors) to " ++ path

variable {S : Type} [Scalar S] [Numeral S]

/-- A report as text or as JSON. -/
def reportOutcome (path : String) (json : Bool) (report : Audit.Report S) : Outcome where
  exit := if report.valid then .success else .invalid
  output := if json then report.toJson.pretty ++ "\n" else report.text path

/-! ## Commands -/

/-- The options of a drawing, each from the command line or else from the settings. -/
def drawingOptions (settings : Settings) (direction : Option Chain.Direction)
    (spacing : Option UInt32) (theme : Option Chain.Theme) : Chain.Options where
  direction := direction.getD settings.drawing.direction
  spacing := spacing.getD settings.drawing.spacing
  theme := theme.getD settings.drawing.theme

variable {m : Type → Type} [Monad m] [FileAccess m] {G : Type} [IdSource G]

variable (S) in
/-- Carries out a command. -/
def Command.perform (now : Int64) (settings : Settings) :
    Command → Workspace.Work m G Outcome
  | .compile input output direction spacing theme force => do
    let options := drawingOptions settings direction spacing theme
    let counts ← Workspace.compile S now input output options force
    return .line (writtenText output counts)
  | .validate path strict json => do
    let report ← Workspace.validate S path (strict || settings.strict)
    return reportOutcome path json report
  | .create path force => do
    Workspace.create S path force
    return .line ("created " ++ path)
  | .add path data => do
    return .line (← Workspace.add S now path data)
  | .update path id data => do
    let e ← Workspace.update S now path id data
    return .line (e.id ++ " v" ++ toString e.version)
  | .connect path source target look => do
    return .line (← Workspace.connect S now path source target look)

variable (S) in
/-- Carries out a command under the settings of an environment. -/
def Command.run (now : Int64) (env : Environment) (command : Command) : StateT G m Outcome :=
  match Settings.ofEnvironment env with
  | .error e => return .failure e.message
  | .ok settings => do
    match ← (command.perform S now settings).run with
    | .ok outcome => return outcome
    | .error e => return .failure e.message

/-! ## Command lines -/

/-- The file that adds to the environment. -/
def environmentFileName : String := ".env"

/-- An environment with what the environment file adds. -/
def fullEnvironment (env : Environment) : m Environment := do
  match ← FileAccess.nearest environmentFileName with
  | none => return env
  | some content => return env.withFile content

variable (S) in
/-- Carries out a command line. -/
def run (now : Int64) (env : Environment) (arguments : List String) : StateT G m Outcome := do
  let env ← StateT.lift (fullEnvironment env)
  match readArguments arguments with
  | .error stop => return stop.outcome
  | .ok command => command.run S now env

end Whiteboard.CommandLine
