import Whiteboard.Chain.Compilation

/-!
# Whiteboard — commands

What a user can ask for, and what is said when a command line asks for nothing
sensible.
-/

namespace Whiteboard.CommandLine

open Chain (Direction Theme)
open Drawing (ConnectorLook)

/-- A command with its operands and options. -/
inductive Command where
  | compile (input output : String) (direction : Option Direction) (spacing : Option UInt32)
      (theme : Option Theme) (force : Bool)
  | validate (path : String) (strict json : Bool)
  | create (path : String) (force : Bool)
  | add (path data : String)
  | update (path id data : String)
  | connect (path source target : String) (look : ConnectorLook)
  deriving DecidableEq, Repr

/-- A question about the program itself. -/
inductive Notice where
  | help | version
  deriving DecidableEq, Repr

/-- The version of the program. -/
def programVersion : String := "0.1.0"

def Notice.text : Notice → String
  | .version => Drawing.programName ++ " " ++ programVersion ++ "\n"
  | .help => "Usage: " ++ Drawing.programName ++
    " [--verbose] [--log-level LEVEL] COMMAND\n\n" ++
    "  compile INPUT --output PATH [--direction D] [--spacing N] [--style S] [--force]\n" ++
    "  validate PATH [--strict] [--json]\n" ++
    "  new PATH [--force]\n" ++
    "  add PATH --data JSON\n" ++
    "  update PATH ID --data JSON\n" ++
    "  connect PATH FROM TO [--line] [--dashed]\n"

/-- Why a command line makes no sense. -/
inductive UsageError where
  | noCommand
  | unknownCommand (word : String)
  | unknownSwitch (word : String)
  | repeatedSwitch (name : String)
  | missingValue (name : String)
  | unexpectedValue (name : String)
  | invalidValue (name value : String)
  | unexpectedOperand (word : String)
  | incomplete (command : String)
  deriving DecidableEq, Repr

def UsageError.message : UsageError → String
  | .noCommand => "a command is required"
  | .unknownCommand word => "unknown command: " ++ word
  | .unknownSwitch word => "unknown option: " ++ word
  | .repeatedSwitch name => "option given more than once: --" ++ name
  | .missingValue name => "a value is required for " ++ name
  | .unexpectedValue name => "no value is taken by --" ++ name
  | .invalidValue name value => "invalid value for " ++ name ++ ": " ++ value
  | .unexpectedOperand word => "unexpected argument: " ++ word
  | .incomplete command => "arguments are missing for " ++ command

end Whiteboard.CommandLine
