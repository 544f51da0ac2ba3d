import Std.Time.DateTime.Timestamp
import Whiteboard.CommandLine.Run
import Whiteboard.Drawing.RandomIds

/-!
# Whiteboard — the program

The program runs a command line on real files, with the clock, random identities
and the environment of the process.
-/

namespace Whiteboard

/-! ## Files -/

/-- The outcome of an action that may fail. -/
def attempt? {α : Type} (act : IO α) : IO (Option α) := do
  try return some (← act)
  catch _ => return none

/-- Whether an action succeeds. -/
def succeeds (act : IO Unit) : IO Bool := return (← attempt? act).isSome

/-- The content of the first file that can be read. -/
def firstOf : List String → IO (Option ByteArray)
  | [] => return none
  | path :: paths => do
    match ← attempt? (IO.FS.readBinFile path) with
    | some content => return some content
    | none => firstOf paths

/-- The paths of a name in the working directory and those above it. -/
def upwardPaths (name : String) : IO (List String) := do
  let depth := ((toString (← IO.currentDir)).toList.filter (· == '/')).length
  return (List.range (depth + 1)).map fun n => String.join (List.replicate n "../") ++ name

instance : Workspace.FileAccess IO where
  read path := attempt? (IO.FS.readBinFile path)
  isPresent path := return (← attempt? (IO.FS.realPath path)).isSome
  write path content := succeeds (IO.FS.writeBinFile path content)
  rename path target := succeeds (IO.FS.rename path target)
  nearest name := do firstOf (← upwardPaths name)
  standardInput := do attempt? (← IO.getStdin).readBinToEnd

/-! ## Surroundings -/

/-- The variables of the process among some names. -/
def processEnvironment : List String → IO Environment
  | [] => return []
  | name :: names => do
    let rest ← processEnvironment names
    match ← IO.getEnv name with
    | some value => return (name, value) :: rest
    | none => return rest

/-- The variables that a command line can depend on. -/
def relevantVariables : IO (List String) := do
  let content? ← Workspace.FileAccess.nearest CommandLine.environmentFileName
  let assignments := (content?.map EnvFile.assignments).getD []
  return [Settings.directionVariable, Settings.spacingVariable, Settings.themeVariable,
    Settings.strictVariable] ++ assignments.flatMap EnvFile.Assignment.names

/-- Milliseconds since 1970. -/
def currentTime : IO Int64 := do
  let now ← Std.Time.Timestamp.now
  return Int64.ofInt now.toMillisecondsSinceUnixEpoch.toInt

/-- A source of random identities. -/
def randomIds : IO Drawing.RandomIds := do
  let bytes ← IO.getRandomBytes 16
  return .ofSeed (bytes.data.foldl (fun n b => 256 * n + b.toNat) 0)

end Whiteboard

open Whiteboard in
def main (arguments : List String) : IO UInt32 := do
  let env ← processEnvironment (← relevantVariables)
  let work := CommandLine.run (m := IO) (G := Drawing.RandomIds) Float (← currentTime) env arguments
  let (outcome, _) ← work.run (← randomIds)
  (← IO.getStdout).putStr outcome.output
  (← IO.getStderr).putStr outcome.complaint
  return outcome.exit.code.toUInt32
