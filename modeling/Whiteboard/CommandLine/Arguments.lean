import Whiteboard.CommandLine.Command
import Whiteboard.Number.Whole

/-!
# Whiteboard — command lines

A command line is a list of words: switches of the program, the name of a command,
then switches and operands of the command in any order.

* A long switch is `--name`, with a value as `--name=value` or in the next word. A
  short one is a letter after a dash; letters may be joined, and the last may have
  its value behind it or in the next word.
* A value in a word of its own does not begin with a dash, unless it is the dash.
* After `--` every word is an operand.
* A switch stands once on either side of the name of the command.

Words are judged from left to right, and the first that makes no sense or asks
about the program itself decides.
-/

namespace Whiteboard.CommandLine

open Chain (Direction Theme)

/-- What the words of a command have said. -/
structure Form where
  operands : List String := []
  output : Option String := none
  direction : Option Direction := none
  spacing : Option UInt32 := none
  theme : Option Theme := none
  data : Option String := none
  force : Bool := false
  strict : Bool := false
  json : Bool := false
  line : Bool := false
  dashed : Bool := false
  deriving DecidableEq, Repr

/-- What a switch does. -/
inductive Effect where
  | mark (set : Form → Form)
  /-- Takes a value, which it may refuse. -/
  | take (set : String → Form → Option Form)
  | ask (notice : Notice)

structure Switch where
  name : String
  letter : Option Char
  effect : Effect

/-- What an operand may be. -/
inductive Operand where
  | text
  /-- A path is not empty. -/
  | path
  deriving DecidableEq, Repr

def Operand.accepts : Operand → String → Bool
  | .text, _ => true
  | .path, s => !s.isEmpty

/-! ## Switches -/

namespace Switch

/-- A path as the value of a switch. -/
def path? (s : String) : Option String := if Operand.path.accepts s then some s else none

/-- The spacing that a user writes; minus zero is zero. -/
def spacing? (s : String) : Option UInt32 :=
  match s.toList with
  | '-' :: d :: ds => if (d :: ds).all (· == '0') then some 0 else none
  | _ => (readUInt32 s).toOption

def help : Switch := ⟨"help", some 'h', .ask .help⟩

def version : Switch := ⟨"version", some 'V', .ask .version⟩

/-- Diagnostics do not show in what a command answers. -/
def verbose : Switch := ⟨"verbose", some 'v', .mark id⟩

def logLevel : Switch := ⟨"log-level", none, .take fun _ form => some form⟩

def output : Switch := ⟨"output", some 'o', .take fun s form =>
  (path? s).map fun path => { form with output := some path }⟩

def direction : Switch := ⟨"direction", none, .take fun s form =>
  (Direction.ofUserName s).toOption.map fun direction =>
    { form with direction := some direction }⟩

def spacing : Switch := ⟨"spacing", none, .take fun s form =>
  (spacing? s).map fun spacing => { form with spacing := some spacing }⟩

def theme : Switch := ⟨"style", none, .take fun s form =>
  (Theme.ofUserName s).toOption.map fun theme => { form with theme := some theme }⟩

def data : Switch := ⟨"data", none, .take fun s form => some { form with data := some s }⟩

def force : Switch := ⟨"force", none, .mark fun form => { form with force := true }⟩

def strict : Switch := ⟨"strict", none, .mark fun form => { form with strict := true }⟩

def json : Switch := ⟨"json", none, .mark fun form => { form with json := true }⟩

def line : Switch := ⟨"line", none, .mark fun form => { form with line := true }⟩

def dashed : Switch := ⟨"dashed", none, .mark fun form => { form with dashed := true }⟩

/-- The switches of the program before its command. -/
def ofProgram : List Switch := [verbose, logLevel, version, help]

/-- The switches of every command. -/
def ofCommands : List Switch := [verbose, logLevel, help]

end Switch

/-! ## Commands -/

/-- What a command takes, and the command that its words make. -/
structure Grammar where
  name : String
  switches : List Switch
  operands : List Operand
  command? : Form → Option Command

namespace Grammar

def compile : Grammar where
  name := "compile"
  switches := [.output, .direction, .spacing, .theme, .force]
  operands := [.text]
  command? form :=
    match form.operands, form.output with
    | [input], some output =>
      some (.compile input output form.direction form.spacing form.theme form.force)
    | _, _ => none

def validate : Grammar where
  name := "validate"
  switches := [.strict, .json]
  operands := [.path]
  command? form :=
    match form.operands with
    | [path] => some (.validate path form.strict form.json)
    | _ => none

def create : Grammar where
  name := "new"
  switches := [.force]
  operands := [.path]
  command? form :=
    match form.operands with
    | [path] => some (.create path form.force)
    | _ => none

def add : Grammar where
  name := "add"
  switches := [.data]
  operands := [.path]
  command? form :=
    match form.operands, form.data with
    | [path], some data => some (.add path data)
    | _, _ => none

def update : Grammar where
  name := "update"
  switches := [.data]
  operands := [.path, .text]
  command? form :=
    match form.operands, form.data with
    | [path, id], some data => some (.update path id data)
    | _, _ => none

def connect : Grammar where
  name := "connect"
  switches := [.line, .dashed]
  operands := [.path, .text, .text]
  command? form :=
    match form.operands with
    | [path, source, target] =>
      some (.connect path source target { plain := form.line, dashed := form.dashed })
    | _ => none

/-- The commands of the program. -/
def all : List Grammar := [compile, validate, create, add, update, connect]

/-- The grammar of a command. -/
def ofName? (name : String) : Option Grammar := all.find? fun g => g.name == name

end Grammar

/-! ## Reading -/

/-- What ends the reading of a command line early. -/
inductive Stop where
  | notice (n : Notice)
  | usage (e : UsageError)
  deriving DecidableEq, Repr

/-- How far the words of one side have been read. -/
structure Progress where
  form : Form := {}
  /-- The switches that were given. -/
  given : List String := []
  /-- The operands that may follow. -/
  operands : List Operand
  /-- The switch whose value the next word is, and what takes it. -/
  awaiting : Option (String × (String → Form → Option Form)) := none

namespace Progress

/-- Gives a switch its value. -/
def supply (p : Progress) (name : String) (set : String → Form → Option Form) (value : String) :
    Except Stop Progress :=
  match set value p.form with
  | some form => .ok { p with form, awaiting := none }
  | none => .error (.usage (.invalidValue ("--" ++ name) value))

/-- Reads a switch, with the value behind it if it has one. -/
def switch (p : Progress) (s : Switch) (value? : Option String) : Except Stop Progress :=
  if p.given.contains s.name then .error (.usage (.repeatedSwitch s.name))
  else
    let p := { p with given := s.name :: p.given }
    match s.effect, value? with
    | .ask notice, none => .error (.notice notice)
    | .mark set, none => .ok { p with form := set p.form }
    | .take set, none => .ok { p with awaiting := some (s.name, set) }
    | .take set, some value => p.supply s.name set value
    | .ask _, some _ | .mark _, some _ => .error (.usage (.unexpectedValue s.name))

/-- The value after an equals sign. -/
def afterEquals? : List Char → Option String
  | [] => none
  | _ :: value => some (String.ofList value)

/-- Reads what follows two dashes. -/
def long (p : Progress) (switches : List Switch) (body : List Char) : Except Stop Progress :=
  let name := String.ofList (body.takeWhile (· != '='))
  match switches.find? fun s => s.name == name with
  | some s => p.switch s (afterEquals? (body.dropWhile (· != '=')))
  | none => .error (.usage (.unknownSwitch ("--" ++ name)))

/-- The value behind a letter. -/
def behind? : List Char → Option String
  | [] => none
  | '=' :: value => some (String.ofList value)
  | value => some (String.ofList value)

/-- Reads the letters that follow one dash. -/
def letters (p : Progress) (switches : List Switch) : List Char → Except Stop Progress
  | [] => .ok p
  | c :: cs =>
    match switches.find? fun s => s.letter == some c with
    | none => .error (.usage (.unknownSwitch ("-" ++ String.singleton c)))
    | some s =>
      match s.effect with
      -- the letters behind a switch with a value are its value
      | .take _ => p.switch s (behind? cs)
      | .mark _ | .ask _ =>
        match p.switch s none with
        | .ok p => p.letters switches cs
        | .error stop => .error stop

/-- Reads an operand. -/
def operand (p : Progress) (word : String) : Except Stop Progress :=
  match p.operands with
  | [] => .error (.usage (.unexpectedOperand word))
  | o :: rest =>
    if o.accepts word then
      .ok { p with form := { p.form with operands := p.form.operands ++ [word] }, operands := rest }
    else .error (.usage (.invalidValue "an argument" word))

/-- Reads a word that begins with a dash, after it. No value begins so. -/
def dashed (p : Progress) (switches : List Switch) (body : List Char) : Except Stop Progress :=
  match p.awaiting, body with
  | some (name, _), _ => .error (.usage (.missingValue ("--" ++ name)))
  | none, '-' :: body => p.long switches body
  | none, body => p.letters switches body

/-- Reads a word. -/
def word (p : Progress) (switches : List Switch) (word : String) : Except Stop Progress :=
  match word.toList, p.awaiting with
  | '-' :: c :: cs, _ => p.dashed switches (c :: cs)
  | _, some (name, set) => p.supply name set word
  | _, none => p.operand word

/-- Reads the words of a command. -/
def words (p : Progress) (switches : List Switch) : List String → Except Stop Progress
  | [] => .ok p
  | w :: ws =>
    -- two dashes are no value, and a switch that waits for one is refused below
    if w = "--" ∧ p.awaiting.isNone then ws.foldlM operand p
    else
      match p.word switches w with
      | .ok p => p.words switches ws
      | .error stop => .error stop

end Progress

/-- The command that words after its name make. -/
def Grammar.read (g : Grammar) (words : List String) : Except Stop Command := do
  let p ← Progress.words { operands := g.operands } (g.switches ++ Switch.ofCommands) words
  match p.awaiting, g.command? p.form with
  | some (name, _), _ => throw (.usage (.missingValue ("--" ++ name)))
  | none, some command => return command
  | none, none => throw (.usage (.incomplete g.name))

/-- The answer to the word `help` and those after it. -/
def readHelp : List String → Stop
  | [] => .notice .help
  | [name] =>
    if name = "help" ∨ (Grammar.ofName? name).isSome then .notice .help
    else .usage (.unknownCommand name)
  | name :: _ => .usage (.unknownCommand name)

/-- The command that a word and those after it ask for. -/
def readCommand (name : String) (words : List String) : Except Stop Command :=
  if name = "help" then .error (readHelp words)
  else
    match Grammar.ofName? name with
    | some g => g.read words
    | none => .error (.usage (.unknownCommand name))

/-- The command that words ask for after those that were read. -/
def readWords (p : Progress) : List String → Except Stop Command
  | [] => .error (.usage .noCommand)
  | w :: ws =>
    if w.toList.head? = some '-' ∨ p.awaiting.isSome then
      match p.word Switch.ofProgram w with
      | .ok p => readWords p ws
      | .error stop => .error stop
    else readCommand w ws

/-- The command that a command line asks for. -/
def readArguments (words : List String) : Except Stop Command :=
  readWords { operands := [] } words

end Whiteboard.CommandLine
