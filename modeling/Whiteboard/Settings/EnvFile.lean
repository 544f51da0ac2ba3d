import Whiteboard.Settings.Environment
import Whiteboard.Text.Alphanumeric

/-!
# Whiteboard — environment files

An environment file sets variables, one a line, for a program that finds them
unset:

    # comment
    export NAME=value   # comment
    OTHER='as it stands' "with ${NAME} filled in"

It is read in three steps:

* `logicalLines` — lines are joined where a quotation or an escape goes on, and
  cut where a comment begins;
* `Assignment.ofLine` — a line becomes a name and a value with references to
  other variables;
* `Environment.assign` — a value is filled in and set, unless the variable has a
  value already.

Reading stops at the first line that makes no sense; what stands before counts.
-/

namespace Whiteboard

namespace EnvFile

/-! ## Lines -/

/-- The bytes of each line, with the newline that ends it. -/
def byteLines : List UInt8 → List (List UInt8)
  | [] => []
  | b :: bs =>
    if b = 10 then [b] :: byteLines bs
    else
      match byteLines bs with
      | [] => [[b]]
      | line :: lines => (b :: line) :: lines

/-- A byte order mark at the beginning says nothing. -/
def dropMark : List UInt8 → List UInt8
  | 0xEF :: 0xBB :: 0xBF :: bytes => bytes
  | bytes => bytes

/-- The lines of a file; those that are no UTF-8 have no text. -/
def textLines (content : ByteArray) : List (Option (List Char)) :=
  (byteLines (dropMark content.data.toList)).map fun line =>
    (String.fromUTF8? ⟨line.toArray⟩).map String.toList

/-- How the next character of a line is to be understood. -/
inductive Quoting where
  | plain
  /-- After a blank, where a comment may begin. -/
  | afterBlank
  | escape
  | strong | strongEscape
  | weak | weakEscape
  deriving DecidableEq, Repr

namespace Quoting

/-- After a character that stands outside quotations. -/
def opening (c : Char) : Quoting :=
  if c = '\\' then .escape
  else if c = '"' then .weak
  else if c = '\'' then .strong
  else .plain

/-- After one more character. -/
def next (q : Quoting) (c : Char) : Quoting :=
  match q with
  | .plain => if Text.isBlank c ∧ c ≠ '\n' ∧ c ≠ '\r' then .afterBlank else opening c
  | .afterBlank => opening c
  | .escape => .plain
  | .strong => if c = '\\' then .strongEscape else if c = '\'' then .plain else .strong
  | .strongEscape => .strong
  | .weak => if c = '\\' then .weakEscape else if c = '"' then .plain else .weak
  | .weakEscape => .weak

/-- A line up to the comment that ends it, and how it goes on if none does. -/
def scan (q : Quoting) : List Char → List Char × Option Quoting
  | [] => ([], some q)
  | c :: cs =>
    if q = .afterBlank ∧ c = '#' then ([], none)
    else
      let rest := scan (q.next c) cs
      (c :: rest.1, rest.2)

end Quoting

/-- A line without the newline that ends it. -/
def dropNewline (line : List Char) : List Char :=
  match line.reverse with
  | '\n' :: '\r' :: rest => rest.reverse
  | '\n' :: rest => rest.reverse
  | _ => line

/-- Whether a line is nothing but a comment. -/
def isComment (line : List Char) : Bool := (Text.skipBlanks line).head? == some '#'

/-- The logical lines of a file, after some text that is still open. The last is
missing where the file cannot be read on. -/
def joined (held : List Char) (q : Quoting) :
    List (Option (List Char)) → List (Option (List Char))
  -- what is still open at the end is never closed
  | [] => if q = .plain then [] else [none]
  | none :: _ => [none]
  | some line :: lines =>
    -- quotes in a comment open nothing
    if isComment (held ++ line) then some [] :: joined [] .plain lines
    else
      match q.scan line with
      | (kept, none) => some (held ++ kept) :: joined [] .plain lines
      | (kept, some .plain) => some (dropNewline (held ++ kept)) :: joined [] .plain lines
      | (kept, some open') => joined (held ++ kept) open' lines

/-- The logical lines of a file. -/
def logicalLines (content : ByteArray) : List (Option (List Char)) :=
  joined [] .plain (textLines content)

/-! ## Values -/

/-- A piece of a value. -/
inductive Piece where
  | character (c : Char)
  | reference (name : String)
  deriving DecidableEq, Repr

/-- How the next character of a value is to be understood. In a name, the
characters read are held in reverse; `quoted` says whether a quotation is open. -/
inductive Mode where
  | plain
  | strong
  | weak
  | escape (quoted : Bool)
  | name (quoted : Bool) (read : List Char)
  | bracedName (quoted : Bool) (read : List Char)
  /-- After an unquoted blank. -/
  | finished
  | comment
  deriving DecidableEq, Repr

namespace Mode

/-- Outside names and escapes. -/
def outside (quoted : Bool) : Mode := if quoted then .weak else .plain

/-- The reference to a name that was read. -/
def reference (read : List Char) : Piece := .reference (String.ofList read.reverse)

/-- The character that an escape stands for. -/
def escaped? (c : Char) : Option Char :=
  if ['\\', '\'', '"', '$', ' '].contains c then some c
  else if c = 'n' then some '\n'
  else none

/-- After a character outside quotations. -/
def fromPlain (c : Char) : Mode × List Piece :=
  if c = '$' then (.name false [], [])
  else if c = '\'' then (.strong, [])
  else if c = '"' then (.weak, [])
  else if c = '\\' then (.escape false, [])
  else if c = ' ' ∨ c = '\t' then (.finished, [])
  else (.plain, [.character c])

/-- After a character between double quotes. -/
def fromWeak (c : Char) : Mode × List Piece :=
  if c = '$' then (.name true [], [])
  else if c = '"' then (.plain, [])
  else if c = '\\' then (.escape true, [])
  else (.weak, [.character c])

/-- After a character that may belong to a name. The one that ends a name counts
as itself, whatever it is. -/
def fromName (quoted : Bool) (read : List Char) (c : Char) : Mode × List Piece :=
  if Text.isAlphanumeric c then (.name quoted (c :: read), [])
  else if c = '\x7b' ∧ read.isEmpty then (.bracedName quoted [], [])
  else if c = '$' then (.name quoted [], [reference read])
  else (outside quoted, [reference read, .character c])

/-- After one more character: the mode and what the character adds. -/
def next? (mode : Mode) (c : Char) : Option (Mode × List Piece) :=
  match mode with
  | .plain => some (fromPlain c)
  | .strong => some (if c = '\'' then (.plain, []) else (.strong, [.character c]))
  | .weak => some (fromWeak c)
  | .escape quoted => (escaped? c).map fun c => (outside quoted, [.character c])
  | .name quoted read => some (fromName quoted read c)
  | .bracedName quoted read =>
    some (if c = '\x7d' then (outside quoted, [reference read])
      else (.bracedName quoted (c :: read), []))
  | .finished =>
    if c = ' ' ∨ c = '\t' then some (.finished, [])
    else if c = '#' then some (.comment, [])
    else none
  | .comment => some (.comment, [])

/-- What the end of the value adds, unless something is still open. -/
def last? : Mode → Option (List Piece)
  | .plain | .finished | .comment | .escape false => some []
  | .name false read => some [reference read]
  | .strong | .weak | .escape true | .name true _ | .bracedName .. => none

/-- The pieces of a value that goes on in a mode. -/
def pieces? (mode : Mode) : List Char → Option (List Piece)
  | [] => mode.last?
  | c :: cs =>
    match mode.next? c with
    | none => none
    | some (next, added) => (pieces? next cs).map (added ++ ·)

end Mode

/-! ## Assignments -/

/-- A variable and the value that it shall have. -/
structure Assignment where
  name : String
  value : List Piece
  deriving DecidableEq, Repr

/-- What a line says. -/
inductive Line where
  | nothing
  | assignment (a : Assignment)
  | malformed
  deriving DecidableEq, Repr

namespace Assignment

/-- Letters, digits, underscores and dots make names. -/
def isNameChar (c : Char) : Bool := c.isAlphanum || c == '_' || c == '.'

/-- The name at the beginning and what follows it and the blanks after it. A name
begins with a letter or an underscore. -/
def name? (cs : List Char) : Option (List Char × List Char) :=
  match cs with
  | [] => none
  | c :: _ =>
    if c.isAlpha || c == '_' then
      some (cs.takeWhile isNameChar, Text.skipBlanks (cs.dropWhile isNameChar))
    else none

/-- What follows the sign between a name and its value, and the blanks after it. -/
def afterSign? : List Char → Option (List Char)
  | '=' :: cs => some (Text.skipBlanks cs)
  | _ => none

/-- The name that is set and the text of its value. The word `export` before a name
says nothing, but it is a name itself where the sign follows. -/
def split? (line : List Char) : Option (List Char × List Char) := do
  let (name, rest) ← name? line
  match afterSign? rest with
  | some value => return (name, value)
  | none =>
    if name = "export".toList then
      let (name, rest) ← name? rest
      return (name, ← afterSign? rest)
    else none

/-- The pieces of the text of a value. -/
def value? (text : List Char) : Option (List Piece) :=
  if text.isEmpty || text.head? == some '#' then some [] else Mode.pieces? .plain text

/-- What a line says. -/
def ofLine (line : List Char) : Line :=
  let content := Text.trimmed line
  if content.isEmpty || content.head? == some '#' then .nothing
  else
    let assignment? : Option Assignment := do
      let (name, text) ← split? content
      return ⟨String.ofList name, ← value? text⟩
    match assignment? with
    | some a => .assignment a
    | none => .malformed

end Assignment

/-- The assignments of lines up to the first that makes no sense. -/
def assignmentsOf : List (Option (List Char)) → List Assignment
  | [] | none :: _ => []
  | some line :: lines =>
    match Assignment.ofLine line with
    | .nothing => assignmentsOf lines
    | .assignment a => a :: assignmentsOf lines
    | .malformed => []

/-- The assignments of a file up to the first line that makes no sense. -/
def assignments (content : ByteArray) : List Assignment := assignmentsOf (logicalLines content)

/-- The variables that an assignment sets or refers to. -/
def Assignment.names (a : Assignment) : List String :=
  a.name :: a.value.filterMap fun
    | .reference name => some name
    | .character _ => none

end EnvFile

namespace Environment

open EnvFile (Piece Assignment)

/-- The text of a piece; a variable without a value is empty. -/
def fill (env : Environment) : Piece → String
  | .character c => String.singleton c
  | .reference name => (env.get? name).getD ""

/-- An assignment sets a variable that has no value yet, be it a blank one. -/
def assign (env : Environment) (a : Assignment) : Environment :=
  if (env.get? a.name).isSome then env
  else env ++ [(a.name, String.join (a.value.map env.fill))]

/-- The environment with the variables of an environment file. -/
def withFile (env : Environment) (content : ByteArray) : Environment :=
  (EnvFile.assignments content).foldl assign env

end Environment

end Whiteboard
