import Whiteboard.Workspace.FileAccess

/-!
# Whiteboard — a workspace in memory

`Memory` is a tree of directories and files with a working directory and a
standard input. Paths lead through it as they do on disk: a name must stand in a
directory, `..` leads back, a path that ends in a slash or in dots can only name a
directory, and neither paths nor names grow without bound.
-/

namespace Whiteboard.Workspace

/-- The names on the way from the root to a file or a directory. -/
abbrev Location := List String

/-- A location and all above it, the nearest first. -/
def upward (l : Location) : List Location :=
  (List.range (l.length + 1)).reverse.map fun n => l.take n

/-- What stands at a location. -/
inductive Entry where
  | file (content : ByteArray)
  | directory

/-- The content, if it is a file. -/
def Entry.content? : Entry → Option ByteArray
  | .file content => some content
  | .directory => none

/-- What a path names. -/
structure Path where
  /-- Whether it starts at the root instead of the working directory. -/
  absolute : Bool
  /-- The names on its way, without those that lead nowhere. -/
  names : List String
  /-- Whether it names nothing but a directory. -/
  toDirectory : Bool
  deriving DecidableEq, Repr

namespace Path

/-- How many bytes a path may have. -/
def maxLength : Nat := 4095

/-- How many bytes a name may have. -/
def maxNameLength : Nat := 255

/-- The parts of a path between its slashes. -/
def parts : List Char → List (List Char)
  | [] => [[]]
  | c :: cs =>
    if c = '/' then [] :: parts cs
    else
      match parts cs with
      | [] => [[c]]
      | part :: rest => (c :: part) :: rest

/-- Parts that stay where they are. -/
def leadsNowhere (name : String) : Bool := name == "" || name == "."

/-- The path that a text spells. -/
def ofString? (s : String) : Option Path :=
  let names := (parts s.toList).map String.ofList
  if s.isEmpty ∨ s.contains '\x00' ∨ maxLength < s.utf8ByteSize then none
  else if names.any fun name => maxNameLength < name.utf8ByteSize then none
  else some
    { absolute := s.toList.head? == some '/'
      names := names.filter fun name => !leadsNowhere name
      toDirectory := (names.getLast?.map fun name => leadsNowhere name || name == "..").getD true }

end Path

structure Memory where
  /-- The entries below the root, each at its location. -/
  entries : List (Location × Entry)
  /-- The working directory. -/
  directory : Location
  /-- What standard input holds. -/
  input : ByteArray

namespace Memory

/-! ## Locations -/

/-- The entry at a location. -/
def entry? (m : Memory) (l : Location) : Option Entry :=
  (m.entries.find? fun e => e.1 == l).map Prod.snd

/-- The root is a directory. -/
def isDirectory (m : Memory) (l : Location) : Bool :=
  match l, m.entry? l with
  | [], _ | _, some .directory => true
  | _, _ => false

/-- The content of the file at a location. -/
def file? (m : Memory) (l : Location) : Option ByteArray :=
  (m.entry? l).bind Entry.content?

/-- The memory without an entry at a location. -/
def erase (m : Memory) (l : Location) : Memory :=
  { m with entries := m.entries.filter fun e => !(e.1 == l) }

/-- The memory with an entry at a location. -/
def put (m : Memory) (l : Location) (e : Entry) : Memory :=
  { m.erase l with entries := (m.erase l).entries ++ [(l, e)] }

/-- A memory with nothing but an empty working directory. -/
def inDirectory (directory : Location) : Memory where
  entries := (upward directory).dropLast.map fun l => (l, .directory)
  directory := directory
  input := .empty

/-! ## Paths -/

/-- The location that a name leads to. -/
def step (l : Location) (name : String) : Location :=
  if name == ".." then l.dropLast else l ++ [name]

/-- The location that names lead to; all but the last lead to directories. -/
def walk (m : Memory) (l : Location) : List String → Option Location
  | [] => some l
  | name :: names => if m.isDirectory l then m.walk (step l name) names else none

/-- The location that a path leads to, whether anything stands there or not. -/
def locate? (m : Memory) (path : Path) : Option Location :=
  m.walk (if path.absolute then [] else m.directory) path.names

/-- The location of a file that a path names or may come to name. -/
def place? (m : Memory) (path : String) : Option Location := do
  let path ← Path.ofString? path
  let l ← m.locate? path
  if path.toDirectory || m.isDirectory l then none else some l

/-! ## Calls -/

/-- The content of the file that a path names. -/
def read? (m : Memory) (path : String) : Option ByteArray := (m.place? path).bind m.file?

/-- Whether a path leads to a file or a directory. -/
def isPresent (m : Memory) (path : String) : Bool :=
  match Path.ofString? path with
  | none => false
  | some p =>
    match m.locate? p with
    | none => false
    | some l => m.isDirectory l || (!p.toDirectory && (m.file? l).isSome)

/-- The memory after a write. -/
def write? (m : Memory) (path : String) (content : ByteArray) : Option Memory :=
  (m.place? path).map fun l => m.put l (.file content)

/-- The memory after a file was moved. -/
def rename? (m : Memory) (path target : String) : Option Memory := do
  let old ← m.place? path
  -- the old entry goes first, so that a move onto itself keeps the file
  let content ← m.file? old
  let new ← m.place? target
  return (m.erase old).put new (.file content)

/-- The content of the file of a name in the lowest directory that has one, among
a directory and those above it, the nearest first. -/
def nearest? (m : Memory) (name : String) : Option ByteArray :=
  (upward m.directory).findSome? fun l => m.file? (l ++ [name])

/-- A call that changes the memory or fails. -/
def attempt (change : Memory → Option Memory) : StateM Memory Bool := fun m =>
  match change m with
  | some changed => (true, changed)
  | none => (false, m)

instance : FileAccess (StateM Memory) where
  read path := return (← get).read? path
  isPresent path := return (← get).isPresent path
  write path content := attempt fun m => m.write? path content
  rename path target := attempt fun m => m.rename? path target
  nearest name := return (← get).nearest? name
  standardInput := return some (← get).input

end Memory

end Whiteboard.Workspace
