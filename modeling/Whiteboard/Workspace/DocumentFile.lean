import Whiteboard.Audit.Document
import Whiteboard.Chain.Compilation
import Whiteboard.Drawing.Counts
import Whiteboard.Drawing.Reading
import Whiteboard.Drawing.Wire
import Whiteboard.Workspace.Error
import Whiteboard.Workspace.FileAccess

/-!
# Whiteboard — documents in files

The operations that read a document from a file, change it and write it back.

* A document is read as a whole and written as a whole, under a name beside its
  own that then takes the place of the file. No failure leaves half a document.
* What a caller hands in is judged before the file is read, and nothing is written
  unless the operation succeeds.
-/

namespace Whiteboard.Workspace

open Drawing (Counts Document Draft Element IdSource Revision ConnectorLook)

/-- Work on files that draws identities and may fail. -/
abbrev Work (m : Type → Type) (G : Type) (α : Type) := ExceptT Error (StateT G m) α

variable {m : Type → Type} [Monad m] {G : Type} {α : Type}

/-! ## Lifting -/

/-- Work that only reaches files. -/
def onFiles (act : m α) : Work m G α := ExceptT.lift (StateT.lift act)

/-- The outcome of work that draws identities. -/
def onIdentities {ε : Type} (cause : ε → Error) (act : ExceptT ε (StateM G) α) : Work m G α :=
  ExceptT.mk fun g => pure ((act.run.run g).1.mapError cause, (act.run.run g).2)

/-- Something that must be there. -/
def require (e : Error) : Option α → Work m G α
  | some a => pure a
  | none => throw e

/-! ## Reading and writing -/

variable [FileAccess m]

/-- The content of a file as a text. -/
def readText (path : String) : Work m G String := do
  let content ← onFiles (FileAccess.read path)
  require (.inaccessible path) (content.bind String.fromUTF8?)

/-- The path that stands for standard input. -/
def standardInputPath : String := "-"

/-- The text of a file or of standard input. -/
def readSource (path : String) : Work m G String :=
  if path = standardInputPath then do
    let content ← onFiles FileAccess.standardInput
    require (.inaccessible path) (content.bind String.fromUTF8?)
  else readText path

/-- Where a document is written before it takes the place of a file. -/
def temporaryPath (path : String) : String := path ++ ".tmp"

/-- Refuses to go on where something stands already, unless forced. -/
def requireFree (path : String) (force : Bool) : Work m G Unit := do
  if !force then
    if ← onFiles (FileAccess.isPresent path) then
      throw (.outputExists path)

variable {S : Type} [Scalar S] [Numeral S]

/-- The text of a document in a file. -/
def documentText (d : Document S) : String := d.toJson.pretty ++ "\n"

/-- Puts a document into a file. -/
def writeDocument (path : String) (d : Document S) : Work m G Unit := do
  if !(← onFiles (FileAccess.write (temporaryPath path) (documentText d).toUTF8)) then
    throw (.inaccessible (temporaryPath path))
  -- only now is the file itself touched
  if !(← onFiles (FileAccess.rename (temporaryPath path) path)) then
    throw (.inaccessible path)

variable (S)

/-- The document in a file. -/
def readDocument (path : String) : Work m G (Document S) := do
  require (.malformed path) (Document.read? (← readText path))

/-! ## Operations -/

/-- Creates an empty document. -/
def create (path : String) (force : Bool) : Work m G Unit := do
  requireFree path force
  writeDocument path (.empty : Document S)

/-- The report on the document in a file. Under strictness warnings are errors. -/
def validate (path : String) (strict : Bool) : Work m G (Audit.Report S) := do
  let v ← require (.malformed path) (Json.read? (S := S) (← readText path))
  let report := Audit.document v
  return if strict then report.strict else report

variable [IdSource G]

/-- Draws a chain diagram into a new document. -/
def compile (now : Int64) (input path : String) (options : Chain.Options) (force : Bool) :
    Work m G Counts := do
  let source ← readSource input
  requireFree path force
  let d : Document S ← onIdentities .chain (Chain.compile now options source)
  writeDocument path d
  return d.counts

/-- Puts the element that a text describes on top of the document in a file, and
gives its id. -/
def add (now : Int64) (path data : String) : Work m G String := do
  let draft : Draft S ← require .invalidData (Draft.read? data)
  let d ← readDocument S path
  let e ← onIdentities .drawing (draft.create now)
  writeDocument path (d.push e)
  return e.id

/-- Revises an element of the document in a file, as a text asks. -/
def update (now : Int64) (path id data : String) : Work m G (Element S) := do
  let u : Revision S ← require .invalidData (Revision.read? data)
  let d ← readDocument S path
  let (e, revised) ← onIdentities .drawing (d.revise now id u)
  writeDocument path revised
  return e

/-- Connects two elements of the document in a file, and gives the id of the
connector. -/
def connect (now : Int64) (path source target : String) (look : ConnectorLook) :
    Work m G String := do
  let d ← readDocument S path
  let (id, connected) ← onIdentities .drawing (d.connect now source target look)
  writeDocument path connected
  return id

end Whiteboard.Workspace
