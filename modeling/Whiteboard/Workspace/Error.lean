import Whiteboard.Chain.Error

/-!
# Whiteboard — what can go wrong with files
-/

namespace Whiteboard.Workspace

inductive Error where
  /-- A file that cannot be read as a text, or not be written. -/
  | inaccessible (path : String)
  /-- A file that holds no document. -/
  | malformed (path : String)
  /-- A description of an element or of a change that makes no sense. -/
  | invalidData
  | outputExists (path : String)
  | chain (cause : Chain.Error)
  | drawing (cause : Drawing.Error)
  deriving DecidableEq, Repr

/-- What a user is told. -/
def Error.message : Error → String
  | .inaccessible path => path ++ ": cannot be read or written"
  | .malformed path => path ++ ": invalid JSON"
  | .invalidData => "invalid --data payload"
  | .outputExists path => path ++ " already exists; pass --force to overwrite"
  | .chain cause => cause.message
  | .drawing cause => cause.message

end Whiteboard.Workspace
