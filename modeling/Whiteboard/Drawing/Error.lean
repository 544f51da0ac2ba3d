import Whiteboard.Drawing.Kind

/-!
# Whiteboard — what can go wrong in a drawing
-/

namespace Whiteboard.Drawing

inductive Error where
  /-- A draft names no kind that can be drafted. -/
  | unknownKind (name : String)
  /-- An element that is neither a line nor an arrow was to connect others. -/
  | notConnector (id : String) (kind : Kind)
  | elementNotFound (id : String)
  | selfConnection (id : String)
  deriving DecidableEq, Repr

/-- What a user is told. -/
def Error.message : Error → String
  | .unknownKind name => "unknown element kind: " ++ name
  | .notConnector id kind =>
    "element " ++ id ++ " is a " ++ Named.name kind ++ ", not a line or arrow"
  | .elementNotFound id => "element not found: " ++ id
  | .selfConnection id => "cannot connect element " ++ id ++ " to itself"

end Whiteboard.Drawing
