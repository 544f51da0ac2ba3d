import Whiteboard.Drawing.Error

/-!
# Whiteboard — what can go wrong with a chain diagram
-/

namespace Whiteboard.Chain

inductive Error where
  | emptyDiagram
  | unknownDirection (name : String)
  | unknownTheme (name : String)
  /-- An edge names a place at which no node stands. -/
  | missingNode (source target : Nat)
  | drawing (cause : Drawing.Error)
  deriving DecidableEq, Repr

/-- What a user is told. -/
def Error.message : Error → String
  | .emptyDiagram => "diagram contains no nodes"
  | .unknownDirection name =>
    "unknown direction: " ++ name ++ " (expected horizontal or vertical)"
  | .unknownTheme name => "unknown style preset: " ++ name
  | .missingNode source target =>
    "edge " ++ toString source ++ " -> " ++ toString target ++ " references a missing node"
  | .drawing cause => cause.message

end Whiteboard.Chain
