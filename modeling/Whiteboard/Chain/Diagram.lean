import Whiteboard.Drawing.Kind

/-!
# Whiteboard — chain diagrams

A chain diagram is a row of nodes joined one to the next by edges, as in

    [Client] -> "request" -> (Server) --> {Cache?} -- <note>

This module holds what such a text says; reading it is in
`Whiteboard.Chain.Reading`.
-/

namespace Whiteboard.Chain

/-- The outline of a node, chosen by the brackets around its label. -/
inductive NodeKind where
  | rectangle | ellipse | diamond
  /-- A label without an outline. -/
  | textOnly
  deriving DecidableEq, Repr

instance : Named NodeKind where
  members := [.rectangle, .ellipse, .diamond, .textOnly]
  name
    | .rectangle => "rectangle"
    | .ellipse => "ellipse"
    | .diamond => "diamond"
    | .textOnly => "text_only"

/-- The kind of element that stands for a node. -/
def NodeKind.elementKind : NodeKind → Drawing.Kind
  | .rectangle => .rectangle
  | .ellipse => .ellipse
  | .diamond => .diamond
  | .textOnly => .text

/-- The brackets around a label of each kind. -/
def NodeKind.brackets : NodeKind → Char × Char
  | .rectangle => ('[', ']')
  | .ellipse => ('(', ')')
  | .diamond => ('\x7b', '\x7d')
  | .textOnly => ('<', '>')

/-- The kinds in the order in which their brackets are tried. -/
def NodeKind.all : List NodeKind := [.rectangle, .ellipse, .diamond, .textOnly]

structure Node where
  kind : NodeKind
  label : String
  deriving DecidableEq, Repr

/-- The three connectors. -/
inductive LinkStyle where
  | arrow | dashedArrow | line
  deriving DecidableEq, Repr

instance : Named LinkStyle where
  members := [.arrow, .dashedArrow, .line]
  name
    | .arrow => "arrow"
    | .dashedArrow => "dashed_arrow"
    | .line => "line"

/-- How a connector is written. -/
def LinkStyle.token : LinkStyle → String
  | .dashedArrow => "-->"
  | .arrow => "->"
  | .line => "--"

/-- The connector written exactly so. -/
def LinkStyle.ofToken? (s : String) : Option LinkStyle :=
  [LinkStyle.dashedArrow, .arrow, .line].find? fun style => style.token == s

def LinkStyle.isDashed : LinkStyle → Bool
  | .dashedArrow => true
  | _ => false

/-- An edge between two nodes, which are named by their places in the row. -/
structure Edge where
  source : Nat
  target : Nat
  label : Option String
  style : LinkStyle
  deriving DecidableEq, Repr

structure Diagram where
  nodes : List Node
  edges : List Edge
  deriving DecidableEq, Repr

end Whiteboard.Chain
