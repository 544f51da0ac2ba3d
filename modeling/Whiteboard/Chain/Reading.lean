import Whiteboard.Chain.Diagram
import Whiteboard.Chain.Error
import Whiteboard.Text.Blank

/-!
# Whiteboard — reading chain diagrams

A source is cut at its connectors. A connector takes with it the blanks that
follow it and, if a quoted label follows those, the label, the blanks after it
and one more connector. The texts between the cuts are the nodes:

* a blank text is no node;
* the last connector before a node joins it to the node before;
* connectors before the first node and after the last one join nothing.

A source without any node is not a diagram.
-/

namespace Whiteboard.Chain

open Text (isBlank skipBlanks length_skipBlanks_le)

/-- A connector with the label written on it. -/
structure Link where
  style : LinkStyle
  label : Option String
  deriving DecidableEq, Repr

/-! ## Connectors -/

/-- The connector at the head of a text and what follows it. -/
def connector? : List Char → Option (LinkStyle × List Char)
  | '-' :: '-' :: '>' :: rest => some (.dashedArrow, rest)
  | '-' :: '>' :: rest => some (.arrow, rest)
  | '-' :: '-' :: rest => some (.line, rest)
  | _ => none

theorem length_of_connector? {cs rest : List Char} {style : LinkStyle}
    (h : connector? cs = some (style, rest)) : rest.length < cs.length := by
  unfold connector? at h
  split at h <;> simp_all
  all_goals omega

/-- What follows an optional connector. -/
def skipConnector (cs : List Char) : List Char :=
  match connector? cs with
  | some (_, rest) => rest
  | none => cs

theorem length_skipConnector_le (cs : List Char) : (skipConnector cs).length ≤ cs.length := by
  unfold skipConnector
  split
  · rename_i h
    exact Nat.le_of_lt (length_of_connector? h)
  · exact Nat.le_refl _

/-- The quoted text at the head and what follows its closing quote. -/
def quoted? : List Char → Option (List Char × List Char)
  | '"' :: rest =>
    match rest.dropWhile (· != '"') with
    | _ :: after => some (rest.takeWhile (· != '"'), after)
    | [] => none
  | _ => none

theorem length_of_quoted? {cs label after : List Char} (h : quoted? cs = some (label, after)) :
    after.length < cs.length := by
  unfold quoted? at h
  split at h
  · rename_i rest
    split at h
    · rename_i hd
      have hle := (List.dropWhile_suffix (l := rest) (· != '"')).length_le
      rw [hd] at hle
      simp_all
      omega
    · simp at h
  · simp at h

/-- The connector at the head with its label, and what follows both. -/
def link? (cs : List Char) : Option (Link × List Char) :=
  match connector? cs with
  | none => none
  | some (style, rest) =>
    match quoted? (skipBlanks rest) with
    | none => some (⟨style, none⟩, skipBlanks rest)
    | some (label, after) =>
      some (⟨style, some (String.ofList label)⟩, skipConnector (skipBlanks after))

theorem length_of_link? {cs rest : List Char} {link : Link} (h : link? cs = some (link, rest)) :
    rest.length < cs.length := by
  unfold link? at h
  split at h
  · simp at h
  · rename_i style after hc
    have h1 := length_of_connector? hc
    have h2 := length_skipBlanks_le after
    split at h
    · simp at h
      obtain ⟨-, rfl⟩ := h
      omega
    · rename_i label tail hq
      have h3 := length_of_quoted? hq
      have h4 := length_skipBlanks_le tail
      have h5 := length_skipConnector_le (skipBlanks tail)
      simp at h
      obtain ⟨-, rfl⟩ := h
      omega

/-! ## Cutting -/

/-- A source cut at its connectors: a text, then connectors each with the text
that follows. -/
structure Cut where
  first : List Char
  others : List (Link × List Char)

/-- Cuts a source at every connector, from left to right. -/
def cut : List Char → Cut
  | [] => ⟨[], []⟩
  | c :: cs =>
    match h : link? (c :: cs) with
    | some (link, rest) =>
      have := length_of_link? h
      -- the text before this connector ends here
      let more := cut rest
      ⟨[], (link, more.first) :: more.others⟩
    | none =>
      -- no connector begins here, so the character belongs to the text
      let more := cut cs
      ⟨c :: more.first, more.others⟩
termination_by cs => cs.length
decreasing_by all_goals (simp only [List.length_cons] at *; omega)

/-! ## Nodes -/

/-- The text between an opening and a closing bracket. -/
def between? (opening closing : Char) : List Char → Option (List Char)
  | c :: cs =>
    if c = opening ∧ cs.getLast? = some closing then some cs.dropLast else none
  | [] => none

/-- A text without blanks at its ends as a node: the first pair of brackets that
encloses it sets the kind, and a text without brackets is a rectangle. -/
def Node.ofText (cs : List Char) : Node :=
  let enclosed := NodeKind.all.findSome? fun kind =>
    (between? kind.brackets.1 kind.brackets.2 cs).map fun inner =>
      (⟨kind, String.ofList (Text.trimmed inner)⟩ : Node)
  enclosed.getD ⟨.rectangle, String.ofList cs⟩

/-- The nodes of a row of texts, each with the last connector before it. -/
def stops (pending : Option Link) (text : List Char) :
    List (Link × List Char) → List (Option Link × Node)
  | [] => if (Text.trimmed text).isEmpty then [] else [(pending, .ofText (Text.trimmed text))]
  | (link, next) :: others =>
    let rest := stops (some link) next others
    if (Text.trimmed text).isEmpty then rest
    else (pending, .ofText (Text.trimmed text)) :: rest

/-- Each node after the first is joined to the one before it. -/
def edgesOf (row : List (Option Link × Node)) : List Edge :=
  row.tail.zipIdx.filterMap fun ((link, _), i) =>
    link.map fun l => ⟨i, i + 1, l.label, l.style⟩

/-- The diagram of a row of nodes. -/
def Diagram.ofRow (row : List (Option Link × Node)) : Diagram := ⟨row.map Prod.snd, edgesOf row⟩

/-- The row of nodes in a source. -/
def rowOf (source : List Char) : List (Option Link × Node) :=
  stops none (cut source).first (cut source).others

/-- The diagram that a source describes, if it has any node. -/
def Diagram.read (source : String) : Except Error Diagram :=
  match rowOf source.toList with
  | [] => .error .emptyDiagram
  | row => .ok (.ofRow row)

end Whiteboard.Chain
