import Mathlib.Data.List.Forall2
import Whiteboard.Proofs.Chain.Splitting

/-!
# Whiteboard — what a source says

A source splits in exactly one way into texts and connectors. Here it is shown
which diagram that split stands for: the texts that are not blank are the nodes,
and each node after the first is joined to the one before it by the last
connector between them.

Main results:

* `spells_ofText` — a node's kind and label are read off the ends of its text.
* `isChain_of_read` — the diagram of a source is a chain: its edges join each
  node to the next one, and there is one fewer than there are nodes.
* `read_of_split` — reading a source agrees with its split, and fails exactly
  when every text of the split is blank.
-/

namespace Whiteboard.Chain

open Text (AllBlank TrimsTo isBlank trimmed trimsTo_trimmed trimmed_eq_nil_iff)

instance : DecidablePred AllBlank := fun cs =>
  inferInstanceAs (Decidable (∀ c ∈ cs, isBlank c = true))

/-! ## Nodes -/

/-- `Spells text node`: a text without blanks at its ends says that there is this
node. The first and the last character decide on the kind; without a pair of
brackets the whole text is the label of a rectangle. -/
inductive Spells : List Char → Node → Prop where
  | enclosed (kind : NodeKind) {inner label : List Char} (trims : TrimsTo inner label) :
      Spells (kind.brackets.1 :: (inner ++ [kind.brackets.2])) ⟨kind, String.ofList label⟩
  | bare {text : List Char}
      (unenclosed : ∀ (kind : NodeKind) inner,
        text ≠ kind.brackets.1 :: (inner ++ [kind.brackets.2])) :
      Spells text ⟨.rectangle, String.ofList text⟩

theorem between?_eq_some_iff {opening closing : Char} {cs inner : List Char} :
    between? opening closing cs = some inner ↔ cs = opening :: (inner ++ [closing]) := by
  cases cs with
  | nil => simp [between?]
  | cons c cs =>
    rw [between?]
    split
    · rename_i h
      obtain ⟨rfl, hlast⟩ := h
      have hsplit := List.dropLast_append_getLast? closing hlast
      constructor
      · intro h
        rw [← Option.some.inj h, hsplit]
      · intro h
        rw [(List.cons.inj h).2, List.dropLast_concat]
    · rename_i h
      constructor
      · intro h'
        cases h'
      · intro h'
        obtain ⟨rfl, rfl⟩ := List.cons.inj h'
        exact (h ⟨rfl, List.getLast?_concat⟩).elim

theorem NodeKind.mem_all (kind : NodeKind) : kind ∈ NodeKind.all := by
  cases kind <;> decide

/-- The kind and the label of a node are read off the ends of its text. -/
theorem spells_ofText (text : List Char) : Spells text (Node.ofText text) := by
  rw [Node.ofText]
  cases hfound : NodeKind.all.findSome? fun kind =>
      (between? kind.brackets.1 kind.brackets.2 text).map fun inner =>
        (⟨kind, String.ofList (trimmed inner)⟩ : Node) with
  | none =>
    refine .bare fun kind inner htext => ?_
    have hnone := List.findSome?_eq_none_iff.mp hfound kind kind.mem_all
    rw [between?_eq_some_iff.mpr htext] at hnone
    cases hnone
  | some node =>
    obtain ⟨kind, -, hkind⟩ := List.exists_of_findSome?_eq_some hfound
    obtain ⟨inner, hinner, rfl⟩ := Option.map_eq_some_iff.mp hkind
    rw [between?_eq_some_iff.mp hinner]
    exact .enclosed kind (trimsTo_trimmed inner)

/-! ## Rows -/

/-- The texts of a split, each with the connector just before it. -/
def Split.texts (s : Split) : List (Option Link × List Char) :=
  (none, s.first) :: s.pieces.map fun p => (some p.link, p.text)

/-- The texts that are nodes. Between two of them only blank texts were left out,
so the connector just before a text is also the last one before its node. -/
def Split.kept (s : Split) : List (Option Link × List Char) :=
  s.texts.filter fun t => ¬ AllBlank t.2

/-- The diagram `d` is what a split says. -/
structure Split.Describes (s : Split) (d : Diagram) : Prop where
  nodes : List.Forall₂ (fun t node => ∃ text, TrimsTo t.2 text ∧ Spells text node) s.kept d.nodes
  edges : ∀ j link text, s.kept[j + 1]? = some (link, text) →
    ∃ l, link = some l ∧ d.edges[j]? = some ⟨j, j + 1, l.label, l.style⟩
  count : d.edges.length + 1 = d.nodes.length

theorem stops_eq (pending : Option Link) (text : List Char) (others : List (Link × List Char)) :
    stops pending text others =
      (((pending, text) :: others.map fun o => (some o.1, o.2)).filter
        fun t => ¬ AllBlank t.2).map fun t => (t.1, Node.ofText (trimmed t.2)) := by
  -- on the connectors; the text before the first is left out if it is blank
  induction others generalizing pending text with
  | nil =>
    by_cases h : AllBlank text
    · simp [stops, h, trimmed_eq_nil_iff.mpr h]
    · simp [stops, h, mt trimmed_eq_nil_iff.mp h]
  | cons o others ih =>
    by_cases h : AllBlank text
    · simp [stops, h, trimmed_eq_nil_iff.mpr h, ih]
    · simp [stops, h, mt trimmed_eq_nil_iff.mp h, ih]

/-- The row of a source holds the texts of its split that are nodes. -/
theorem rowOf_of_reads {s : Split} {source : List Char} (h : s.Reads source) :
    rowOf source = s.kept.map fun t => (t.1, Node.ofText (trimmed t.2)) := by
  rw [rowOf, cut_of_reads h, stops_eq, List.map_map]
  rfl

/-- Every node but the first has a connector before it. -/
theorem exists_links_of_kept (s : Split) :
    ∃ links : List Link, s.kept.tail.map Prod.fst = links.map some := by
  have hrest : ∀ ps : List Piece, ∃ links : List Link,
      ((ps.map fun p => (some p.link, p.text)).filter fun t => ¬ AllBlank t.2).map Prod.fst =
        links.map some := by
    intro ps
    induction ps with
    | nil => exact ⟨[], rfl⟩
    | cons p ps ih =>
      obtain ⟨links, hlinks⟩ := ih
      by_cases hp : AllBlank p.text
      · exact ⟨links, by simpa [hp] using hlinks⟩
      · exact ⟨p.link :: links, by simpa [hp] using hlinks⟩
  obtain ⟨links, hlinks⟩ := hrest s.pieces
  rw [Split.kept, Split.texts]
  -- only the first text has no connector, and it may be blank
  by_cases h : AllBlank s.first
  · exact ⟨links.tail, by simpa [h] using congrArg List.tail hlinks⟩
  · exact ⟨links, by simpa [h] using hlinks⟩

/-- Where every node but the first has a connector, the edges are those
connectors, each from one node to the next. -/
theorem edgesOf_eq {row : List (Option Link × Node)} {links : List Link}
    (h : row.tail.map Prod.fst = links.map some) :
    edgesOf row = links.zipIdx.map fun n => ⟨n.2, n.2 + 1, n.1.label, n.1.style⟩ := by
  have hgen : ∀ (stops : List (Option Link × Node)) (links : List Link) (k : Nat),
      stops.map Prod.fst = links.map some →
      ((stops.zipIdx k).filterMap fun n =>
        n.1.1.map fun l => (⟨n.2, n.2 + 1, l.label, l.style⟩ : Edge)) =
        (links.zipIdx k).map fun n => ⟨n.2, n.2 + 1, n.1.label, n.1.style⟩ := by
    intro stops
    induction stops with
    | nil =>
      intro links k h
      cases links with
      | nil => rfl
      | cons l links => simp at h
    | cons stop stops ih =>
      intro links k h
      cases links with
      | nil => simp at h
      | cons l links =>
        rw [List.map_cons, List.map_cons, List.cons.injEq] at h
        obtain ⟨hstop, hrest⟩ := h
        obtain ⟨link, node⟩ := stop
        obtain rfl : link = some l := hstop
        rw [List.zipIdx_cons, List.zipIdx_cons, List.map_cons, ← ih links (k + 1) hrest]
        rfl
  exact hgen row.tail links 0 h

/-! ## Reading -/

theorem read_eq_error_iff {source : String} {e : Error} :
    Diagram.read source = .error e ↔ e = .emptyDiagram ∧ rowOf source.toList = [] := by
  rw [Diagram.read]
  split
  · rename_i h
    simp [h, eq_comm]
  · rename_i hrow
    simp only [reduceCtorEq, false_iff, not_and]
    exact fun _ => hrow

theorem read_eq_ok_iff {source : String} {d : Diagram} :
    Diagram.read source = .ok d ↔ rowOf source.toList ≠ [] ∧ d = .ofRow (rowOf source.toList) := by
  rw [Diagram.read]
  split
  · rename_i h
    simp [h]
  · rename_i hrow
    simp only [Except.ok.injEq]
    constructor
    · rintro rfl
      exact ⟨hrow, rfl⟩
    · rintro ⟨-, rfl⟩
      rfl

theorem describes_of_read {source : String} {d : Diagram} {s : Split}
    (h : Diagram.read source = .ok d) (hs : s.Reads source.toList) : s.Describes d := by
  obtain ⟨hrow, rfl⟩ := read_eq_ok_iff.mp h
  rw [rowOf_of_reads hs] at hrow ⊢
  obtain ⟨links, hlinks⟩ := exists_links_of_kept s
  have hedges : edgesOf (s.kept.map fun t => (t.1, Node.ofText (trimmed t.2))) =
      links.zipIdx.map fun (l, i) => ⟨i, i + 1, l.label, l.style⟩ := by
    refine edgesOf_eq ?_
    rw [← List.map_tail, List.map_map]
    exact hlinks
  constructor
  · rw [Diagram.ofRow, List.map_map, List.forall₂_map_right_iff, List.forall₂_same]
    intro t _
    exact ⟨trimmed t.2, trimsTo_trimmed t.2, spells_ofText _⟩
  · -- the connector before a node is the edge that leads to it
    intro j link text hkept
    have hlink : (links.map some)[j]? = some link := by
      rw [← hlinks, List.getElem?_map, List.getElem?_tail, hkept]
      rfl
    rw [List.getElem?_map, Option.map_eq_some_iff] at hlink
    obtain ⟨l, hl, rfl⟩ := hlink
    refine ⟨l, rfl, ?_⟩
    rw [Diagram.ofRow, hedges, List.getElem?_map, List.getElem?_zipIdx, hl]
    simp
  · have hlength := congrArg List.length hlinks
    have hpos : s.kept.length ≠ 0 := by
      intro hzero
      rw [List.length_eq_zero_iff] at hzero
      rw [hzero] at hrow
      exact hrow rfl
    simp only [List.length_map, List.length_tail] at hlength
    simp only [Diagram.ofRow, hedges, List.length_map, List.length_zipIdx]
    omega

/-- A diagram whose edges join each node to the next one. -/
structure Diagram.IsChain (d : Diagram) : Prop where
  count : d.edges.length + 1 = d.nodes.length
  ends : ∀ j edge, d.edges[j]? = some edge → edge.source = j ∧ edge.target = j + 1

/-- The diagram of a source is a chain. -/
theorem isChain_of_read {source : String} {d : Diagram} (h : Diagram.read source = .ok d) :
    d.IsChain := by
  obtain ⟨s, hs⟩ := exists_split source.toList
  have hd := describes_of_read h hs
  have hkept : s.kept.length = d.nodes.length := hd.nodes.length_eq
  refine ⟨hd.count, fun j edge hedge => ?_⟩
  obtain ⟨hj, -⟩ := List.getElem?_eq_some_iff.mp hedge
  have hnext : j + 1 < s.kept.length := by
    have := hd.count
    omega
  obtain ⟨⟨link, text⟩, hnode⟩ : ∃ node, s.kept[j + 1]? = some node :=
    ⟨_, List.getElem?_eq_getElem hnext⟩
  obtain ⟨l, -, hl⟩ := hd.edges j link text hnode
  rw [hl, Option.some.injEq] at hedge
  rw [← hedge]
  exact ⟨rfl, rfl⟩

theorem kept_eq_nil_iff {s : Split} : s.kept = [] ↔ ∀ t ∈ s.texts, AllBlank t.2 := by
  rw [Split.kept, List.filter_eq_nil_iff]
  simp

/-- **Reading agrees with the split.** Every source splits in exactly one way; it
is no diagram exactly when every text of the split is blank, and otherwise the
diagram that the split describes. -/
theorem read_of_split (source : String) :
    ∃ s : Split, s.Reads source.toList ∧ (∀ t : Split, t.Reads source.toList → t = s) ∧
      ((Diagram.read source = .error .emptyDiagram ∧ ∀ t ∈ s.texts, AllBlank t.2) ∨
        ∃ d, Diagram.read source = .ok d ∧ (∃ t ∈ s.texts, ¬ AllBlank t.2) ∧ s.Describes d) := by
  obtain ⟨s, hs, hunique⟩ := existsUnique_split source.toList
  refine ⟨s, hs, hunique, ?_⟩
  have hrow := rowOf_of_reads hs
  cases hread : Diagram.read source with
  | error e =>
    obtain ⟨rfl, hempty⟩ := read_eq_error_iff.mp hread
    rw [hrow, List.map_eq_nil_iff, kept_eq_nil_iff] at hempty
    exact Or.inl ⟨rfl, hempty⟩
  | ok d =>
    obtain ⟨hne, -⟩ := read_eq_ok_iff.mp hread
    rw [hrow, ne_eq, List.map_eq_nil_iff, kept_eq_nil_iff] at hne
    refine Or.inr ⟨d, rfl, ?_, describes_of_read hread hs⟩
    push Not at hne
    exact hne

end Whiteboard.Chain
