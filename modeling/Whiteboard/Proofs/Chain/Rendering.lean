import Whiteboard.Proofs.Chain.Rows

/-!
# Whiteboard — writing a diagram down

Not every diagram has a source: labels are trimmed, and a label of a node cannot hold
what would be read as a connector, nor the label of an edge a quote. `Diagram.Sayable`
lists what is asked of a diagram, and `Diagram.rendered` writes one down with every
node between its brackets and a blank around every label and every connector, so that
no connector arises where two parts meet.

Main results:

* `sayable_of_read` — what is read from a source is sayable.
* `reads_rendered` — how a rendered diagram splits.
* `read_rendered_iff` — the diagrams that have a source are the sayable ones, and each
  of them is read back from its rendering.
-/

namespace Whiteboard.Chain

open Text (AllBlank NoBlankEnds TrimsTo isBlank trimmed trimmed_of_trimsTo)

/-! ## Which diagrams have a source -/

/-- A label that has no blanks at its ends and holds no connector. -/
structure Node.Sayable (n : Node) : Prop where
  trim : Text.trim n.label = n.label
  noLine : ¬ "--".toList <:+: n.label.toList
  noArrow : ¬ "->".toList <:+: n.label.toList

/-- A label, if there is one, without a quote. -/
def Edge.Sayable (e : Edge) : Prop := ∀ label, e.label = some label → '"' ∉ label.toList

/-- A diagram that can be written down: a chain of at least one node, all labels
sayable. -/
structure Diagram.Sayable (d : Diagram) : Prop where
  nonempty : 1 ≤ d.nodes.length
  chain : d.IsChain
  nodes : ∀ n ∈ d.nodes, n.Sayable
  edges : ∀ e ∈ d.edges, e.Sayable

/-! ## Unbroken texts -/

theorem unbroken_append {text more after : List Char} :
    Unbroken (text ++ more) after ↔ Unbroken text (more ++ after) ∧ Unbroken more after := by
  induction text with
  | nil => simp [unbroken_nil]
  | cons c cs ih =>
    rw [List.cons_append, unbroken_cons, unbroken_cons, ih, List.append_assoc, and_assoc]

theorem unbroken_singleton {c : Char} {after : List Char} (h : c ≠ '-') :
    Unbroken [c] after := by
  rw [unbroken_cons]
  refine ⟨?_, unbroken_nil after⟩
  rintro (h' | h') <;> exact h (List.cons_prefix_cons.mp h').1.symm

/-- A text that is unbroken holds no connector. -/
theorem Unbroken.not_infix {text after token inner : List Char} (h : Unbroken text after)
    (hinner : inner <:+: text) (htoken : BeginsConnector token) : ¬ token <:+: inner := by
  intro hinfix
  obtain ⟨before, more, heq⟩ := hinfix.trans hinner
  rw [List.append_assoc] at heq
  have hbegins : ∀ {start : List Char}, start <+: token → start <+: token ++ more ++ after :=
    fun hstart => (hstart.trans (List.prefix_append _ _)).trans (List.prefix_append _ _)
  refine h before (token ++ more) heq.symm ?_ (htoken.imp hbegins hbegins)
  rcases htoken with htoken | htoken
  all_goals
    obtain ⟨rest, rfl⟩ := htoken
    simp

/-- A text that holds no connector is unbroken wherever what follows cannot make its
last character one. -/
theorem unbroken_of_not_infix {text after : List Char} (hline : ¬ "--".toList <:+: text)
    (harrow : ¬ "->".toList <:+: text)
    (hafter : ∀ c, after.head? = some c → c ≠ '-' ∧ c ≠ '>') : Unbroken text after := by
  rintro before rest rfl hrest hbegins
  cases rest with
  | nil => exact hrest rfl
  | cons c rest =>
    cases rest with
    | nil =>
      -- the connector would go on beyond the text
      cases after with
      | nil => rcases hbegins with ⟨more, heq⟩ | ⟨more, heq⟩ <;> simp at heq
      | cons a after =>
        obtain ⟨hdash, hangle⟩ := hafter a rfl
        rcases hbegins with hstarts | hstarts
        · exact hdash (List.cons_prefix_cons.mp (List.cons_prefix_cons.mp hstarts).2).1.symm
        · exact hangle (List.cons_prefix_cons.mp (List.cons_prefix_cons.mp hstarts).2).1.symm
    | cons c' rest =>
      rcases hbegins with hstarts | hstarts
      all_goals
        obtain ⟨rfl, hsecond⟩ := List.cons_prefix_cons.mp hstarts
        obtain ⟨rfl, -⟩ := List.cons_prefix_cons.mp hsecond
      · exact hline ⟨before, rest, by simp⟩
      · exact harrow ⟨before, rest, by simp⟩

/-! ## What is read is sayable -/

theorem Separated.unbroken_of_mem {text : List Char} {ps : List Piece} (h : Separated text ps)
    {p : Piece} (hp : p ∈ ps) :
    (∃ after, Unbroken p.text after) ∧ ∃ rest, Takes p.link p.taken rest := by
  induction ps generalizing text with
  | nil => cases hp
  | cons q ps ih =>
    obtain ⟨-, htakes, hrest⟩ := h
    rcases List.mem_cons.mp hp with rfl | hp
    · exact ⟨⟨_, hrest.unbroken⟩, ⟨_, htakes⟩⟩
    · exact ih hrest hp

/-- Every text of a split is unbroken. -/
theorem Split.Reads.unbroken {s : Split} {source : List Char} (h : s.Reads source)
    {t : Option Link × List Char} (ht : t ∈ s.texts) : ∃ after, Unbroken t.2 after := by
  rcases List.mem_cons.mp ht with rfl | ht
  · exact ⟨_, h.separated.unbroken⟩
  · obtain ⟨p, hp, rfl⟩ := List.mem_map.mp ht
    exact (h.separated.unbroken_of_mem hp).1

theorem Takes.not_mem_label {link : Link} {taken rest : List Char} (h : Takes link taken rest)
    {label : String} (hlabel : link.label = some label) : '"' ∉ label.toList := by
  cases h with
  | unlabelled => cases hlabel
  | labelled _ _ hquoted =>
    obtain rfl := Option.some.inj hlabel
    rwa [String.toList_ofList]

theorem trim_of_noBlankEnds {cs : List Char} (h : NoBlankEnds cs) :
    Text.trim (String.ofList cs) = String.ofList cs := by
  rw [Text.trim, String.toList_ofList,
    trimmed_of_trimsTo ⟨[], [], by simp, by simp [AllBlank], by simp [AllBlank], h⟩]

/-- The label of a node is a part of the text that spells it, trimmed. -/
theorem Spells.label {text : List Char} {n : Node} (h : Spells text n) (htext : NoBlankEnds text) :
    Text.trim n.label = n.label ∧ n.label.toList <:+: text := by
  cases h with
  | enclosed kind trims =>
    obtain ⟨before, after, rfl, -, -, hends⟩ := trims
    refine ⟨trim_of_noBlankEnds hends, ?_⟩
    rw [String.toList_ofList]
    exact ⟨kind.brackets.1 :: before, after ++ [kind.brackets.2], by simp⟩
  | bare =>
    rw [String.toList_ofList]
    exact ⟨trim_of_noBlankEnds htext, List.infix_refl text⟩

theorem sayable_of_read {source : String} {d : Diagram} (h : Diagram.read source = .ok d) :
    d.Sayable := by
  obtain ⟨s, hs⟩ := exists_split source.toList
  have hdescribes := describes_of_read h hs
  have hchain := isChain_of_read h
  have hmem : ∀ {t}, t ∈ s.kept → t ∈ s.texts := fun ht => List.mem_of_mem_filter ht
  refine ⟨?_, hchain, fun n hn => ?_, fun e he label hlabel => ?_⟩
  · have := hchain.count
    omega
  · -- a node's text is a text of the split, without the blanks at its ends
    obtain ⟨i, hi, rfl⟩ := List.mem_iff_getElem.mp hn
    have hkept : i < s.kept.length := by rwa [hdescribes.nodes.length_eq]
    obtain ⟨text, ⟨before, after, htext, -, -, hends⟩, hspells⟩ :=
      List.Forall₂.get hdescribes.nodes hkept hi
    obtain ⟨htrim, hinfix⟩ := hspells.label hends
    obtain ⟨rest, hunbroken⟩ := hs.unbroken (hmem (List.getElem_mem hkept))
    rw [List.get_eq_getElem] at htext
    rw [htext] at hunbroken
    have hinner := hinfix.trans (⟨before, after, rfl⟩ : text <:+: before ++ text ++ after)
    exact ⟨htrim, hunbroken.not_infix hinner (Or.inl (List.prefix_refl _)),
      hunbroken.not_infix hinner (Or.inr (List.prefix_refl _))⟩
  · -- an edge is the connector just before the node that it leads to
    obtain ⟨j, hj, rfl⟩ := List.mem_iff_getElem.mp he
    have hlength := hdescribes.nodes.length_eq
    have hcount := hdescribes.count
    have hnext : j + 1 < s.kept.length := by omega
    obtain ⟨⟨link, text⟩, hnode⟩ : ∃ node, s.kept[j + 1]? = some node :=
      ⟨_, List.getElem?_eq_getElem hnext⟩
    obtain ⟨l, rfl, hedge⟩ := hdescribes.edges j link text hnode
    rw [List.getElem?_eq_getElem hj, Option.some.injEq] at hedge
    rw [hedge] at hlabel
    rcases List.mem_cons.mp (hmem (List.mem_of_getElem? hnode)) with hfirst | hpiece
    · cases hfirst
    · obtain ⟨p, hp, hpiece⟩ := List.mem_map.mp hpiece
      obtain rfl := Option.some.inj (Prod.mk.inj hpiece).1
      obtain ⟨rest, htakes⟩ := (hs.separated.unbroken_of_mem hp).2
      exact htakes.not_mem_label hlabel

/-! ## Rendering -/

/-- A node between its brackets. -/
def Node.rendered (n : Node) : List Char :=
  n.kind.brackets.1 :: ' ' :: (n.label.toList ++ [' ', n.kind.brackets.2])

/-- A connector with the blank after it and, if it has a label, the label between
quotes with the blank after that. -/
def Edge.rendered (e : Edge) : List Char :=
  e.style.token.toList ++ ' ' :: match e.label with
    | some label => '"' :: (label.toList ++ ['"', ' '])
    | none => []

/-- What follows the first node: every edge after a blank, with the node it leads to. -/
def renderedSteps : List (Edge × Node) → List Char
  | [] => []
  | (e, n) :: steps => ' ' :: (e.rendered ++ (n.rendered ++ renderedSteps steps))

/-- The edges of a diagram, each with the node that it leads to. -/
def Diagram.steps (d : Diagram) : List (Edge × Node) := d.edges.zip d.nodes.tail

/-- A diagram written down, node after node. -/
def Diagram.rendered (d : Diagram) : String :=
  String.ofList ((d.nodes.head?.map Node.rendered).getD [] ++ renderedSteps d.steps)

/-! ## Nodes in a rendering -/

theorem NodeKind.isBlank_brackets (kind : NodeKind) :
    isBlank kind.brackets.1 = false ∧ isBlank kind.brackets.2 = false := by
  cases kind <;> decide

theorem Node.noBlankEnds_rendered (n : Node) : NoBlankEnds n.rendered := by
  obtain ⟨hopening, hclosing⟩ := n.kind.isBlank_brackets
  constructor
  · intro c hc
    obtain rfl := Option.some.inj hc
    exact hopening
  · intro c hc
    have hlast : n.rendered = (n.kind.brackets.1 :: ' ' :: (n.label.toList ++ [' '])) ++
        [n.kind.brackets.2] := by simp [Node.rendered]
    rw [hlast, List.getLast?_concat] at hc
    obtain rfl := Option.some.inj hc
    exact hclosing

/-- The blank between a node and the edge that leaves it. -/
def gap : List (Edge × Node) → List Char
  | [] => []
  | _ :: _ => [' ']

theorem allBlank_gap (steps : List (Edge × Node)) : AllBlank (gap steps) := by
  cases steps with
  | nil => simp [gap, AllBlank]
  | cons =>
    intro c hc
    obtain rfl := List.mem_singleton.mp hc
    decide

theorem trimmed_rendered (n : Node) (steps : List (Edge × Node)) :
    trimmed (n.rendered ++ gap steps) = n.rendered :=
  trimmed_of_trimsTo
    ⟨[], gap steps, by simp, by simp [AllBlank], allBlank_gap steps, n.noBlankEnds_rendered⟩

theorem Node.ofText_rendered {n : Node} (h : n.Sayable) : Node.ofText n.rendered = n := by
  -- the label is what is left between the brackets without the two blanks
  have hlabel : String.ofList (trimmed (' ' :: (n.label.toList ++ [' ']))) = n.label := by
    have hends : trimmed n.label.toList = n.label.toList := by
      have := congrArg String.toList h.trim
      rwa [Text.trim, String.toList_ofList] at this
    obtain ⟨before, after, heq, hbefore, hafter, hnoBlank⟩ := Text.trimmed_eq_iff.mp hends
    have hinner : trimmed (' ' :: (n.label.toList ++ [' '])) = n.label.toList := by
      refine trimmed_of_trimsTo ⟨' ' :: before, after ++ [' '], ?_, ?_, ?_, hnoBlank⟩
      · rw [List.cons_append, List.cons_append, ← List.append_assoc, ← heq]
      · intro c hc
        rcases List.mem_cons.mp hc with rfl | hc
        · decide
        · exact hbefore c hc
      · intro c hc
        rcases List.mem_append.mp hc with hc | hc
        · exact hafter c hc
        · obtain rfl := List.mem_singleton.mp hc
          decide
    rw [hinner, String.ofList_toList]
  have hbetween : ∀ kind : NodeKind, between? kind.brackets.1 kind.brackets.2 n.rendered =
      if kind = n.kind then some (' ' :: (n.label.toList ++ [' '])) else none := by
    intro kind
    split
    · rename_i hkind
      rw [between?_eq_some_iff, hkind]
      simp [Node.rendered]
    · -- no two kinds open alike
      rename_i hkind
      rw [Node.rendered, between?, if_neg]
      rintro ⟨hopening, -⟩
      refine hkind ?_
      cases h : n.kind <;> cases kind <;> simp_all [NodeKind.brackets]
  rw [Node.ofText]
  simp only [hbetween, NodeKind.all]
  obtain ⟨kind, label⟩ := n
  cases kind <;> simp [List.findSome?, hlabel]

theorem Node.unbroken_rendered {n : Node} (h : n.Sayable) (steps : List (Edge × Node))
    (after : List Char) : Unbroken (n.rendered ++ gap steps) after := by
  have hbrackets : n.kind.brackets.1 ≠ '-' ∧ n.kind.brackets.2 ≠ '-' := by
    cases n.kind <;> decide
  have hgap : Unbroken (gap steps) after := by
    cases steps with
    | nil => exact unbroken_nil after
    | cons => exact unbroken_singleton (by decide)
  have hsplit : n.rendered ++ gap steps =
      [n.kind.brackets.1] ++ ([' '] ++ (n.label.toList ++ ([' '] ++ ([n.kind.brackets.2] ++
        gap steps)))) := by
    simp [Node.rendered]
  rw [hsplit]
  simp only [unbroken_append]
  refine ⟨unbroken_singleton hbrackets.1, unbroken_singleton (by decide), ?_,
    unbroken_singleton (by decide), unbroken_singleton hbrackets.2, hgap⟩
  -- the label is followed by a blank
  refine unbroken_of_not_infix h.noLine h.noArrow fun c hc => ?_
  obtain rfl := Option.some.inj hc
  decide

/-! ## Edges in a rendering -/

/-- The connector that an edge is read from. -/
def Edge.link (e : Edge) : Link := ⟨e.style, e.label⟩

/-- An edge takes what is written of it, where a node follows. -/
theorem Edge.takes_rendered {e : Edge} (h : e.Sayable) (n : Node) (rest : List Char) :
    Takes e.link e.rendered (n.rendered ++ rest) := by
  have hheading : ∀ more : List Char, heading? (e.style.token.toList ++ ' ' :: more) =
      some e.style := by
    intro more
    cases e.style <;> simp [heading?, LinkStyle.candidates, LinkStyle.token, List.isPrefixOf]
  have hblank : AllBlank [' '] := List.forall_mem_singleton.mpr rfl
  have hnode : ∀ c, (n.rendered ++ rest).head? = some c → isBlank c = false := by
    intro c hc
    obtain rfl := Option.some.inj hc
    exact n.kind.isBlank_brackets.1
  obtain ⟨source, target, label, style⟩ := e
  cases label with
  | none =>
    have hunquoted : ¬ BeginsQuoted (n.rendered ++ rest) := by
      rintro ⟨label, after, heq⟩
      have hopening := (List.cons.inj heq).1
      revert hopening
      cases n.kind <;> decide
    exact .unlabelled (hheading _) hblank hnode hunquoted
  | some label =>
    have hfolded : optionalToken (n.rendered ++ rest) = [] := by
      have hnone : heading? (n.rendered ++ rest) = none := by
        rw [heading?_eq_none_iff, connector?_eq_none_iff]
        rintro (hstarts | hstarts)
        all_goals
          have hopening := (List.cons_prefix_cons.mp hstarts).1
          revert hopening
          cases n.kind <;> decide
      rw [optionalToken, hnone]
    have htakes : Takes ⟨style, some (String.ofList label.toList)⟩ _ (n.rendered ++ rest) :=
      .labelled (hheading _) hblank (h label rfl) hblank hnode hfolded.symm
    rw [String.ofList_toList] at htakes
    exact htakes

/-! ## The split of a rendering -/

/-- The pieces that the steps of a rendering make. -/
def pieces : List (Edge × Node) → List Piece
  | [] => []
  | (e, n) :: steps => ⟨e.link, e.rendered, n.rendered ++ gap steps⟩ :: pieces steps

theorem gap_append_rejoined (steps : List (Edge × Node)) :
    gap steps ++ rejoined (pieces steps) = renderedSteps steps := by
  induction steps with
  | nil => rfl
  | cons step steps ih =>
    obtain ⟨e, n⟩ := step
    rw [renderedSteps, ← ih, pieces, rejoined, gap]
    simp

theorem separated_rendered {steps : List (Edge × Node)} {n : Node} (hn : n.Sayable)
    (h : ∀ step ∈ steps, step.1.Sayable ∧ step.2.Sayable) :
    Separated (n.rendered ++ gap steps) (pieces steps) := by
  induction steps generalizing n with
  | nil => exact n.unbroken_rendered hn [] []
  | cons step steps ih =>
    obtain ⟨e, n'⟩ := step
    obtain ⟨⟨he, hn'⟩, hsteps⟩ := List.forall_mem_cons.mp h
    refine ⟨n.unbroken_rendered hn _ _, ?_, ih hn' hsteps⟩
    rw [List.append_assoc]
    exact e.takes_rendered he n' _

theorem reads_rendered {n : Node} {steps : List (Edge × Node)} (hn : n.Sayable)
    (h : ∀ step ∈ steps, step.1.Sayable ∧ step.2.Sayable) :
    Split.Reads ⟨n.rendered ++ gap steps, pieces steps⟩ (n.rendered ++ renderedSteps steps) :=
  ⟨by rw [List.append_assoc, gap_append_rejoined], separated_rendered hn h⟩

/-- The row of a rendering: its nodes, each with the edge that leads to it. -/
theorem rowOf_rendered {n : Node} {steps : List (Edge × Node)} (hn : n.Sayable)
    (h : ∀ step ∈ steps, step.1.Sayable ∧ step.2.Sayable) :
    rowOf (n.rendered ++ renderedSteps steps) =
      (none, n) :: steps.map fun step => (some step.1.link, step.2) := by
  have hkeep : ∀ (n : Node) (steps : List (Edge × Node)), ¬ AllBlank (n.rendered ++ gap steps) := by
    intro n steps hblank
    rw [← Text.trimmed_eq_nil_iff, trimmed_rendered] at hblank
    cases hblank
  have hrest : ∀ steps : List (Edge × Node), (∀ step ∈ steps, step.1.Sayable ∧ step.2.Sayable) →
      (((pieces steps).map fun p => (some p.link, p.text)).filter fun t => ¬ AllBlank t.2).map
        (fun t => (t.1, Node.ofText (trimmed t.2))) =
      steps.map fun step => (some step.1.link, step.2) := by
    intro steps
    induction steps with
    | nil => exact fun _ => rfl
    | cons step steps ih =>
      obtain ⟨e, n⟩ := step
      intro h
      obtain ⟨⟨-, hn⟩, hsteps⟩ := List.forall_mem_cons.mp h
      simpa [pieces, hkeep, trimmed_rendered, Node.ofText_rendered hn] using ih hsteps
  rw [rowOf_of_reads (reads_rendered hn h), Split.kept, Split.texts, ← hrest steps h]
  simp [hkeep, trimmed_rendered, Node.ofText_rendered hn]

/-! ## Reading a rendering -/

/-- In a chain the edges are told by their connectors and their places. -/
theorem Diagram.IsChain.edges_eq {d : Diagram} (h : d.IsChain) :
    d.edges = (d.edges.map Edge.link).zipIdx.map fun n => ⟨n.2, n.2 + 1, n.1.label, n.1.style⟩ := by
  refine List.ext_getElem (by simp) fun j hj _ => ?_
  have hends := h.ends j d.edges[j] (List.getElem?_eq_getElem hj)
  simp only [List.getElem_map, List.getElem_zipIdx, Nat.zero_add, Edge.link]
  generalize d.edges[j] = edge at hends ⊢
  obtain ⟨rfl, htarget⟩ := hends
  rw [← htarget]

/-- A sayable diagram is what its rendering says. -/
theorem read_rendered {d : Diagram} (h : d.Sayable) : Diagram.read d.rendered = .ok d := by
  have hcount := h.chain.count
  cases hnodes : d.nodes with
  | nil =>
    have hpos := h.nonempty
    rw [hnodes] at hpos
    cases hpos
  | cons n rest =>
    rw [hnodes, List.length_cons] at hcount
    have hn : n.Sayable := h.nodes n (by rw [hnodes]; exact List.mem_cons_self)
    have hlength : d.edges.length = rest.length := by omega
    have hsteps : d.steps = d.edges.zip rest := by rw [Diagram.steps, hnodes, List.tail_cons]
    have hrow : rowOf d.rendered.toList =
        (none, n) :: d.steps.map fun step => (some step.1.link, step.2) := by
      rw [Diagram.rendered, String.toList_ofList, hnodes]
      refine rowOf_rendered hn fun step hstep => ?_
      rw [hsteps] at hstep
      obtain ⟨hedge, hnode⟩ := List.of_mem_zip hstep
      exact ⟨h.edges _ hedge, h.nodes _ (by rw [hnodes]; exact List.mem_cons_of_mem _ hnode)⟩
    rw [read_eq_ok_iff, hrow]
    refine ⟨List.cons_ne_nil _ _, ?_⟩
    -- the nodes and the connectors are those of the diagram
    have hlinks : (((none, n) :: d.steps.map fun step => (some step.1.link, step.2)) :
        List (Option Link × Node)).tail.map Prod.fst = (d.edges.map Edge.link).map some := by
      rw [List.tail_cons, List.map_map, List.map_map, hsteps]
      calc (d.edges.zip rest).map (fun step => some step.1.link)
          = ((d.edges.zip rest).map Prod.fst).map fun e => some e.link := by rw [List.map_map]; rfl
        _ = d.edges.map fun e => some e.link := by rw [List.map_fst_zip hlength.le]
    have hlabels : ((none, n) :: d.steps.map fun step => (some step.1.link, step.2)).map Prod.snd =
        d.nodes := by
      rw [List.map_cons, List.map_map, hsteps, hnodes]
      exact congrArg (n :: ·) (List.map_snd_zip hlength.ge)
    rw [Diagram.ofRow, edgesOf_eq hlinks, hlabels, ← h.chain.edges_eq]

/-- **What can be read.** A diagram has a source exactly if it is a chain of at least one
node whose labels are trimmed and hold no connector and whose edges have labels without
quotes. Each such diagram, and so whatever is read from a source, is read back from its
rendering. -/
theorem read_rendered_iff (d : Diagram) :
    ((∃ source, Diagram.read source = .ok d) ↔ d.Sayable) ∧
      (d.Sayable ↔ Diagram.read d.rendered = .ok d) ∧
      ∀ source, Diagram.read source = .ok d → Diagram.read d.rendered = .ok d := by
  have hread : Diagram.read d.rendered = .ok d → d.Sayable := sayable_of_read
  refine ⟨⟨?_, fun h => ⟨d.rendered, read_rendered h⟩⟩, ⟨read_rendered, hread⟩, ?_⟩
  · rintro ⟨source, h⟩
    exact sayable_of_read h
  · intro source h
    exact read_rendered (sayable_of_read h)

/-- Brackets, quotes and single dashes in labels do no harm. -/
example : Diagram.rendered ⟨[⟨.rectangle, "a-"⟩, ⟨.textOnly, "\"b]"⟩], [⟨0, 1, some "->", .line⟩]⟩ =
    "[ a- ] -- \"->\" < \"b] >" := by
  decide +kernel

end Whiteboard.Chain
