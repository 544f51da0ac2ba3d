import Whiteboard.Drawing.Counts
import Whiteboard.Proofs.Chain.Drawn

/-!
# Whiteboard — the elements of a drawn diagram

What a reader of the document finds there, without drafts and pictures: a block
of elements for every node (`DrawsNode`) and then for every edge (`DrawsEdge`),
all in the stroke colour of the theme.

Main results:

* `Depicts.plain` — every element of a picture is drawn in the stroke colour,
  opaque and upright.
* `compile_blocks` — the document of a diagram, element by element, with the ids
  that were drawn and the counts.
-/

namespace Whiteboard.Chain

open Drawing (Counts Document Draft Element Issues NeverRepeats)

variable {S : Type}

/-! ## Blocks as a reader sees them -/

/-- The element is a text that holds a label. -/
def HoldsLabel (e : Element S) (label : String) : Prop :=
  ∃ body, e.shape = .text body ∧ body.text = label ∧ body.originalText = label

/-- The connector of an edge: a line for `--` and an arrow otherwise, dashed for
the dashed arrow only. -/
structure IsConnector (edge : Edge) (e : Element S) : Prop where
  kind : e.kind = if edge.style = .line then .line else .arrow
  stroke : e.strokeStyle = if edge.style = .dashedArrow then .dashed else .solid

/-- The elements of an edge: its connector, and the label over it if there is one. -/
inductive DrawsEdge (edge : Edge) : List (Element S) → Prop where
  | bare {connector : Element S} (label : edge.label = none)
      (isConnector : IsConnector edge connector) : DrawsEdge edge [connector]
  | labelled {connector text : Element S} {label : String} (label_eq : edge.label = some label)
      (isConnector : IsConnector edge connector) (holds : HoldsLabel text label) :
      DrawsEdge edge [connector, text]

variable [Scalar S]

/-- The outline of a placed node: of its kind, at its place, with the size of the
kind and the fill whose turn it is. -/
structure IsOutline (theme : Theme) (placed : Placed S) (e : Element S) : Prop where
  kind : e.kind = placed.node.kind.elementKind
  x : e.x = placed.x
  y : e.y = placed.y
  size : placed.node.kind.size? = some (e.width, e.height)
  fill : theme.palette[placed.index % theme.palette.length]? = some e.backgroundColor

/-- The elements of a placed node: a text at its place, or an outline with the
label as a text over it. -/
inductive DrawsNode (theme : Theme) (placed : Placed S) : List (Element S) → Prop where
  | bare {text : Element S} (kind : placed.node.kind = .textOnly) (x : text.x = placed.x)
      (y : text.y = placed.y) (holds : HoldsLabel text placed.node.label) :
      DrawsNode theme placed [text]
  | outlined {shape text : Element S} (kind : placed.node.kind ≠ .textOnly)
      (isOutline : IsOutline theme placed shape) (holds : HoldsLabel text placed.node.label) :
      DrawsNode theme placed [shape, text]

/-! ## From drafts to blocks -/

omit [Scalar S] in
theorem shape_of_unbound_eq_text {s : Drawing.Shape S} {body : Drawing.TextBody S}
    (h : s.unbound = .text body) : s = .text body := by
  cases s <;> first | exact h | cases h

/-- What shows the draft of a text holds its label. -/
theorem holdsLabel_of_shows {e : Element S} {d : Draft S} {label : String} (h : e.Shows d)
    (hkind : d.kind = Named.name Drawing.Kind.text) (htext : d.text = some label) :
    HoldsLabel e label := by
  obtain ⟨shape, hshape, heq⟩ := h
  rw [Draft.shape?, hkind] at hshape
  obtain rfl : .text d.textBody = shape := Option.some.inj hshape
  refine ⟨d.textBody, shape_of_unbound_eq_text (congrArg Element.shape heq), ?_, ?_⟩
  · rw [Draft.textBody, htext, Option.getD_some]
  · rw [Draft.textBody, htext, Option.getD_some]

/-- A label over a node or an edge. -/
theorem holdsLabel_of_isNew {e : Element S} {label : String} {center : Point S} {stroke : String}
    (h : e.IsNew (centredText label center stroke)) : HoldsLabel e label :=
  holdsLabel_of_shows h.shows rfl rfl

theorem size?_eq_none_iff {kind : NodeKind} :
    (kind.size? : Option (S × S)) = none ↔ kind = .textOnly := by
  cases kind <;> simp [NodeKind.size?]

/-- What shows the outline of a node is its outline. -/
theorem isOutline_of_shows {theme : Theme} {placed : Placed S} {e : Element S} {size : S × S}
    (hsize : placed.node.kind.size? = some size) (h : e.Shows (outline placed size theme)) :
    IsOutline theme placed e := by
  obtain ⟨shape, hshape, heq⟩ := h
  have hfill : e.backgroundColor = theme.fill placed.index :=
    congrArg Element.backgroundColor heq
  -- kind by kind, the draft has the shape and takes the size it is given
  have hkind : shape.kind = placed.node.kind.elementKind ∧
      (outline placed size theme).size shape = size := by
    obtain ⟨index, node, x, y⟩ := placed
    obtain ⟨kind, label⟩ := node
    cases kind <;> cases hshape <;> exact ⟨rfl, rfl⟩
  refine ⟨?_, congrArg Element.x heq, congrArg Element.y heq, ?_, ?_⟩
  · rw [Drawing.Element.kind_of_appearance heq]
    exact hkind.1
  · have hwidth : e.width = ((outline placed size theme).size shape).1 :=
      congrArg Element.width heq
    have hheight : e.height = ((outline placed size theme).size shape).2 :=
      congrArg Element.height heq
    rw [hwidth, hheight, hkind.2, hsize]
  · rw [hfill, Theme.fill, List.get_eq_getElem]
    exact List.getElem?_eq_getElem _

theorem NodeBlock.draws {theme : Theme} {placed : Placed S} {b : Block S}
    (h : NodeBlock theme placed b) : DrawsNode theme placed b.elements := by
  obtain ⟨hhead, hlabel⟩ := h
  obtain ⟨head, label?⟩ := b
  rw [headDraft] at hhead
  rw [nodeLabel?] at hlabel
  cases hsize : (placed.node.kind.size? : Option (S × S)) with
  | none =>
    -- a bare label has no text over it
    rw [hsize] at hhead hlabel
    cases hlabel
    have hkind := size?_eq_none_iff.mp hsize
    obtain ⟨shape, hshape, heq⟩ := id hhead
    refine .bare hkind (congrArg Element.x heq) (congrArg Element.y heq)
      (holdsLabel_of_shows hhead ?_ rfl)
    rw [bareText, hkind]
    rfl
  | some size =>
    rw [hsize] at hhead hlabel
    cases hlabel with
    | some hnew =>
      have hkind : placed.node.kind ≠ .textOnly := fun hkind => by
        rw [size?_eq_none_iff.mpr hkind] at hsize
        cases hsize
      exact .outlined hkind (isOutline_of_shows hsize hhead) (holdsLabel_of_isNew hnew)

theorem isConnector_of_connects {edge : Edge} {theme : Theme} {route : Drawing.Route S}
    {e : Element S} (h : e.Connects route (edge.look theme)) : IsConnector edge e := by
  obtain ⟨shape, hshape, heq⟩ := h.shows
  have hstroke : e.strokeStyle = ((route.draft (edge.look theme)).strokeStyle.getD .solid) :=
    congrArg Element.strokeStyle heq
  obtain ⟨source, target, label, style⟩ := edge
  refine ⟨?_, ?_⟩
  · rw [h.kind]
    cases style <;> rfl
  · rw [hstroke]
    cases style <;> rfl

theorem EdgeBlock.draws {theme : Theme} {nodes : List (Block S)} {edge : Edge} {b : Block S}
    (h : EdgeBlock theme nodes edge b) : DrawsEdge edge b.elements := by
  obtain ⟨⟨source, target, -, -, hconnects⟩, center, -, hlabel⟩ := h
  obtain ⟨head, label?⟩ := b
  have hconnector := isConnector_of_connects hconnects
  cases hedge : edge.label with
  | none =>
    rw [hedge] at hlabel
    cases hlabel
    exact .bare hedge hconnector
  | some label =>
    rw [hedge] at hlabel
    cases hlabel with
    | some hnew => exact .labelled hedge hconnector (holdsLabel_of_isNew hnew)

/-- The document holds these blocks: one for every node of the diagram at its place, and then
one for every edge. -/
structure Diagram.DrawnAs (diagram : Diagram) (options : Options) (p : Picture S)
    (d : Document S) : Prop where
  elements : d.elements = p.elements
  nodes : List.Forall₂ (fun placed b => DrawsNode options.theme placed b.elements)
    (layout options.direction options.spacing diagram.nodes) p.nodes
  links : List.Forall₂ (fun edge b => DrawsEdge edge b.elements) diagram.edges p.links

theorem Depicts.drawnAs {options : Options} {diagram : Diagram} {p : Picture S}
    (h : Depicts options.theme (layout options.direction options.spacing diagram.nodes)
      diagram.edges p) :
    diagram.DrawnAs options p (p.document options.theme) :=
  ⟨rfl, h.nodes.imp fun _ _ hnode => hnode.draws, h.links.imp fun _ _ hlink => hlink.draws⟩

/-- The connector at place `j` of a chain joins the node there to the next one. -/
theorem Depicts.exists_ends {theme : Theme} {diagram : Diagram} {placed : List (Placed S)}
    {p : Picture S} (h : Depicts theme placed diagram.edges p) (hchain : diagram.IsChain) {j : Nat}
    {link : Block S} (hlink : p.links[j]? = some link) :
    ∃ edge before after, diagram.edges[j]? = some edge ∧ EdgeBlock theme p.nodes edge link ∧
      p.nodes[j]? = some before ∧ p.nodes[j + 1]? = some after ∧
      link.head.Connects (.plan before.head after.head) (edge.look theme) := by
  obtain ⟨hj, rfl⟩ := List.getElem?_eq_some_iff.mp hlink
  have hlength : diagram.edges.length = p.links.length := h.links.length_eq
  have hj' : j < diagram.edges.length := by omega
  have hedge : diagram.edges[j]? = some (diagram.edges.get ⟨j, hj'⟩) := List.getElem?_eq_getElem hj'
  have hblock := h.links.get hj' hj
  obtain ⟨before, after, hbefore, hafter, hconnects⟩ := hblock.head
  obtain ⟨hsource, htarget⟩ := hchain.ends j _ hedge
  exact ⟨_, before, after, hedge, hblock, hsource ▸ hbefore, htarget ▸ hafter, hconnects⟩

/-! ## What all elements share -/

/-- A draft in the stroke colour of the theme that asks for no opacity and no
rotation of its own. -/
structure Plain (theme : Theme) (d : Draft S) : Prop where
  stroke : d.strokeColor = some theme.stroke
  opacity : d.opacity = none
  angle : d.angle = none

theorem plain_centredText (theme : Theme) (label : String) (center : Point S) :
    Plain theme (centredText label center theme.stroke) := ⟨rfl, rfl, rfl⟩

theorem plain_headDraft (theme : Theme) (placed : Placed S) :
    Plain theme (headDraft theme placed) := by
  rw [headDraft]
  split <;> exact ⟨rfl, rfl, rfl⟩

namespace Depicts

variable {theme : Theme} {placed : List (Placed S)} {edges : List Edge} {p : Picture S}

/-- Every element of a picture shows a plain draft. -/
theorem plain (h : Depicts theme placed edges p) {e : Element S} (he : e ∈ p.elements) :
    ∃ draft, e.Shows draft ∧ Plain theme draft := by
  obtain ⟨b, hb, rfl | hlabel⟩ := Picture.mem_elements he
  · -- the head of a node or of an edge
    rcases List.mem_append.mp hb with hb | hb
    · obtain ⟨node, -, hnode⟩ := h.exists_node hb
      exact ⟨_, hnode.head, plain_headDraft theme node⟩
    · obtain ⟨edge, -, ⟨source, target, -, -, hconnects⟩, -⟩ := h.exists_edge hb
      exact ⟨_, hconnects.shows, rfl, rfl, rfl⟩
  · obtain ⟨text, center, hnew⟩ := h.isNew_label hb hlabel
    exact ⟨_, hnew.shows, plain_centredText theme text center⟩

theorem stroke (h : Depicts theme placed edges p) {e : Element S} (he : e ∈ p.elements) :
    e.strokeColor = theme.stroke := by
  obtain ⟨draft, ⟨shape, -, heq⟩, hplain⟩ := h.plain he
  have hstroke : e.strokeColor = draft.strokeColor.getD Drawing.defaultStrokeColor :=
    congrArg Element.strokeColor heq
  rw [hstroke, hplain.stroke, Option.getD_some]

end Depicts

/-! ## Counts -/

omit [Scalar S] in
theorem kind_of_holdsLabel {e : Element S} {label : String} (h : HoldsLabel e label) :
    e.kind = .text := by
  obtain ⟨body, hshape, -⟩ := h
  rw [Element.kind, hshape]
  rfl

omit [Scalar S] in
/-- Blocks that each hold at most one element of some sort hold as many of them
as there are blocks with one. -/
theorem countP_flatten {α : Type} {R : α → List (Element S) → Prop} {sort : Element S → Bool}
    (has : α → Bool) (hone : ∀ a block, R a block → block.countP sort = if has a then 1 else 0)
    {as : List α} {blocks : List (List (Element S))} (h : List.Forall₂ R as blocks) :
    blocks.flatten.countP sort = as.countP has := by
  induction h with
  | nil => rfl
  | cons hhead _ ih =>
    rw [List.flatten_cons, List.countP_append, List.countP_cons, ih, hone _ _ hhead]
    omega

/-- How many elements of each group the block of a node has. -/
theorem DrawsNode.counts {theme : Theme} {placed : Placed S} {block : List (Element S)}
    (h : DrawsNode theme placed block) :
    block.countP (fun e => e.kind.isOutline) =
        (if placed.node.kind != .textOnly then 1 else 0) ∧
      block.countP (fun e => e.kind == .text) = 1 ∧
      block.countP (fun e => e.kind.isLinear) = 0 := by
  cases h with
  | bare hkind _ _ holds =>
    simp [kind_of_holdsLabel holds, hkind, Drawing.Kind.isOutline, Drawing.Kind.isLinear]
  | outlined hkind isOutline holds =>
    have hhead := isOutline.kind
    cases hnode : placed.node.kind <;>
      simp_all [kind_of_holdsLabel holds, NodeKind.elementKind, Drawing.Kind.isOutline,
        Drawing.Kind.isLinear]

omit [Scalar S] in
/-- How many elements of each group the block of an edge has. -/
theorem DrawsEdge.counts {edge : Edge} {block : List (Element S)} (h : DrawsEdge edge block) :
    block.countP (fun e => e.kind.isOutline) = 0 ∧
      block.countP (fun e => e.kind == .text) = (if edge.label.isSome then 1 else 0) ∧
      block.countP (fun e => e.kind.isLinear) = 1 := by
  have hkind : ∀ {e : Element S}, IsConnector edge e → e.kind = .line ∨ e.kind = .arrow := by
    intro e he
    rw [he.kind]
    split
    · exact Or.inl rfl
    · exact Or.inr rfl
  cases h with
  | bare hlabel isConnector =>
    rcases hkind isConnector with hk | hk <;>
      simp [hk, hlabel, Drawing.Kind.isOutline, Drawing.Kind.isLinear]
  | labelled hlabel isConnector holds =>
    rcases hkind isConnector with hk | hk <;>
      simp [hk, kind_of_holdsLabel holds, hlabel, Drawing.Kind.isOutline, Drawing.Kind.isLinear]

omit [Scalar S] in
/-- Blocks of one element or two. -/
theorem length_flatten {α : Type} {R : α → List (Element S) → Prop} {has : α → Bool}
    (hlength : ∀ a block, R a block → block.length = 1 + if has a then 1 else 0) {as : List α}
    {blocks : List (List (Element S))} (h : List.Forall₂ R as blocks) :
    blocks.flatten.length = as.length + as.countP has := by
  induction h with
  | nil => rfl
  | cons hhead _ ih =>
    rw [List.flatten_cons, List.length_append, List.countP_cons, List.length_cons, ih,
      hlength _ _ hhead]
    omega

theorem DrawsNode.length_eq {theme : Theme} {placed : Placed S} {block : List (Element S)}
    (h : DrawsNode theme placed block) :
    block.length = 1 + if placed.node.kind != .textOnly then 1 else 0 := by
  cases h with
  | bare hkind _ _ _ => simp [hkind]
  | outlined hkind _ _ => simp [hkind]

omit [Scalar S] in
theorem DrawsEdge.length_eq {edge : Edge} {block : List (Element S)} (h : DrawsEdge edge block) :
    block.length = 1 + if edge.label.isSome then 1 else 0 := by
  cases h with
  | bare hlabel _ => simp [hlabel]
  | labelled hlabel _ _ => simp [hlabel]

/-- The counts that a diagram leads to: a shape for every outlined node, a text for
every label, a connector for every edge, and nothing else. -/
def Diagram.counts (diagram : Diagram) : Counts :=
  let shapes := diagram.nodes.countP fun node => node.kind != .textOnly
  let texts := diagram.nodes.length + diagram.edges.countP fun edge => edge.label.isSome
  let connectors := diagram.edges.length
  { elements := shapes + texts + connectors, shapes, texts, connectors }

theorem node_layout (direction : Direction) (spacing : UInt32) (nodes : List Node) :
    (layout direction spacing nodes : List (Placed S)).map Placed.node = nodes := by
  have hnode : ∀ n : Node × Nat, (place direction spacing n.1 n.2 : Placed S).node = n.1 := by
    intro n
    cases direction <;> rfl
  rw [layout, List.map_map]
  refine (List.map_congr_left fun n _ => hnode n).trans ?_
  exact List.zipIdx_map_fst 0 nodes

theorem counts_of_draws {options : Options} {diagram : Diagram} {d : Document S}
    {nodeBlocks edgeBlocks : List (List (Element S))}
    (helements : d.elements = (nodeBlocks ++ edgeBlocks).flatten)
    (hnodes : List.Forall₂ (DrawsNode options.theme)
      (layout options.direction options.spacing diagram.nodes) nodeBlocks)
    (hedges : List.Forall₂ DrawsEdge diagram.edges edgeBlocks) :
    d.counts = diagram.counts := by
  have hcountP : ∀ has : Node → Bool, (layout options.direction options.spacing diagram.nodes :
      List (Placed S)).countP (fun placed => has placed.node) = diagram.nodes.countP has := by
    intro has
    conv_rhs => rw [← node_layout (S := S) options.direction options.spacing diagram.nodes]
    rw [List.countP_map]
    rfl
  have hlength : (layout options.direction options.spacing diagram.nodes :
      List (Placed S)).length = diagram.nodes.length := by
    rw [← List.length_map Placed.node, node_layout]
  have hnone : ∀ {α : Type} (as : List α), as.countP (fun _ => false) = 0 := by simp
  -- what the nodes contribute
  have hshapes : nodeBlocks.flatten.countP (fun e => e.kind.isOutline) =
      diagram.nodes.countP fun node => node.kind != .textOnly := by
    rw [countP_flatten (fun placed => placed.node.kind != .textOnly) (fun _ _ h => h.counts.1)
      hnodes, hcountP fun node => node.kind != .textOnly]
  have htexts : nodeBlocks.flatten.countP (fun e => e.kind == .text) = diagram.nodes.length := by
    rw [countP_flatten (fun _ => true) (fun _ _ h => h.counts.2.1) hnodes, List.countP_true,
      hlength]
  have hlinear : nodeBlocks.flatten.countP (fun e => e.kind.isLinear) = 0 := by
    rw [countP_flatten (fun _ => false) (fun _ _ h => h.counts.2.2) hnodes, hnone]
  have hsize : nodeBlocks.flatten.length =
      diagram.nodes.length + diagram.nodes.countP fun node => node.kind != .textOnly := by
    rw [length_flatten (fun _ _ h => h.length_eq) hnodes, hlength,
      hcountP fun node => node.kind != .textOnly]
  -- what the edges contribute
  have hshapes' : edgeBlocks.flatten.countP (fun e => e.kind.isOutline) = 0 := by
    rw [countP_flatten (fun _ => false) (fun _ _ h => h.counts.1) hedges, hnone]
  have htexts' : edgeBlocks.flatten.countP (fun e => e.kind == .text) =
      diagram.edges.countP fun edge => edge.label.isSome :=
    countP_flatten _ (fun _ _ h => h.counts.2.1) hedges
  have hlinear' : edgeBlocks.flatten.countP (fun e => e.kind.isLinear) = diagram.edges.length := by
    rw [countP_flatten (fun _ => true) (fun _ _ h => h.counts.2.2) hedges, List.countP_true]
  have hsize' : edgeBlocks.flatten.length =
      diagram.edges.length + diagram.edges.countP fun edge => edge.label.isSome :=
    length_flatten (fun _ _ h => h.length_eq) hedges
  rw [Document.counts, Diagram.counts, Document.size, helements, List.flatten_append,
    List.countP_append, List.countP_append, List.countP_append, List.length_append, hshapes, htexts,
    hlinear, hsize, hshapes', htexts', hlinear', hsize', Counts.mk.injEq]
  refine ⟨?_, rfl, rfl, Nat.zero_add _⟩
  omega

/-! ## The document of a diagram -/

variable {G : Type} [Drawing.IdSource G]

/-- **The elements of a drawn diagram.** Whatever a source describes is drawn as one
block for every node and then one for every edge, in order, all in the stroke
colour of the theme. Exactly the ids of the elements are drawn, in the order in
which the elements lie, and the counts are those that the diagram leads to. -/
theorem compile_blocks (now : Int64) (options : Options) {source : String} {diagram : Diagram}
    (hread : Diagram.read source = .ok diagram) {g : G} (hg : NeverRepeats g) :
    ∃ (d : Document S) (g' : G) (nodeBlocks edgeBlocks : List (List (Element S))),
      (compile now options source).run.run g = (.ok d, g') ∧
      Issues g d.ids g' ∧
      d.elements = (nodeBlocks ++ edgeBlocks).flatten ∧
      List.Forall₂ (DrawsNode options.theme)
        (layout options.direction options.spacing diagram.nodes) nodeBlocks ∧
      List.Forall₂ DrawsEdge diagram.edges edgeBlocks ∧
      (∀ e ∈ d.elements, e.strokeColor = options.theme.stroke) ∧
      d.counts = diagram.counts := by
  obtain ⟨p, g', ⟨hrun, hissued⟩, h⟩ := compile_yields (S := S) now options hread hg
  have helements : (p.document options.theme).elements =
      (p.nodes.map Block.elements ++ p.links.map Block.elements).flatten := by
    rw [← List.map_append]
    rfl
  have hnodes : List.Forall₂ (DrawsNode options.theme)
      (layout options.direction options.spacing diagram.nodes) (p.nodes.map Block.elements) :=
    List.forall₂_map_right_iff.mpr (h.nodes.imp fun _ _ hnode => hnode.draws)
  have hedges : List.Forall₂ DrawsEdge diagram.edges (p.links.map Block.elements) :=
    List.forall₂_map_right_iff.mpr (h.links.imp fun _ _ hlink => hlink.draws)
  exact ⟨p.document options.theme, g', _, _, hrun, hissued, helements, hnodes, hedges,
    fun e he => h.stroke he, counts_of_draws helements hnodes hedges⟩

/-- Two outlines, a bare label and two edges, one of them labelled; the source keeps
a record of the ids. -/
theorem compile_blocks_of_chain : ∃ (d : Document Rat) (r : Drawing.Recorder Drawing.NumberedIds),
    (compile 0 {} "[Ask] -> \"why\" -> (Answer) --> <end>").run.run ⟨.fresh "e", []⟩ =
      (.ok d, r) ∧
    r.record = d.ids ∧ d.counts = ⟨8, 2, 4, 2⟩ := by
  have hread : Diagram.read "[Ask] -> \"why\" -> (Answer) --> <end>" =
      .ok ⟨[⟨.rectangle, "Ask"⟩, ⟨.ellipse, "Answer"⟩, ⟨.textOnly, "end"⟩],
        [⟨0, 1, some "why", .arrow⟩, ⟨1, 2, none, .dashedArrow⟩]⟩ := by
    decide +kernel
  obtain ⟨d, r, -, -, hrun, hissued, -, -, -, -, hcounts⟩ :=
    compile_blocks (S := Rat) 0 {} hread
      ((Drawing.NumberedIds.neverRepeats (.fresh "e")).recorder [])
  exact ⟨d, r, hrun, hissued.record, hcounts⟩

end Whiteboard.Chain
