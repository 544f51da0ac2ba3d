import Mathlib.Data.List.Forall2
import Whiteboard.Proofs.Chain.Picture

/-!
# Whiteboard — what a picture depicts

`Depicts` says of a picture that its blocks are what the nodes and the edges of a
diagram call for, and that every node lists the connectors at it. It is the
invariant of drawing: connecting two neighbours changes two elements of the
picture (`Attaches`) and depicts one edge more.

Main results:

* `attaches_replacing` — where ids are distinct, replacing two elements by id
  changes the heads of two nodes and nothing else.
* `Depicts.link` — a picture with the connector of the next edge depicts that edge.
-/

namespace Whiteboard.Chain

open Drawing (BoundElement Document Draft Element Route listed)

variable {S : Type} [Scalar S]

/-! ## What blocks show -/

/-- The draft of the element that edges attach to at a node. -/
def headDraft (theme : Theme) (placed : Placed S) : Draft S :=
  match (placed.node.kind.size? : Option (S × S)) with
  | none => bareText placed theme
  | some size => outline placed size theme

/-- The draft of the text over a node with this center; only outlined nodes have one. -/
def nodeLabel? (theme : Theme) (placed : Placed S) (center : Point S) : Option (Draft S) :=
  (placed.node.kind.size? : Option (S × S)).map fun _ =>
    centredText placed.node.label center theme.stroke

/-- The block of a node. -/
structure NodeBlock (theme : Theme) (placed : Placed S) (b : Block S) : Prop where
  head : b.head.Shows (headDraft theme placed)
  label : Option.Rel Element.IsNew b.label? (nodeLabel? theme placed b.head.center)

/-- The block of an edge between two of these nodes. -/
structure EdgeBlock (theme : Theme) (nodes : List (Block S)) (edge : Edge) (b : Block S) :
    Prop where
  head : ∃ source target, nodes[edge.source]? = some source ∧ nodes[edge.target]? = some target ∧
    b.head.Connects (.plan source.head target.head) (edge.look theme)
  label : ∃ center, middle? b.head = some center ∧
    Option.Rel Element.IsNew b.label?
      (edge.label.map fun text => centredText text center theme.stroke)

/-- The picture shows these nodes and these edges, and nothing else. -/
structure Depicts (theme : Theme) (placed : List (Placed S)) (edges : List Edge) (p : Picture S) :
    Prop where
  nodes : List.Forall₂ (NodeBlock theme) placed p.nodes
  links : List.Forall₂ (EdgeBlock theme p.nodes) edges p.links
  marks : ∀ (i : Nat) (b : Block S), p.nodes[i]? = some b → b.head.Lists (p.linksAt i)

namespace Depicts

variable {theme : Theme} {placed : List (Placed S)} {edges : List Edge} {p : Picture S}

theorem exists_node (h : Depicts theme placed edges p) {b : Block S} (hb : b ∈ p.nodes) :
    ∃ node ∈ placed, NodeBlock theme node b := by
  obtain ⟨i, rfl⟩ := List.get_of_mem hb
  have hi : i.1 < placed.length := by
    rw [h.nodes.length_eq]
    exact i.2
  exact ⟨_, List.get_mem placed ⟨i, hi⟩, h.nodes.get hi i.2⟩

theorem exists_edge (h : Depicts theme placed edges p) {b : Block S} (hb : b ∈ p.links) :
    ∃ edge ∈ edges, EdgeBlock theme p.nodes edge b := by
  obtain ⟨j, rfl⟩ := List.get_of_mem hb
  have hj : j.1 < edges.length := by
    rw [h.links.length_eq]
    exact j.2
  exact ⟨_, List.get_mem edges ⟨j, hj⟩, h.links.get hj j.2⟩

/-- Every label is a new text in the stroke colour of the theme. -/
theorem isNew_label (h : Depicts theme placed edges p) {b : Block S} (hb : b ∈ p.nodes ++ p.links)
    {e : Element S} (he : b.label? = some e) :
    ∃ text center, e.IsNew (centredText text center theme.stroke) := by
  have hrel : ∀ {draft? : Option (Draft S)}, Option.Rel Element.IsNew b.label? draft? →
      ∃ draft, draft? = some draft ∧ e.IsNew draft := by
    intro draft? hlabel
    rw [he] at hlabel
    cases hlabel with
    | some hnew => exact ⟨_, rfl, hnew⟩
  -- the label of a node, or that of an edge
  rcases List.mem_append.mp hb with hb | hb
  · obtain ⟨node, -, hnode⟩ := h.exists_node hb
    obtain ⟨draft, hdraft, hnew⟩ := hrel hnode.label
    obtain ⟨size, -, rfl⟩ := Option.map_eq_some_iff.mp hdraft
    exact ⟨_, _, hnew⟩
  · obtain ⟨edge, -, -, center, -, hlabel⟩ := h.exists_edge hb
    obtain ⟨draft, hdraft, hnew⟩ := hrel hlabel
    obtain ⟨text, -, rfl⟩ := Option.map_eq_some_iff.mp hdraft
    exact ⟨_, _, hnew⟩

/-- Two nodes in a row have different ids. -/
theorem exists_neighbours (h : Depicts theme placed edges p)
    (hnodup : (p.elements.map Element.id).Nodup) {i : Nat} (hi : i + 1 < placed.length) :
    ∃ source target, p.nodes[i]? = some source ∧ p.nodes[i + 1]? = some target ∧
      source.head.id ≠ target.head.id := by
  have hlength := h.nodes.length_eq
  obtain ⟨source, hsource⟩ : ∃ source, p.nodes[i]? = some source :=
    ⟨_, List.getElem?_eq_getElem (by omega)⟩
  obtain ⟨target, htarget⟩ : ∃ target, p.nodes[i + 1]? = some target :=
    ⟨_, List.getElem?_eq_getElem (by omega)⟩
  refine ⟨source, target, hsource, htarget, fun heq => ?_⟩
  have hindex := Picture.index_eq_of_id_eq hnodup (Picture.getElem?_node hsource)
    (Picture.getElem?_node htarget) source.head_mem target.head_mem heq
  omega

end Depicts

/-- A connector shown along a route has a middle. -/
theorem exists_middle {route : Route S} {look : Drawing.ConnectorLook} {e : Element S}
    (h : e.Connects route look) : ∃ center, middle? e = some center := by
  have happearance : middle? e = middle? e.appearance := by
    rw [middle?, middle?, Element.appearance, Drawing.Shape.unbound]
    cases e.shape <;> rfl
  obtain ⟨shape, hshape, heq⟩ := h.shows
  obtain ⟨plain, dashed, stroke⟩ := look
  rw [happearance, heq]
  -- a line or an arrow, with two points in either case
  cases plain
  · cases hshape
    exact ⟨_, rfl⟩
  · cases hshape
    exact ⟨_, rfl⟩

/-! ## Attaching a connector -/

/-- What connecting the nodes at `s` and `t` does to a picture: their heads note
the connector, and everything else stays as it is. -/
structure Attaches (now : Int64) (s t : Nat) (link : BoundElement) (f : Element S → Element S)
    (p : Picture S) : Prop where
  noted : ∀ (i : Nat) (b : Block S), p.nodes[i]? = some b → i = s ∨ i = t →
    b.head.Noted now link (f b.head)
  kept : ∀ (i : Nat) (b : Block S), p.nodes[i]? = some b → ¬(i = s ∨ i = t) → f b.head = b.head
  labels : ∀ b ∈ p.nodes, b.label?.map f = b.label?
  links : p.links.map (Block.map f) = p.links

omit [Scalar S] in
/-- **Attaching by id.** Where ids are distinct, replacing two elements by id
changes the heads of two nodes and nothing else. -/
theorem attaches_replacing {now : Int64} {p : Picture S}
    (hnodup : (p.elements.map Element.id).Nodup) {s t : Nat} {source target : Block S}
    (hsource : p.nodes[s]? = some source) (htarget : p.nodes[t]? = some target) (hst : s ≠ t)
    {link : BoundElement} {source' target' : Element S}
    (hsourceNoted : source.head.Noted now link source')
    (htargetNoted : target.head.Noted now link target') :
    Attaches now s t link (Document.replacing source' target') p := by
  have hs := Picture.getElem?_node hsource
  have ht := Picture.getElem?_node htarget
  have hne : target.head.id ≠ source.head.id := fun h =>
    hst (Picture.index_eq_of_id_eq hnodup ht hs target.head_mem source.head_mem h).symm
  -- an element of any other block has neither of the two ids
  have hother : ∀ {i : Nat} {b : Block S}, (p.nodes ++ p.links)[i]? = some b → ¬(i = s ∨ i = t) →
      ∀ e ∈ b.elements, Document.replacing source' target' e = e := by
    intro i b hb hi e he
    refine Document.replacing_of_ne ?_ ?_
    · rw [hsourceNoted.id_eq]
      intro h
      exact hi (Or.inl (Picture.index_eq_of_id_eq hnodup hb hs he source.head_mem h))
    · rw [htargetNoted.id_eq]
      intro h
      exact hi (Or.inr (Picture.index_eq_of_id_eq hnodup hb ht he target.head_mem h))
  refine ⟨?_, fun i b hb hi => hother (Picture.getElem?_node hb) hi b.head b.head_mem, ?_, ?_⟩
  · -- each of the two heads has taken the place of the old one
    rintro i b hb (rfl | rfl)
    · obtain rfl : source = b := Option.some.inj (hsource.symm.trans hb)
      rw [Document.replacing, if_pos hsourceNoted.id_eq.symm]
      exact hsourceNoted
    · obtain rfl : target = b := Option.some.inj (htarget.symm.trans hb)
      rw [Document.replacing, if_neg (by rw [hsourceNoted.id_eq]; exact hne),
        if_pos htargetNoted.id_eq.symm]
      exact htargetNoted
  · -- a label has the id of no head, not even of that under it
    intro b hb
    cases hlabel : b.label? with
    | none => rfl
    | some label =>
      have hkept : Document.replacing source' target' label = label := by
        refine Document.replacing_of_ne ?_ ?_
        · rw [hsourceNoted.id_eq]
          exact Picture.label_id_ne hnodup hb (List.mem_of_getElem? hsource) hlabel
        · rw [htargetNoted.id_eq]
          exact Picture.label_id_ne hnodup hb (List.mem_of_getElem? htarget) hlabel
      rw [Option.map_some, hkept]
  · -- the blocks of edges come after those of all nodes
    have hself : ∀ b ∈ p.links, b.map (Document.replacing source' target') = b := by
      intro b hb
      obtain ⟨j, hj⟩ := List.mem_iff_getElem?.mp hb
      have hslt := (List.getElem?_eq_some_iff.mp hsource).1
      have htlt := (List.getElem?_eq_some_iff.mp htarget).1
      refine Block.map_eq_self (hother (i := p.nodes.length + j) ?_ (by omega))
      rw [List.getElem?_append_right (by omega), Nat.add_sub_cancel_left]
      exact hj
    exact (List.map_congr_left hself).trans (List.map_id' _)

namespace Attaches

variable {now : Int64} {s t : Nat} {link : BoundElement} {f : Element S → Element S}
  {p : Picture S}

omit [Scalar S] in
/-- The head of a node keeps its id and its appearance. -/
theorem head_eq (h : Attaches now s t link f p) {i : Nat} {b : Block S}
    (hb : p.nodes[i]? = some b) :
    (f b.head).id = b.head.id ∧ (f b.head).appearance = b.head.appearance := by
  by_cases hi : i = s ∨ i = t
  · have hnoted := h.noted i b hb hi
    exact ⟨hnoted.id_eq, hnoted.appearance_eq⟩
  · rw [h.kept i b hb hi]
    exact ⟨rfl, rfl⟩

omit [Scalar S] in
theorem elements_link (h : Attaches now s t link f p) (b : Block S) :
    (p.link f b).elements = p.elements.map f ++ b.elements := by
  rw [Picture.elements, Picture.elements, Picture.link, ← Block.flatMap_elements_map,
    List.map_append, h.links, List.flatMap_append, List.flatMap_append, List.flatMap_append,
    List.flatMap_singleton, List.append_assoc]

omit [Scalar S] in
/-- Edges attach to the same ids as before. -/
theorem anchors_link (h : Attaches now s t link f p) (b : Block S) :
    (p.link f b).anchors = p.anchors := by
  rw [Picture.anchors, Picture.anchors, Picture.link, List.map_map]
  refine List.map_congr_left fun node hnode => ?_
  obtain ⟨i, hi⟩ := List.mem_iff_getElem?.mp hnode
  exact (h.head_eq hi).1

/-- The block of a node still shows the node. -/
theorem nodeBlock (h : Attaches now s t link f p) {i : Nat} {b : Block S}
    (hb : p.nodes[i]? = some b) {theme : Theme} {placed : Placed S}
    (hblock : NodeBlock theme placed b) : NodeBlock theme placed (b.map f) := by
  have happearance := (h.head_eq hb).2
  refine ⟨hblock.head.of_appearance happearance, ?_⟩
  have hcenter : (f b.head).center = b.head.center :=
    congrArg Box.center (Drawing.Element.box_of_appearance happearance)
  show Option.Rel Element.IsNew (b.label?.map f) (nodeLabel? theme placed (f b.head).center)
  rw [h.labels b (List.mem_of_getElem? hb), hcenter]
  exact hblock.label

/-- The block of an edge still joins its nodes. -/
theorem edgeBlock (h : Attaches now s t link f p) {theme : Theme} {edge : Edge} {b : Block S}
    (hblock : EdgeBlock theme p.nodes edge b) :
    EdgeBlock theme (p.nodes.map (Block.map f)) edge b := by
  obtain ⟨⟨source, target, hsource, htarget, hconnects⟩, hlabel⟩ := hblock
  refine ⟨⟨source.map f, target.map f, ?_, ?_, ?_⟩, hlabel⟩
  · rw [List.getElem?_map, hsource, Option.map_some]
  · rw [List.getElem?_map, htarget, Option.map_some]
  · obtain ⟨hsourceId, hsourceBox⟩ := h.head_eq hsource
    obtain ⟨htargetId, htargetBox⟩ := h.head_eq htarget
    have hroute : Route.plan (f source.head) (f target.head) =
        Route.plan source.head target.head := by
      rw [Route.plan, Route.plan, hsourceId, htargetId,
        Drawing.Element.box_of_appearance hsourceBox, Drawing.Element.box_of_appearance htargetBox]
    show b.head.Connects (Route.plan (f source.head) (f target.head)) _
    rw [hroute]
    exact hconnects

end Attaches

/-! ## One edge more -/

/-- **One edge more.** A picture of neighbours joined one to the next, with the
connector of the next edge attached and put on top, depicts that edge as well. -/
theorem Depicts.link {now : Int64} {theme : Theme} {placed : List (Placed S)} {edges : List Edge}
    {p : Picture S} (h : Depicts theme placed edges p) {edge : Edge} {b : Block S}
    {f : Element S → Element S}
    (hattaches : Attaches now edges.length (edges.length + 1) (Picture.linkTo b) f p)
    (hfresh : ∀ e ∈ p.elements, e.id ≠ b.head.id) (hblock : EdgeBlock theme p.nodes edge b) :
    Depicts theme placed (edges ++ [edge]) (p.link f b) := by
  have hlength : p.links.length = edges.length := h.links.length_eq.symm
  refine ⟨?_, ?_, ?_⟩
  · refine List.forall₂_map_right_iff.mpr (List.forall₂_iff_get.mpr ⟨h.nodes.length_eq, ?_⟩)
    intro i hi hi'
    exact hattaches.nodeBlock (List.getElem?_eq_getElem hi')
      ((List.forall₂_iff_get.mp h.nodes).2 i hi hi')
  · exact List.rel_append (h.links.imp fun _ _ => hattaches.edgeBlock)
      (.cons (hattaches.edgeBlock hblock) .nil)
  · intro i node' hnode'
    have hmap : (p.nodes.map (Block.map f))[i]? = some node' := hnode'
    rw [List.getElem?_map] at hmap
    obtain ⟨node, hnode, rfl⟩ := Option.map_eq_some_iff.mp hmap
    rw [Picture.linksAt_link, hlength]
    by_cases hi : i = edges.length ∨ i = edges.length + 1
    · -- a node at the new edge lists its connector last
      rw [if_pos hi]
      refine (h.marks i node hnode).noted (hattaches.noted i node hnode hi) ?_ ?_
      · intro entry hentry
        obtain ⟨c, hc, rfl⟩ := Picture.mem_linksAt hentry
        exact hfresh c.head (Picture.head_mem_elements (List.mem_append_right _ hc))
      · have hfew := p.length_linksAt_le i
        omega
    · -- any other node is as it was
      rw [if_neg hi, List.append_nil]
      show (f node.head).Lists _
      rw [hattaches.kept i node hnode hi]
      exact h.marks i node hnode

end Whiteboard.Chain
