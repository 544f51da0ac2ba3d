import Whiteboard.Proofs.Chain.Depiction
import Whiteboard.Proofs.Chain.Rows

/-!
# Whiteboard — drawing never fails

Drawing puts the block of every node on top, then that of every edge. Each step
draws the ids of the elements that it puts there. As long as no id is handed out
twice the elements that an edge attaches to are found again, so every step
succeeds, and `Depicts` is kept from edge to edge.

Main results:

* `addNodes_yields` — the nodes yield their blocks.
* `addEdge_yields` — the edge between two neighbours yields its connector.
* `compile_yields` — every diagram that a source describes is drawn, and the
  document depicts it.
-/

namespace Whiteboard.Chain

open Drawing (BoundElement Document Draft Element Issues NeverRepeats Yields)

variable {S : Type} [Scalar S] {G : Type} [Drawing.IdSource G]

/-- Work of the drawing library yields the same as a part of the work on a document. -/
theorem onDrawing_yields {α : Type} {act : Drawing.Draws G α} {g g' : G} {ids : List String} {a : α}
    (h : Yields act g ids a g') : Yields (onDrawing act) g ids a g' := by
  refine ⟨?_, h.2⟩
  show (act.run >>= fun outcome => _).run g = _
  rw [StateT.run_bind, h.1]
  rfl

/-! ## Nodes -/

/-- A draft of the kind of a node can be created. -/
theorem exists_shape {d : Draft S} {kind : NodeKind} (h : d.kind = Named.name kind.elementKind) :
    ∃ shape, d.shape? = some shape := by
  rw [Draft.shape?, h]
  cases kind <;> exact ⟨_, rfl⟩

/-- What shows a draft of the kind of a node is of this kind. -/
theorem kind_of_shows {d : Draft S} {kind : NodeKind} (hd : d.kind = Named.name kind.elementKind)
    {e : Element S} (h : e.Shows d) : e.kind = kind.elementKind := by
  obtain ⟨shape, hshape, heq⟩ := h
  rw [Drawing.Element.kind_of_appearance heq]
  show shape.kind = kind.elementKind
  rw [Draft.shape?, hd] at hshape
  cases kind <;> cases hshape <;> rfl

/-- A text around a point is a new element. -/
theorem centredText_yields (now : Int64) (label : String) (center : Point S) (stroke : String)
    (g : G) : ∃ e g', Yields (onDrawing ((centredText label center stroke).create now)) g [e.id]
      e g' ∧ e.IsNew (centredText label center stroke) := by
  have hkind : (centredText label center stroke).kind =
      Named.name NodeKind.textOnly.elementKind := rfl
  obtain ⟨shape, hshape⟩ := exists_shape hkind
  obtain ⟨e, g', hcreate, hnew⟩ := Drawing.create_yields now hshape rfl g
  exact ⟨e, g', onDrawing_yields hcreate, hnew⟩

theorem lists_nil {e : Element S} {d : Draft S} (h : e.IsNew d) : e.Lists [] := by
  refine ⟨h.unbound, ?_⟩
  rw [h.version]
  rfl

/-- A node yields its block. -/
theorem addNode_yields (now : Int64) (theme : Theme) (d : Document S) (placed : Placed S) (g : G) :
    ∃ b g', Yields (addNode now theme d placed) g (b.elements.map Element.id)
        (b.head.id, { d with elements := d.elements ++ b.elements }) g' ∧
      NodeBlock theme placed b ∧ b.head.Lists [] := by
  -- a bare label is one element, an outline and its label are two
  cases hsize : (placed.node.kind.size? : Option (S × S)) with
  | none =>
    obtain ⟨shape, hshape⟩ := exists_shape (d := bareText placed theme) rfl
    obtain ⟨text, g', hcreate, hnew⟩ := Drawing.create_yields now hshape rfl g
    refine ⟨⟨text, none⟩, g', ?_, ⟨?_, ?_⟩, lists_nil hnew⟩
    · rw [addNode, hsize]
      exact (onDrawing_yields hcreate).bind (.pure _ _)
    · rw [headDraft, hsize]
      exact hnew.shows
    · rw [nodeLabel?, hsize]
      exact .none
  | some size =>
    obtain ⟨shape, hshape⟩ := exists_shape (d := outline placed size theme) rfl
    obtain ⟨head, g₁, hcreate, hnew⟩ := Drawing.create_yields now hshape rfl g
    obtain ⟨label, g₂, hlabel, hlabelNew⟩ :=
      centredText_yields now placed.node.label head.center theme.stroke g₁
    refine ⟨⟨head, some label⟩, g₂, ?_, ⟨?_, ?_⟩, lists_nil hnew⟩
    · have hpush : (d.push head).push label =
          { d with elements := d.elements ++ [head, label] } := by
        simp [Document.push]
      rw [addNode, hsize]
      show Yields _ g ([head.id] ++ ([label.id] ++ [])) (head.id, { d with
        elements := d.elements ++ [head, label] }) g₂
      rw [← hpush]
      exact (onDrawing_yields hcreate).bind (hlabel.bind (.pure _ _))
    · rw [headDraft, hsize]
      exact hnew.shows
    · rw [nodeLabel?, hsize]
      exact .some hlabelNew

/-- **Nodes.** Nodes yield their blocks, in order, and the ids that edges attach to. -/
theorem addNodes_yields (now : Int64) (theme : Theme) (placed : List (Placed S)) (d : Document S)
    (g : G) :
    ∃ nodes g', Yields (addNodes now theme d placed) g
        ((nodes.flatMap Block.elements).map Element.id)
        (nodes.map fun b => b.head.id,
          { d with elements := d.elements ++ nodes.flatMap Block.elements }) g' ∧
      List.Forall₂ (NodeBlock theme) placed nodes ∧ ∀ b ∈ nodes, b.head.Lists [] := by
  induction placed generalizing d g with
  | nil =>
    refine ⟨[], g, ?_, .nil, fun b hb => absurd hb List.not_mem_nil⟩
    rw [List.flatMap_nil, List.append_nil]
    exact .pure _ _
  | cons first rest ih =>
    obtain ⟨b, g₁, hfirst, hblock, hlists⟩ := addNode_yields now theme d first g
    obtain ⟨nodes, g₂, hrest, hblocks, hall⟩ :=
      ih { d with elements := d.elements ++ b.elements } g₁
    refine ⟨b :: nodes, g₂, ?_, .cons hblock hblocks, ?_⟩
    · rw [addNodes, List.flatMap_cons, List.map_append, ← List.append_assoc]
      refine hfirst.bind ?_
      -- what follows the other nodes draws nothing
      rw [← List.append_nil (List.map Element.id _)]
      exact hrest.bind (.pure _ _)
    · intro c hc
      rcases List.mem_cons.mp hc with rfl | hc
      · exact hlists
      · exact hall c hc

/-! ## Edges -/

/-- The text over a connector of the document, if the edge has a label. -/
theorem edgeLabel_yields (now : Int64) (theme : Theme) {d : Document S} (hnodup : d.ids.Nodup)
    {c : Element S} (hc : c ∈ d.elements) {center : Point S} (hmiddle : middle? c = some center)
    (label : Option String) (g : G) :
    ∃ text? g', Yields (match label with
          | none => pure d
          | some label => addLabel now theme d c.id label) g (text?.toList.map Element.id)
        { d with elements := d.elements ++ text?.toList } g' ∧
      Option.Rel Element.IsNew text?
        (label.map fun label => centredText label center theme.stroke) := by
  cases label with
  | none =>
    refine ⟨none, g, ?_, .none⟩
    rw [Option.toList_none, List.append_nil]
    exact .pure _ _
  | some label =>
    obtain ⟨text, g', htext, hnew⟩ := centredText_yields now label center theme.stroke g
    refine ⟨some text, g', ?_, .some hnew⟩
    -- the connector is found by its id
    have hfound : (d.get? c.id).bind middle? = some center := by
      rw [Document.get?_of_mem hnodup hc, Option.bind_some, hmiddle]
    show Yields (addLabel now theme d c.id label) g [text.id] (d.push text) g'
    rw [addLabel, hfound]
    exact htext.bind (.pure _ _)

/-- **Edges.** In a picture with distinct ids the next edge yields its block, and
the picture depicts one edge more. -/
theorem addEdge_yields (now : Int64) {theme : Theme} {placed : List (Placed S)} {edges : List Edge}
    {p : Picture S} (h : Depicts theme placed edges p) {edge : Edge}
    (hsource : edge.source = edges.length) (htarget : edge.target = edges.length + 1)
    (hlt : edges.length + 1 < placed.length) {g₀ g : G} (hg : NeverRepeats g₀)
    (hissued : Issues g₀ (p.elements.map Element.id) g) :
    ∃ p' ids g', Yields (addEdge now theme p.anchors (p.document theme) edge) g ids
        (p'.document theme) g' ∧
      Depicts theme placed (edges ++ [edge]) p' ∧ p'.anchors = p.anchors ∧
      p'.elements.map Element.id = p.elements.map Element.id ++ ids := by
  have hnodup : (p.elements.map Element.id).Nodup := hg _ _ hissued
  obtain ⟨source, target, hs, ht, hne⟩ := h.exists_neighbours hnodup hlt
  have hmem : ∀ {i : Nat} {b : Block S}, p.nodes[i]? = some b → b.head ∈ p.elements := fun hb =>
    Picture.head_mem_elements (List.mem_append_left _ (List.mem_of_getElem? hb))
  -- the two nodes are connected
  obtain ⟨c, source', target', g₁, hconnect, hconnects, hsourceNoted, htargetNoted⟩ :=
    Drawing.connect_yields now (d := p.document theme) hnodup (hmem hs) (hmem ht) hne
      (edge.look theme) g
  have hattaches := attaches_replacing hnodup hs ht (by omega) hsourceNoted htargetNoted
  have hids := Document.ids_replacing source' target' p.elements
  have hnodup' : (p.elements.map Element.id ++ [c.id]).Nodup := hg _ _ (hissued.append hconnect.2)
  -- and the label, if there is one, is put over the middle of the connector
  obtain ⟨center, hmiddle⟩ := exists_middle hconnects
  obtain ⟨text?, g₂, hlabel, hnew⟩ := edgeLabel_yields now theme
    (d := { p.document theme with
      elements := p.elements.map (Document.replacing source' target') ++ [c] })
    (by rw [Document.ids, List.map_append, hids]; exact hnodup')
    (List.mem_append_right _ List.mem_cons_self) hmiddle edge.label g₁
  have hblock : EdgeBlock theme p.nodes edge ⟨c, text?⟩ :=
    ⟨⟨source, target, hsource ▸ hs, htarget ▸ ht, hconnects⟩, center, hmiddle, hnew⟩
  have hkind : (edge.look theme).kind = c.kind := hconnects.kind.symm
  rw [hkind] at hattaches
  have helements := hattaches.elements_link ⟨c, text?⟩
  refine ⟨p.link (Document.replacing source' target') ⟨c, text?⟩,
    [c.id] ++ text?.toList.map Element.id, g₂, ?_, h.link (b := ⟨c, text?⟩) hattaches ?_ hblock,
    hattaches.anchors_link _, ?_⟩
  · have hanchorSource : p.anchors[edge.source]? = some source.head.id :=
      Picture.getElem?_anchors (hsource ▸ hs)
    have hanchorTarget : p.anchors[edge.target]? = some target.head.id :=
      Picture.getElem?_anchors (htarget ▸ ht)
    have hdocument : (p.link (Document.replacing source' target') ⟨c, text?⟩).document theme =
        { p.document theme with
          elements := p.elements.map (Document.replacing source' target') ++ [c] ++
            text?.toList } := by
      rw [Picture.document, helements, List.append_assoc]
      rfl
    rw [addEdge, hanchorSource, hanchorTarget, hdocument]
    exact (onDrawing_yields hconnect).bind hlabel
  · -- the id of the connector is a new one
    intro e he heq
    rw [List.nodup_append] at hnodup'
    exact hnodup'.2.2 e.id (List.mem_map_of_mem he) c.id List.mem_cons_self heq
  · rw [helements, List.map_append, hids]
    rfl

/-- Edges that join neighbours one to the next yield their blocks, in order. -/
theorem addEdges_yields (now : Int64) {theme : Theme} {placed : List (Placed S)} {g₀ : G}
    (hg : NeverRepeats g₀) (rest : List Edge) {edges : List Edge} {p : Picture S}
    (h : Depicts theme placed edges p)
    (hends : ∀ j edge, rest[j]? = some edge →
      edge.source = edges.length + j ∧ edge.target = edges.length + j + 1)
    (hcount : edges.length + rest.length + 1 ≤ placed.length) {g : G}
    (hissued : Issues g₀ (p.elements.map Element.id) g) :
    ∃ p' ids g', Yields (rest.foldlM (addEdge now theme p.anchors) (p.document theme)) g ids
        (p'.document theme) g' ∧
      Depicts theme placed (edges ++ rest) p' ∧
      p'.elements.map Element.id = p.elements.map Element.id ++ ids := by
  -- `edges` are drawn already and `rest` are still to come
  induction rest generalizing edges p g with
  | nil =>
    refine ⟨p, [], g, .pure _ _, ?_, (List.append_nil _).symm⟩
    rw [List.append_nil]
    exact h
  | cons edge rest ih =>
    rw [List.length_cons] at hcount
    obtain ⟨hsource, htarget⟩ := hends 0 edge rfl
    -- the step
    obtain ⟨p₁, ids₁, g₁, hedge, h₁, hanchors, hids₁⟩ :=
      addEdge_yields now h hsource htarget (by omega) hg hissued
    have hissued₁ : Issues g₀ (p₁.elements.map Element.id) g₁ := by
      rw [hids₁]
      exact hissued.append hedge.2
    -- and the edges after it, counted from one more
    have hends₁ : ∀ j next, rest[j]? = some next →
        next.source = (edges ++ [edge]).length + j ∧
          next.target = (edges ++ [edge]).length + j + 1 := by
      intro j next hnext
      obtain ⟨hs, ht⟩ := hends (j + 1) next hnext
      rw [List.length_append, List.length_singleton]
      omega
    obtain ⟨p₂, ids₂, g₂, hrest, h₂, hids₂⟩ :=
      ih h₁ hends₁ (by rw [List.length_append, List.length_singleton]; omega) hissued₁
    refine ⟨p₂, ids₁ ++ ids₂, g₂, ?_, ?_, ?_⟩
    · rw [hanchors] at hrest
      exact hedge.bind hrest
    · rw [List.append_assoc] at h₂
      exact h₂
    · rw [hids₂, hids₁, List.append_assoc]

/-! ## Diagrams -/

/-- **Drawing.** A chain is drawn, whatever the source of ids, as long as it does
not hand out an id twice. The document shows a picture of the chain, and the ids
drawn are those of its elements. -/
theorem draw_yields (now : Int64) (options : Options) {diagram : Diagram}
    (hchain : diagram.IsChain) {g : G} (hg : NeverRepeats g) :
    ∃ (p : Picture S) (g' : G), Yields (draw now options diagram) g (p.elements.map Element.id)
        (p.document options.theme) g' ∧
      Depicts options.theme (layout options.direction options.spacing diagram.nodes)
        diagram.edges p := by
  have hplaced : (layout options.direction options.spacing diagram.nodes :
      List (Placed S)).length = diagram.nodes.length := by
    rw [layout, List.length_map, List.length_zipIdx]
  obtain ⟨nodes, g₁, hnodes, hblocks, hlists⟩ := addNodes_yields now options.theme
    (layout options.direction options.spacing diagram.nodes : List (Placed S))
    (emptyDocument options.theme) g
  -- at first nothing is attached to the nodes
  let p₀ : Picture S := ⟨nodes, []⟩
  have helements : p₀.elements = nodes.flatMap Block.elements := by
    rw [Picture.elements, List.append_nil]
  have hdocument : ({ emptyDocument options.theme with
      elements := (emptyDocument options.theme : Document S).elements ++
        nodes.flatMap Block.elements } : Document S) = p₀.document options.theme := by
    rw [Picture.document, helements]
    rcases options with ⟨direction, spacing, theme⟩
    cases theme <;> rfl
  have h₀ : Depicts options.theme (layout options.direction options.spacing diagram.nodes) [] p₀ :=
    ⟨hblocks, .nil, fun i b hb => by
      have hnone : p₀.linksAt i = [] := by cases i <;> rfl
      rw [hnone]
      exact hlists b (List.mem_of_getElem? hb)⟩
  have hcount := hchain.count
  obtain ⟨p, ids, g', hedges, h, hids⟩ := addEdges_yields now hg diagram.edges h₀
    (fun j edge hedge => by
      obtain ⟨hs, ht⟩ := hchain.ends j edge hedge
      rw [hs, ht, List.length_nil]
      omega)
    (by rw [List.length_nil]; omega) (by rw [helements]; exact hnodes.2)
  refine ⟨p, g', ?_, h⟩
  rw [hids, helements, draw]
  refine hnodes.bind ?_
  rw [hdocument]
  exact hedges

/-- **Compilation.** Whatever diagram a source describes, it is drawn. -/
theorem compile_yields (now : Int64) (options : Options) {source : String} {diagram : Diagram}
    (hread : Diagram.read source = .ok diagram) {g : G} (hg : NeverRepeats g) :
    ∃ (p : Picture S) (g' : G), Yields (compile now options source) g (p.elements.map Element.id)
        (p.document options.theme) g' ∧
      Depicts options.theme (layout options.direction options.spacing diagram.nodes)
        diagram.edges p := by
  rw [compile, hread]
  exact draw_yields now options (isChain_of_read hread) hg

end Whiteboard.Chain
