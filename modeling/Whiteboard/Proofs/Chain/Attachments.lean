import Whiteboard.Proofs.Chain.Elements

/-!
# Whiteboard — attachments of a drawn diagram

Connectors and nodes of a drawn diagram know of each other. The connector of an
edge is bound to the node before it and to the node after it. A node lists the
connector before it and the connector after it, as far as they are there, and its
version counts them. Nothing is attached to any other element.

Main results:

* `Picture.linksAt_eq_nil_iff` — a node lists no connector only where there is none.
* `compile_attachments` — the attachments of every element of a drawn diagram.
-/

namespace Whiteboard.Chain

open Drawing (Document Element NeverRepeats bindingTo listed)

variable {S : Type}

/-- In a chain every node has a connector, unless there are none at all. -/
theorem Picture.linksAt_eq_nil_iff {p : Picture S} {i : Nat} (hi : i ≤ p.links.length) :
    p.linksAt i = [] ↔ p.links = [] := by
  refine ⟨fun h => ?_, fun h => ?_⟩
  · rcases Nat.eq_zero_or_pos p.links.length with hlength | hpos
    · exact List.length_eq_zero_iff.mp hlength
    · exfalso
      cases i with
      | zero =>
        rw [linksAt, List.getElem?_eq_getElem hpos] at h
        cases h
      | succ i =>
        rw [linksAt, List.getElem?_eq_getElem (show i < p.links.length from hi)] at h
        cases h
  · cases i <;> simp [linksAt, h]

theorem listed_eq_none_iff {entries : List Drawing.BoundElement} :
    listed entries = none ↔ entries = [] := by
  cases entries <;> simp [listed]

variable [Scalar S]

/-- The connector of an edge is bound to the nodes before and after it. -/
theorem EdgeBlock.bindings {theme : Theme} {nodes : List (Block S)} {edge : Edge} {b : Block S}
    (h : EdgeBlock theme nodes edge b) :
    ∃ source target path, nodes[edge.source]? = some source ∧ nodes[edge.target]? = some target ∧
      b.head.shape.polyline? = some path ∧
      path.startBinding = some (bindingTo source.head.id) ∧
      path.endBinding = some (bindingTo target.head.id) := by
  obtain ⟨⟨source, target, hsource, htarget, hconnects⟩, -⟩ := h
  obtain ⟨path, hpath, hends⟩ := Option.map_eq_some_iff.mp hconnects.ends
  rw [Prod.mk.injEq] at hends
  exact ⟨source, target, path, hsource, htarget, hpath, hends⟩

variable {G : Type} [Drawing.IdSource G]

/-- **Attachments of a drawn diagram.** The connector of each edge is bound to the
element of the node before it and to that of the node after it. The element of a
node lists exactly the connectors of the edges at the node, that of the edge before
it first, and each of them has made a version; it has no list only where the diagram
has no edge. Labels and connectors list nothing and are in their first version. -/
theorem compile_attachments (now : Int64) (options : Options) {source : String}
    {diagram : Diagram} (hread : Diagram.read source = .ok diagram) {g : G}
    (hg : NeverRepeats g) :
    ∃ (d : Document S) (g' : G) (p : Picture S),
      (compile now options source).run.run g = (.ok d, g') ∧
      d.elements = p.elements ∧
      List.Forall₂ (fun placed b => DrawsNode options.theme placed b.elements)
        (layout options.direction options.spacing diagram.nodes) p.nodes ∧
      List.Forall₂ (fun edge b => DrawsEdge edge b.elements) diagram.edges p.links ∧
      (∀ j link, p.links[j]? = some link →
        ∃ before after path, p.nodes[j]? = some before ∧ p.nodes[j + 1]? = some after ∧
          link.head.shape.polyline? = some path ∧
          path.startBinding = some (bindingTo before.head.id) ∧
          path.endBinding = some (bindingTo after.head.id)) ∧
      (∀ i node, p.nodes[i]? = some node →
        node.head.boundElements = listed (p.linksAt i) ∧
          node.head.version.toNat = 1 + (p.linksAt i).length ∧
          (node.head.boundElements = none ↔ diagram.nodes.length = 1)) ∧
      (∀ link ∈ p.links, link.head.boundElements = none ∧ link.head.version = 1) ∧
      (∀ b ∈ p.nodes ++ p.links, ∀ label, b.label? = some label →
        label.boundElements = none ∧ label.version = 1) := by
  obtain ⟨p, g', ⟨hrun, -⟩, h⟩ := compile_yields (S := S) now options hread hg
  have hchain := isChain_of_read hread
  have hlinks : diagram.edges.length = p.links.length := h.links.length_eq
  refine ⟨p.document options.theme, g', p, hrun, rfl, h.nodes.imp fun _ _ hnode => hnode.draws,
    h.links.imp fun _ _ hlink => hlink.draws, ?_, ?_, ?_, ?_⟩
  · -- the edge at place `j` of a chain leads from `j` to `j + 1`
    intro j link hlink
    obtain ⟨hj, rfl⟩ := List.getElem?_eq_some_iff.mp hlink
    have hedge : diagram.edges[j]? = some (diagram.edges.get ⟨j, by omega⟩) :=
      List.getElem?_eq_getElem _
    obtain ⟨hsource, htarget⟩ := hchain.ends j _ hedge
    obtain ⟨before, after, path, hbefore, hafter, hbindings⟩ := (h.links.get (by omega) hj).bindings
    exact ⟨before, after, path, hsource ▸ hbefore, htarget ▸ hafter, hbindings⟩
  · -- what a node lists is part of what the picture says
    intro i node hnode
    obtain ⟨hlist, hversion⟩ := h.marks i node hnode
    refine ⟨hlist, hversion, ?_⟩
    have hi : i ≤ p.links.length := by
      have hlt := (List.getElem?_eq_some_iff.mp hnode).1
      have hnodes := h.nodes.length_eq
      have hcount := hchain.count
      rw [layout, List.length_map, List.length_zipIdx] at hnodes
      omega
    rw [hlist, listed_eq_none_iff, Picture.linksAt_eq_nil_iff hi, ← List.length_eq_zero_iff,
      ← hlinks]
    have hcount := hchain.count
    omega
  · intro link hlink
    obtain ⟨edge, -, ⟨before, after, -, -, hconnects⟩, -⟩ := h.exists_edge hlink
    exact ⟨hconnects.unbound, hconnects.version⟩
  · intro b hb label hlabel
    obtain ⟨text, center, hnew⟩ := h.isNew_label hb hlabel
    exact ⟨hnew.unbound, hnew.version⟩

/-- Of three nodes the one in the middle lists two connectors, so it is in its third
version. -/
theorem compile_attachments_of_chain :
    ∃ (d : Document Rat) (g' : Drawing.NumberedIds),
      (compile 0 {} "[Ask] -> \"why\" -> (Answer) --> <end>").run.run (.fresh "e") =
        (.ok d, g') ∧
      ∃ e ∈ d.elements, e.version.toNat = 3 ∧ e.boundElements.isSome := by
  have hread : Diagram.read "[Ask] -> \"why\" -> (Answer) --> <end>" =
      .ok ⟨[⟨.rectangle, "Ask"⟩, ⟨.ellipse, "Answer"⟩, ⟨.textOnly, "end"⟩],
        [⟨0, 1, some "why", .arrow⟩, ⟨1, 2, none, .dashedArrow⟩]⟩ := by
    decide +kernel
  obtain ⟨d, g', p, hrun, helements, hnodes, hlinks, -, hmarks, -, -⟩ :=
    compile_attachments (S := Rat) 0 {} hread (Drawing.NumberedIds.neverRepeats (.fresh "e"))
  obtain ⟨a, b, hp⟩ : ∃ a b, p.links = [a, b] := List.length_eq_two.mp hlinks.length_eq.symm
  have hlength : p.nodes.length = 3 := hnodes.length_eq.symm
  obtain ⟨hlist, hversion, -⟩ := hmarks 1 _ (List.getElem?_eq_getElem (by omega))
  have hboth : p.linksAt 1 = [Picture.linkTo a, Picture.linkTo b] := by
    simp [Picture.linksAt, hp]
  rw [hboth] at hlist hversion
  refine ⟨d, g', hrun, _, ?_, hversion, ?_⟩
  · rw [helements]
    exact Picture.head_mem_elements (List.mem_append_left _ (List.getElem_mem _))
  · rw [hlist]
    rfl

end Whiteboard.Chain
