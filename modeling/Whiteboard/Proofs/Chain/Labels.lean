import Whiteboard.Proofs.Chain.Runs

/-!
# Whiteboard — where labels are put

A label is tied to nothing, so only its place tells what it labels. It is placed by its corner,
which is half of its measured size away from the point that it is meant for; in exact arithmetic
its center is that point again, however long the label is. Over an outline the point is the center
of the outline. Over a connector it is found from the connector alone, whose last point is relative
to its place, and still it is the middle between the ends of the route.

Main results:

* `labelsAt_of_isNew` — a text of its measured size around a point.
* `middle?_of_connects` — the middle of a connector is the middle of its route.
* `compile_labels` — where the labels of a drawing are.
-/

namespace Whiteboard.Chain

open Drawing (Document Draft Element NeverRepeats Route textSize)

/-- The text shows a label around a point: it is as large as the label measures, it is aligned to
its own middle, and it is in no container. -/
structure LabelsAt (label : String) (center : Point Rat) (e : Element Rat) : Prop where
  center : e.center = center
  body : ∃ body, e.shape = .text body ∧ body.text = label ∧ body.textAlign = .center ∧
    body.verticalAlign = .middle ∧ body.containerId = none ∧
    body.fontSize = Drawing.defaultFontSize ∧ (e.width, e.height) = textSize label body.fontSize

theorem labelsAt_of_isNew {e : Element Rat} {label : String} {center : Point Rat} {stroke : String}
    (h : e.IsNew (centredText label center stroke)) : LabelsAt label center e := by
  obtain ⟨shape, hshape, heq⟩ := h.shows
  cases hshape
  have hx : e.x = center.x - (textSize label Drawing.defaultFontSize).1 / 2.0 :=
    congrArg Element.x heq
  have hy : e.y = center.y - (textSize label Drawing.defaultFontSize).2 / 2.0 :=
    congrArg Element.y heq
  have hwidth : e.width = (textSize label Drawing.defaultFontSize).1 := congrArg Element.width heq
  have hheight : e.height = (textSize label Drawing.defaultFontSize).2 :=
    congrArg Element.height heq
  -- half of the size is taken off and put on again
  have hback : ∀ a b : Rat, a - b / 2.0 + b / 2 = a := by
    intro a b
    norm_num
  refine ⟨?_, (centredText label center stroke).textBody, (Option.some.inj h.shape).symm, rfl, rfl,
    rfl, rfl, rfl, ?_⟩
  · rw [Element.center, Box.center_rat]
    show Point.mk (e.x + e.width / 2) (e.y + e.height / 2) = center
    rw [hx, hy, hwidth, hheight]
    exact congrArg₂ Point.mk (hback _ _) (hback _ _)
  · rw [hwidth, hheight]
    rfl

/-! ## The middle of a connector -/

/-- The middle is halfway between the place of a connector and the last point of its track. -/
theorem middle?_eq {S : Type} [Scalar S] (c : Element S) :
    middle? c = c.track.bind fun track => track.getLast?.map (Point.midpoint ⟨c.x, c.y⟩) := by
  rw [middle?, Element.track]
  cases c.shape.polyline? with
  | none => rfl
  | some path =>
    show path.points.getLast?.bind _ = (path.points.map _).getLast?.map _
    rw [List.getLast?_map, Option.map_map]
    cases path.points.getLast? <;> rfl

theorem middle?_of_connects {c source target : Element Rat} {look : Drawing.ConnectorLook}
    (h : c.Connects (.plan source target) look) :
    middle? c = some
      (Point.midpoint (Route.plan source target).start (Route.plan source target).finish) := by
  have hspans := h.spans
  rw [middle?_eq, h.track, hspans.x, hspans.y]
  rfl

/-! ## The labels of a drawing -/

/-- Where a label is called for, there is one. -/
theorem exists_labelsAt {label? : Option (Element Rat)} {label : String} {center : Point Rat}
    {stroke : String}
    (h : Option.Rel Element.IsNew label? (some (centredText label center stroke))) :
    ∃ text, label? = some text ∧ LabelsAt label center text := by
  cases label? with
  | none => cases h
  | some text =>
    cases h with
    | some hnew => exact ⟨text, rfl, labelsAt_of_isNew hnew⟩

/-- An outlined node has its label over the center of the outline. -/
theorem NodeBlock.labelsAt {theme : Theme} {placed : Placed Rat} {b : Block Rat}
    (h : NodeBlock theme placed b) (hkind : placed.node.kind ≠ .textOnly) :
    ∃ text, b.label? = some text ∧ LabelsAt placed.node.label b.head.center text := by
  have hlabel := h.label
  rw [nodeLabel?] at hlabel
  cases hsize : (placed.node.kind.size? : Option (Rat × Rat)) with
  | none => exact absurd (size?_eq_none_iff.mp hsize) hkind
  | some size =>
    rw [hsize, Option.map_some] at hlabel
    exact exists_labelsAt hlabel

/-- An edge with a label has it over the middle of its connector. -/
theorem EdgeBlock.labelsAt {theme : Theme} {nodes : List (Block Rat)} {edge : Edge}
    {b : Block Rat} (h : EdgeBlock theme nodes edge b) {label : String}
    (hlabel : edge.label = some label) {center : Point Rat}
    (hcenter : middle? b.head = some center) :
    ∃ text, b.label? = some text ∧ LabelsAt label center text := by
  obtain ⟨center', hmiddle, hrel⟩ := h.label
  obtain rfl : center = center' := Option.some.inj (hcenter.symm.trans hmiddle)
  rw [hlabel, Option.map_some] at hrel
  exact exists_labelsAt hrel

/-- **The labels of a drawing.** Whatever the labels are, each outlined node has its label around
the center of its outline, and each labelled edge has it around the middle between the two ends of
its connector. All these texts are as large as their labels measure, aligned to the middle and in
no container. -/
theorem compile_labels {G : Type} [Drawing.IdSource G] (now : Int64) (options : Options)
    {source : String} {diagram : Diagram} (hread : Diagram.read source = .ok diagram) {g : G}
    (hg : NeverRepeats g) :
    ∃ (d : Document Rat) (g' : G) (p : Picture Rat),
      (compile now options source).run.run g = (.ok d, g') ∧ diagram.DrawnAs options p d ∧
      (∀ (i : Nat) (node : Node) (b : Block Rat), diagram.nodes[i]? = some node →
        p.nodes[i]? = some b → node.kind ≠ .textOnly →
        ∃ text, b.label? = some text ∧ LabelsAt node.label b.head.center text) ∧
      ∀ (j : Nat) (edge : Edge) (link : Block Rat) (label : String),
        diagram.edges[j]? = some edge → p.links[j]? = some link → edge.label = some label →
        ∃ before after text, p.nodes[j]? = some before ∧ p.nodes[j + 1]? = some after ∧
          let route := Route.plan before.head after.head
          link.head.track = some [route.start, route.finish] ∧ link.label? = some text ∧
          LabelsAt label (Point.midpoint route.start route.finish) text := by
  obtain ⟨p, g', ⟨hrun, -⟩, h⟩ := compile_yields (S := Rat) now options hread hg
  refine ⟨_, g', p, hrun, h.drawnAs, ?_, ?_⟩
  · intro i node b hi hb hkind
    have hblock := of_layout h.nodes hi hb
    have hlabels := hblock.labelsAt (by rwa [node_place])
    rwa [node_place] at hlabels
  · intro j edge link label hedge hlink hlabel
    obtain ⟨edge', before, after, hedge', hblock, hbefore, hafter, hconnects⟩ :=
      h.exists_ends (isChain_of_read hread) hlink
    obtain rfl : edge = edge' := Option.some.inj (hedge.symm.trans hedge')
    obtain ⟨text, htext, hlabels⟩ := hblock.labelsAt hlabel (middle?_of_connects hconnects)
    exact ⟨before, after, text, hbefore, hafter, hconnects.track, htext, hlabels⟩

/-- The label of the edge has two lines and is wider than the gap that it is over; its middle is
where the connector from (250, 130) to (300, 140) has its own. -/
theorem compile_labels_of_chain : ∃ (d : Document Rat) (g' : Drawing.NumberedIds)
    (inside between : Element Rat),
    (compile 0 {} "(go) -> \"Größe\nund mehr\" -> {Ja}").run.run (.fresh "e") = (.ok d, g') ∧
    inside ∈ d.elements ∧ between ∈ d.elements ∧
    LabelsAt "Ja" ⟨360, 140⟩ inside ∧ LabelsAt "Größe\nund mehr" ⟨275, 135⟩ between ∧
    (between.width, between.height) = (96, 50) := by
  have hread : Diagram.read "(go) -> \"Größe\nund mehr\" -> {Ja}" =
      .ok ⟨[⟨.ellipse, "go"⟩, ⟨.diamond, "Ja"⟩], [⟨0, 1, some "Größe\nund mehr", .arrow⟩]⟩ := by
    decide +kernel
  obtain ⟨d, g', p, hrun, hdrawn, hnodes, hedges⟩ := compile_labels 0 {} hread
    (Drawing.NumberedIds.neverRepeats (.fresh "e"))
  obtain ⟨a, b, hp⟩ : ∃ a b, p.nodes = [a, b] := List.length_eq_two.mp hdrawn.nodes.length_eq.symm
  obtain ⟨link, hp'⟩ : ∃ link, p.links = [link] :=
    List.length_eq_one_iff.mp hdrawn.links.length_eq.symm
  have hmem : ∀ block ∈ p.nodes ++ p.links, ∀ e, block.label? = some e → e ∈ d.elements := by
    intro block hblock e he
    rw [hdrawn.elements, Picture.elements, List.mem_flatMap]
    exact ⟨block, hblock, List.mem_cons_of_mem _ (Option.mem_toList.mpr he)⟩
  have ha : a.head.box = ⟨100, 100, 150, 60⟩ :=
    (hdrawn.box (i := 0) rfl (by rw [hp]; rfl) (by decide)).trans (by decide +kernel)
  have hb : b.head.box = ⟨300, 100, 120, 80⟩ :=
    (hdrawn.box (i := 1) rfl (by rw [hp]; rfl) (by decide)).trans (by decide +kernel)
  obtain ⟨inside, hinside, hinsideAt⟩ := hnodes 1 _ b rfl (by rw [hp]; rfl) (by decide)
  obtain ⟨before, after, between, hbefore, hafter, -, hbetween, hbetweenAt⟩ :=
    hedges 0 _ link _ rfl (by rw [hp']; rfl) rfl
  rw [hp] at hbefore hafter
  obtain rfl : a = before := Option.some.inj hbefore
  obtain rfl : b = after := Option.some.inj hafter
  have hcenter : b.head.center = ⟨360, 140⟩ := by
    rw [Element.center, hb]
    decide +kernel
  have hmiddle : Point.midpoint (Route.plan a.head b.head).start (Route.plan a.head b.head).finish =
      ⟨275, 135⟩ := by
    rw [Route.plan, ha, hb]
    show Point.midpoint (Drawing.anchors _ _).1 (Drawing.anchors _ _).2.1 = _
    decide +kernel
  rw [hcenter] at hinsideAt
  rw [hmiddle] at hbetweenAt
  refine ⟨d, g', inside, between, hrun, hmem b (by simp [hp]) inside hinside,
    hmem link (by simp [hp']) between hbetween, hinsideAt, hbetweenAt, ?_⟩
  obtain ⟨body, -, -, -, -, -, hfont, hsize⟩ := hbetweenAt.body
  rw [hsize, hfont, textSize_default]
  decide +kernel

end Whiteboard.Chain
