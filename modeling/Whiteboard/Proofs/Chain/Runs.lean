import Whiteboard.Proofs.Chain.Overlaps
import Whiteboard.Proofs.Drawing.Tracks

/-!
# Whiteboard — the runs of connectors

A connector finds its way by the centers of the two elements that it joins, and outlines of
different kinds that stand next to each other are neither level nor a full step apart there. But
sizes differ by at most 30, so that centers are at most 15 off, and a step is 80 at least: between
two outlines of a row the way is always along the row, from the end of the one to the start of the
next. It takes what the first outline leaves of the step, which is never less than the spacing.

Main results:

* `faces_next` — the centers of neighbours are farthest apart along the row.
* `leading_next` — how far a neighbour starts from the end of the one before.
* `compile_runs` — where the connectors of a drawing run, and how large they are.
-/

namespace Whiteboard.Chain

open Drawing (Axis Document Element NeverRepeats Route axisBetween)

/-- The axis along which a direction leads. -/
def Direction.axis : Direction → Axis
  | .horizontal => .horizontal
  | .vertical => .vertical

/-! ## Neighbours -/

/-- Outlines are of much the same size. -/
theorem outline_bounds {node : Node} (h : node.kind ≠ .textOnly) :
    (120 ≤ node.width ∧ node.width ≤ 150) ∧ 60 ≤ node.height ∧ node.height ≤ 80 := by
  obtain ⟨kind, label⟩ := node
  cases kind <;> first | exact absurd rfl h | (simp only [Node.width, Node.height]; omega)

theorem station_succ (direction : Direction) (spacing : UInt32) (index : Nat) :
    station direction spacing (index + 1) =
      station direction spacing index + step direction spacing := by
  rw [station, station, Nat.succ_mul]
  omega

/-- Where a node of a row starts and ends along the row. -/
theorem edges_place (direction : Direction) (spacing : UInt32) (node : Node) (index : Nat) :
    let box : Box Rat := (place direction spacing node index).box
    direction.axis.along (direction.axis.leading box) = (station direction spacing index : Rat) ∧
      direction.axis.along (direction.axis.trailing box) =
        direction.axis.along (direction.axis.leading box) + direction.axis.extent box ∧
      direction.axis.extent box = (node.reach direction : Rat) := by
  intro box
  rw [Axis.leading_rat, Axis.trailing_rat, show box = _ from box_place direction spacing node index]
  cases direction
  · exact ⟨rfl, rfl, rfl⟩
  · exact ⟨rfl, rfl, rfl⟩

/-- **Neighbours face each other.** The centers of two outlines next to each other in a row are
farther apart along the row than across it, and the later one comes later there. -/
theorem faces_next (direction : Direction) (spacing : UInt32) {node node' : Node}
    (h : node.kind ≠ .textOnly) (h' : node'.kind ≠ .textOnly) (index : Nat) :
    let a : Box Rat := (place direction spacing node index).box
    let b : Box Rat := (place direction spacing node' (index + 1)).box
    axisBetween a b = direction.axis ∧
      direction.axis.along a.center < direction.axis.along b.center := by
  intro a b
  have hbounds : ∀ {n : Node}, n.kind ≠ .textOnly →
      ((120 : Rat) ≤ n.width ∧ (n.width : Rat) ≤ 150) ∧
        (60 : Rat) ≤ n.height ∧ (n.height : Rat) ≤ 80 := by
    intro n hn
    exact_mod_cast outline_bounds hn
  obtain ⟨⟨hw, hw₁⟩, hh, hh₁⟩ := hbounds h
  obtain ⟨⟨hw', hw₁'⟩, hh', hh₁'⟩ := hbounds h'
  have hspacing : (0 : Rat) ≤ (spacing.toNat : Rat) := Nat.cast_nonneg _
  rw [axisBetween, show a = _ from box_place direction spacing node index,
    show b = _ from box_place direction spacing node' (index + 1), Box.center_rat, Box.center_rat]
  cases direction with
  | horizontal =>
    simp only [station_succ, step, Nat.cast_add]
    -- 135 or more along the row and 10 at most across it
    have hahead : (station .horizontal spacing index : Rat) + node.width / 2 + 135 ≤
        station .horizontal spacing index + ((150 : Nat) + spacing.toNat) + node'.width / 2 := by
      push_cast
      linarith
    refine ⟨if_pos ?_, ?_⟩
    · refine lt_of_lt_of_le (abs_lt.mpr ⟨?_, ?_⟩) (le_trans ?_ (le_abs_self _)) (b := 135)
      · linarith
      · linarith
      · linarith
    · show _ + _ < _ + _
      linarith
  | vertical =>
    simp only [station_succ, step, Nat.cast_add]
    -- 70 or more along the row and 15 at most across it
    have hahead : (station .vertical spacing index : Rat) + node.height / 2 + 70 ≤
        station .vertical spacing index + ((80 : Nat) + spacing.toNat) + node'.height / 2 := by
      push_cast
      linarith
    refine ⟨if_neg (not_lt.mpr ?_), ?_⟩
    · refine le_trans (abs_le.mpr ⟨?_, ?_⟩) (le_trans ?_ (le_abs_self _)) (b := 70)
      · linarith
      · linarith
      · linarith
    · show _ + _ < _ + _
      linarith

/-- **The way to the next node.** From the end of a node it takes what the node leaves of the
step, and that is the spacing at least. -/
theorem leading_next (direction : Direction) (spacing : UInt32) {node : Node} (node' : Node)
    (h : node.kind ≠ .textOnly) (index : Nat) :
    let a : Box Rat := (place direction spacing node index).box
    let b : Box Rat := (place direction spacing node' (index + 1)).box
    let axis := direction.axis
    axis.along (axis.leading b) - axis.along (axis.trailing a) =
        (step direction spacing : Rat) - axis.extent a ∧
      (spacing.toNat : Rat) ≤ axis.along (axis.leading b) - axis.along (axis.trailing a) := by
  intro a b axis
  obtain ⟨hleading, htrailing, hextent⟩ := edges_place direction spacing node index
  obtain ⟨hleading', -, -⟩ := edges_place direction spacing node' (index + 1)
  have hway : axis.along (axis.leading b) - axis.along (axis.trailing a) =
      (step direction spacing : Rat) - axis.extent a := by
    rw [htrailing, hleading, hleading', station_succ, Nat.cast_add]
    ring
  refine ⟨hway, ?_⟩
  -- no outline is longer than the pitch
  have hroom : spacing.toNat + node.reach direction ≤ step direction spacing := by
    have hbounds := outline_bounds h
    cases direction <;> simp only [step, Node.reach] <;> omega
  have hroom' : (spacing.toNat : Rat) + node.reach direction ≤ step direction spacing := by
    exact_mod_cast hroom
  rw [hway, hextent]
  linarith

/-! ## The connectors of a drawing -/

/-- The connector leads from the middle of the edge with which the one box ends to the middle of
that with which the other starts, and is as large as its two points are apart, or one. -/
structure Leads (axis : Axis) (a b : Box Rat) (c : Element Rat) : Prop where
  track : c.track = some [axis.trailing a, axis.leading b]
  width : c.width = max |(axis.leading b).x - (axis.trailing a).x| 1
  height : c.height = max |(axis.leading b).y - (axis.trailing a).y| 1

/-- A connector leads straight on if the second element lies ahead of the first. -/
theorem leads_of_ahead {axis : Axis} {a b c : Element Rat} {look : Drawing.ConnectorLook}
    (hc : c.Connects (.plan a b) look) (haxis : axisBetween a.box b.box = axis)
    (h : axis.along a.center < axis.along b.center) : Leads axis a.box b.box c := by
  have htrack := hc.track
  have hsize := hc.size
  rw [Drawing.plan_of_ahead haxis h] at htrack hsize
  exact ⟨htrack, hsize.1, hsize.2⟩

/-- An outlined node is drawn in the box of the node. -/
theorem DrawsNode.box {theme : Theme} {placed : Placed Rat} {b : Block Rat}
    (h : DrawsNode theme placed b.elements) (hkind : placed.node.kind ≠ .textOnly) :
    b.head.box = placed.box := by
  obtain ⟨elements, helements⟩ : ∃ elements, b.elements = elements := ⟨_, rfl⟩
  rw [helements] at h
  cases h with
  | bare hbare => exact absurd hbare hkind
  | outlined _ houtline _ =>
    obtain ⟨rfl, -⟩ := List.cons.inj helements
    obtain ⟨hwidth, hheight⟩ := Prod.mk.inj (size?_eq houtline.size)
    rw [Element.box, houtline.x, houtline.y, hwidth, hheight]
    rfl

/-- So are all nodes of a drawing that are outlined. -/
theorem Diagram.DrawnAs.box {diagram : Diagram} {options : Options} {p : Picture Rat}
    {d : Document Rat} (h : diagram.DrawnAs options p d) {i : Nat} {node : Node} {b : Block Rat}
    (hi : diagram.nodes[i]? = some node) (hb : p.nodes[i]? = some b)
    (hkind : node.kind ≠ .textOnly) :
    b.head.box = (place options.direction options.spacing node i : Placed Rat).box := by
  have hdraws := of_layout h.nodes hi hb
  exact hdraws.box (by rwa [node_place])

/-- **The connectors of a drawing.** Where no node is a bare label, the connector of each edge
leads from the middle of the edge with which the node before it ends to the middle of the edge
with which the node after it starts, in the direction of the drawing. On its way along that
direction it covers what the node before it leaves of the step, hence the spacing at least, and
it is as wide and as high as its two points are apart, but never less than one. -/
theorem compile_runs {G : Type} [Drawing.IdSource G] (now : Int64) (options : Options)
    {source : String} {diagram : Diagram} (hread : Diagram.read source = .ok diagram)
    (houtlined : ∀ node ∈ diagram.nodes, node.kind ≠ .textOnly) {g : G} (hg : NeverRepeats g) :
    ∃ (d : Document Rat) (g' : G) (p : Picture Rat),
      (compile now options source).run.run g = (.ok d, g') ∧ diagram.DrawnAs options p d ∧
      ∀ (j : Nat) (link : Block Rat), p.links[j]? = some link →
        ∃ before after, p.nodes[j]? = some before ∧ p.nodes[j + 1]? = some after ∧
          let axis := options.direction.axis
          let start := axis.trailing before.head.box
          let finish := axis.leading after.head.box
          Leads axis before.head.box after.head.box link.head ∧
          axis.along finish - axis.along start =
            (step options.direction options.spacing : Rat) - axis.extent before.head.box ∧
          (options.spacing.toNat : Rat) ≤ axis.along finish - axis.along start := by
  obtain ⟨p, g', ⟨hrun, -⟩, h⟩ := compile_yields (S := Rat) now options hread hg
  have hdrawn := h.drawnAs
  refine ⟨_, g', p, hrun, hdrawn, fun j link hlink => ?_⟩
  obtain ⟨edge, before, after, -, -, hbefore, hafter, hconnects⟩ :=
    h.exists_ends (isChain_of_read hread) hlink
  -- both nodes are there, and both are outlined
  have hnode : ∀ {i : Nat} {b : Block Rat}, p.nodes[i]? = some b →
      ∃ node, node.kind ≠ .textOnly ∧
        b.head.box = (place options.direction options.spacing node i : Placed Rat).box := by
    intro i b hb
    have hi : i < diagram.nodes.length := by
      have hlength := h.nodes.length_eq
      rw [layout, List.length_map, List.length_zipIdx] at hlength
      have hlt := (List.getElem?_eq_some_iff.mp hb).1
      omega
    have hkind := houtlined _ (List.getElem_mem hi)
    exact ⟨_, hkind, hdrawn.box (List.getElem?_eq_getElem hi) hb hkind⟩
  obtain ⟨node, hkind, hbox⟩ := hnode hbefore
  obtain ⟨node', hkind', hbox'⟩ := hnode hafter
  have hfaces := faces_next options.direction options.spacing hkind hkind' j
  have hnext := leading_next options.direction options.spacing node' hkind j
  rw [← hbox, ← hbox'] at hfaces hnext
  exact ⟨before, after, hbefore, hafter, leads_of_ahead hconnects hfaces.1 hfaces.2, hnext⟩

/-- A rectangle, a diamond and an ellipse side by side without spacing: the first connector only
goes down to the middle of the diamond, the second crosses the 30 that the diamond leaves. -/
theorem compile_runs_of_diamond : ∃ (d : Document Rat) (g' : Drawing.NumberedIds)
    (first second : Element Rat),
    (compile 0 { spacing := 0 } "[a] -> {b} -- (c)").run.run (.fresh "e") = (.ok d, g') ∧
    first ∈ d.elements ∧ second ∈ d.elements ∧
    (first.track, first.width, first.height) = (some [⟨250, 130⟩, ⟨250, 140⟩], 1, 10) ∧
    (second.track, second.width, second.height) = (some [⟨370, 140⟩, ⟨400, 130⟩], 30, 10) := by
  have hread : Diagram.read "[a] -> {b} -- (c)" =
      .ok ⟨[⟨.rectangle, "a"⟩, ⟨.diamond, "b"⟩, ⟨.ellipse, "c"⟩],
        [⟨0, 1, none, .arrow⟩, ⟨1, 2, none, .line⟩]⟩ := by
    decide +kernel
  obtain ⟨d, g', p, hrun, hdrawn, hleads⟩ := compile_runs 0 { spacing := 0 } hread (by simp)
    (Drawing.NumberedIds.neverRepeats (.fresh "e"))
  obtain ⟨a, b, hp⟩ : ∃ a b, p.links = [a, b] := List.length_eq_two.mp hdrawn.links.length_eq.symm
  have hmem : ∀ link ∈ p.links, link.head ∈ d.elements := by
    intro link hlink
    rw [hdrawn.elements]
    exact Picture.head_mem_elements (List.mem_append_right _ hlink)
  obtain ⟨n, n', hn, hn', hfirst, -⟩ := hleads 0 a (by rw [hp]; rfl)
  obtain ⟨m, m', hm, hm', hsecond, -⟩ := hleads 1 b (by rw [hp]; rfl)
  rw [hdrawn.box (i := 0) rfl hn (by decide), hdrawn.box (i := 1) rfl hn' (by decide)] at hfirst
  rw [hdrawn.box (i := 1) rfl hm (by decide), hdrawn.box (i := 2) rfl hm' (by decide)] at hsecond
  refine ⟨d, g', a.head, b.head, hrun, hmem a (by simp [hp]), hmem b (by simp [hp]), ?_, ?_⟩
  · rw [hfirst.track, hfirst.width, hfirst.height]
    decide +kernel
  · rw [hsecond.track, hsecond.width, hsecond.height]
    decide +kernel

end Whiteboard.Chain
