import Mathlib.Algebra.Order.Field.Basic
import Mathlib.Data.Rat.Cast.Order
import Mathlib.Tactic.Linarith
import Mathlib.Tactic.NormNum
import Mathlib.Tactic.Ring
import Whiteboard.Proofs.Chain.Elements
import Whiteboard.Proofs.Drawing.Places
import Whiteboard.Proofs.Drawing.TextSize

/-!
# Whiteboard — which nodes overlap

The pitch of a row is a constant, and so is the size of an outline, but a bare label is as
wide and as high as its text. So outlines never reach the next node, whatever the spacing, and
a bare label does as soon as its text is longer than the pitch and the spacing together; how
many nodes it covers is told from its text alone.

The places of the nodes do not depend on the source of ids: edges change what they attach
to, but not how it looks, even where an id is handed out twice.

Main results:

* `compile_shows` — the document of a drawing starts with the blocks of the nodes.
* `overlaps_place_iff` — when the boxes of two nodes of a row overlap.
* `compile_overlaps_iff` — when the elements of two nodes do.
* `overlaps_of_long_label` — a long label covers the node after it.
-/

namespace Whiteboard

/-! ## Overlapping boxes -/

namespace Box

variable {S : Type} [Scalar S]

/-- The point lies in the box, and not on a side of it. -/
structure Inside (b : Box S) (p : Point S) : Prop where
  left : b.left < p.x
  right : p.x < b.right
  top : b.top < p.y
  bottom : p.y < b.bottom

/-- The boxes have a point in common that lies on no side. -/
def Overlaps (a b : Box S) : Prop := ∃ p, a.Inside p ∧ b.Inside p

end Box

/-- When two open intervals between whole numbers have a point in common. -/
theorem exists_common_iff {a w b w' : Nat} :
    (∃ t : Rat, (a : Rat) < t ∧ t < a + w ∧ (b : Rat) < t ∧ t < b + w') ↔
      0 < w ∧ 0 < w' ∧ a < b + w' ∧ b < a + w := by
  have hcast : (0 < w ∧ 0 < w' ∧ a < b + w' ∧ b < a + w) ↔
      (0 : Rat) < w ∧ (0 : Rat) < w' ∧ (a : Rat) < b + w' ∧ (b : Rat) < a + w := by
    norm_cast
  rw [hcast]
  constructor
  · rintro ⟨t, ha, ha', hb, hb'⟩
    exact ⟨by linarith, by linarith, by linarith, by linarith⟩
  · rintro ⟨hw, hw', hab, hba⟩
    -- between the later start and the earlier end
    have hgap : max (a : Rat) b < min ((a : Rat) + w) (b + w') := by
      rw [max_lt_iff, lt_min_iff, lt_min_iff]
      exact ⟨⟨by linarith, hab⟩, hba, by linarith⟩
    obtain ⟨t, hstart, hend⟩ := exists_between hgap
    rw [max_lt_iff] at hstart
    rw [lt_min_iff] at hend
    exact ⟨t, hstart.1, hend.1, hstart.2, hend.2⟩

/-- Boxes overlap if both their sides do. -/
theorem Box.overlaps_iff (a b : Box Rat) :
    a.Overlaps b ↔
      (∃ t, a.x < t ∧ t < a.x + a.width ∧ b.x < t ∧ t < b.x + b.width) ∧
      ∃ t, a.y < t ∧ t < a.y + a.height ∧ b.y < t ∧ t < b.y + b.height := by
  constructor
  · rintro ⟨p, ha, hb⟩
    exact ⟨⟨p.x, ha.left, ha.right, hb.left, hb.right⟩,
      ⟨p.y, ha.top, ha.bottom, hb.top, hb.bottom⟩⟩
  · rintro ⟨⟨x, hax, hax', hbx, hbx'⟩, y, hay, hay', hby, hby'⟩
    exact ⟨⟨x, y⟩, ⟨hax, hax', hay, hay'⟩, ⟨hbx, hbx', hby, hby'⟩⟩

namespace Chain

open Drawing (Document Draft Element textLines widestLine)

/-! ## The nodes of a drawing -/

section Drawn

variable {S : Type} [Scalar S] {G : Type} [Drawing.IdSource G]

omit [Drawing.IdSource G] in
theorem run_of_run_onDrawing {α : Type} {act : Drawing.Draws G α} {g g' : G} {a : α}
    (h : (onDrawing act).run.run g = (.ok a, g')) : act.run.run g = (.ok a, g') := by
  obtain ⟨outcome, g₁, hact⟩ : ∃ outcome g₁, act.run.run g = (outcome, g₁) := ⟨_, _, rfl⟩
  change (act.run >>= fun outcome => _).run g = _ at h
  rw [StateT.run_bind, hact] at h
  cases outcome with
  | ok b =>
    cases h
    exact hact
  | error e => cases h

omit [Scalar S] in
theorem prefix_push {d : Document S} {looks : List (Element S)}
    (h : looks <+: d.elements.map Element.appearance) (e : Element S) :
    looks <+: (d.push e).elements.map Element.appearance := by
  rw [Document.push, List.map_append]
  exact h.trans (List.prefix_append _ _)

/-- An edge leaves the looks of the elements that are there, in their order. -/
theorem addEdge_keeps {now : Int64} {theme : Theme} {ids : List String} {d d' : Document S}
    {edge : Edge} {g g' : G} (h : (addEdge now theme ids d edge).run.run g = (.ok d', g')) :
    d.elements.map Element.appearance <+: d'.elements.map Element.appearance := by
  unfold addEdge at h
  split at h
  · obtain ⟨⟨connectorId, d₁⟩, g₁, hconnect, hlabel⟩ := Drawing.exists_of_run_bind_ok h
    obtain ⟨p, c, source, target, -, hsource, htarget, rfl, rfl⟩ :=
      Document.connect_eq_ok (run_of_run_onDrawing hconnect)
    have hkept : d.elements.map Element.appearance <+:
        ((p.put source target).push c).elements.map Element.appearance := by
      have hlooks := Document.map_put hsource.appearance_eq htarget.appearance_eq
      exact prefix_push (hlooks ▸ List.prefix_rfl) c
    -- the label comes on top of all that
    cases hedge : edge.label with
    | none =>
      rw [hedge] at hlabel
      cases hlabel
      exact hkept
    | some label =>
      rw [hedge] at hlabel
      change (addLabel now theme _ c.id label).run.run g₁ = _ at hlabel
      unfold addLabel at hlabel
      split at hlabel
      · cases hlabel
      · obtain ⟨text, g₂, -, hpush⟩ := Drawing.exists_of_run_bind_ok hlabel
        cases hpush
        exact prefix_push hkept text
  · cases h

theorem addEdges_keep {now : Int64} {theme : Theme} {ids : List String} (edges : List Edge)
    {d d' : Document S} {g g' : G}
    (h : (edges.foldlM (addEdge now theme ids) d).run.run g = (.ok d', g')) :
    d.elements.map Element.appearance <+: d'.elements.map Element.appearance := by
  induction edges generalizing d g with
  | nil =>
    cases h
    exact List.prefix_rfl
  | cons edge rest ih =>
    rw [List.foldlM_cons] at h
    obtain ⟨d₁, g₁, hedge, hrest⟩ := Drawing.exists_of_run_bind_ok h
    exact (addEdge_keeps hedge).trans (ih hrest)

/-- Elements that look like those of the blocks of nodes make up blocks that show the same. -/
theorem exists_blocks {theme : Theme} {placed : List (Placed S)} {bs : List (Block S)}
    (hbs : List.Forall₂ (NodeBlock theme) placed bs) {es : List (Element S)}
    (h : es.map Element.appearance = (bs.flatMap Block.elements).map Element.appearance) :
    ∃ bs' : List (Block S), es = bs'.flatMap Block.elements ∧
      List.Forall₂ (fun placed b => b.head.Shows (headDraft theme placed)) placed bs' := by
  induction hbs generalizing es with
  | nil =>
    obtain rfl := List.map_eq_nil_iff.mp h
    exact ⟨[], rfl, .nil⟩
  | @cons first b placed bs hfirst _ ih =>
    rw [List.flatMap_cons, List.map_append] at h
    obtain ⟨block, rest, rfl, hblock, hrest⟩ := List.map_eq_append_iff.mp h
    obtain ⟨bs', rfl, hbs'⟩ := ih hrest
    -- one element with the look of the head, and one more if there is a label
    obtain ⟨head, label?⟩ := b
    obtain ⟨head', above, rfl, hhead, habove⟩ := List.map_eq_cons_iff.mp hblock
    have hshows := hfirst.head.of_appearance hhead
    cases label? with
    | none =>
      obtain rfl := List.map_eq_nil_iff.mp habove
      exact ⟨⟨head', none⟩ :: bs', rfl, .cons hshows hbs'⟩
    | some label =>
      obtain ⟨label', none', rfl, -, hnone⟩ := List.map_eq_cons_iff.mp habove
      obtain rfl := List.map_eq_nil_iff.mp hnone
      exact ⟨⟨head', some label'⟩ :: bs', rfl, .cons hshows hbs'⟩

/-- **The nodes of a drawing.** However it draws its ids, a drawing starts with the blocks of
the nodes in their order, each with what the node is drawn as. -/
theorem compile_shows {now : Int64} {options : Options} {source : String} {d : Document S}
    {g g' : G} (hrun : (compile now options source).run.run g = (.ok d, g')) :
    ∃ (diagram : Diagram) (blocks : List (Block S)) (others : List (Element S)),
      Diagram.read source = .ok diagram ∧
      d.elements = blocks.flatMap Block.elements ++ others ∧
      List.Forall₂ (fun placed b => b.head.Shows (headDraft options.theme placed))
        (layout options.direction options.spacing diagram.nodes) blocks := by
  unfold compile at hrun
  cases hread : Diagram.read source with
  | error e =>
    rw [hread] at hrun
    cases hrun
  | ok diagram =>
    rw [hread] at hrun
    change (draw now options diagram).run.run g = _ at hrun
    obtain ⟨nodes, g₁, hnodes, hblocks, -⟩ := addNodes_yields now options.theme
      (layout options.direction options.spacing diagram.nodes : List (Placed S))
      (emptyDocument options.theme) g
    rw [draw, Drawing.run_bind_of_ok hnodes.1] at hrun
    -- the nodes are drawn, and what the edges add comes after them
    have hempty : (emptyDocument options.theme : Document S).elements = [] := by
      cases options.theme <;> rfl
    obtain ⟨others', hkept⟩ := addEdges_keep diagram.edges hrun
    rw [hempty, List.nil_append] at hkept
    obtain ⟨heads, others, helements, hheads, -⟩ := List.map_eq_append_iff.mp hkept.symm
    obtain ⟨blocks, rfl, hshows⟩ := exists_blocks hblocks hheads
    exact ⟨diagram, blocks, others, rfl, helements, hshows⟩

end Drawn

/-! ## Sizes and places -/

/-- How wide the element of a node is: an outline by its kind, a bare label by its text. -/
def Node.width (node : Node) : Nat :=
  match node.kind with
  | .rectangle | .ellipse => 150
  | .diamond => 120
  | .textOnly => 12 * widestLine node.label

def Node.height (node : Node) : Nat :=
  match node.kind with
  | .rectangle | .ellipse => 60
  | .diamond => 80
  | .textOnly => 25 * (textLines node.label).length

/-- How far the element of a node reaches along the axis. -/
def Node.reach (node : Node) : Direction → Nat
  | .horizontal => node.width
  | .vertical => node.height

/-- Distance between the origins of neighbours. -/
def step (direction : Direction) (spacing : UInt32) : Nat :=
  match direction with
  | .horizontal => 150 + spacing.toNat
  | .vertical => 80 + spacing.toNat

/-- The box of a placed node. -/
def Placed.box (placed : Placed Rat) : Box Rat :=
  ⟨placed.x, placed.y, placed.node.width, placed.node.height⟩

/-- An outline reaches at most to the next node. -/
theorem reach_le_step {node : Node} (h : node.kind ≠ .textOnly) (direction : Direction)
    (spacing : UInt32) : node.reach direction ≤ step direction spacing := by
  obtain ⟨kind, label⟩ := node
  cases direction <;> cases kind <;>
    first | exact absurd rfl h | (simp only [Node.reach, Node.width, Node.height, step]; omega)

theorem height_pos (node : Node) : 0 < node.height := by
  have hlines : 0 < (textLines node.label).length :=
    List.length_pos_of_ne_nil (List.splitOn_ne_nil _ _)
  rw [Node.height]
  cases node.kind <;> simp only <;> omega

/-- A text in the default font size is 12 wide for each character and 25 high for each line. -/
theorem textSize_default (text : String) :
    Drawing.textSize text (Drawing.defaultFontSize : Rat) =
      (((12 * widestLine text : Nat) : Rat), ((25 * (textLines text).length : Nat) : Rat)) := by
  have hfont : (Drawing.defaultFontSize : Rat) = 20 := by
    show (20.0 : Rat) = 20
    norm_num
  rw [Drawing.textSize_rat, hfont, Nat.cast_mul, Nat.cast_mul]
  norm_num

/-- An outline has the size of its node. -/
theorem size?_eq {node : Node} {size : Rat × Rat} (h : node.kind.size? = some size) :
    size = ((node.width : Rat), (node.height : Rat)) := by
  obtain ⟨kind, label⟩ := node
  cases kind <;> cases h <;> norm_num [Node.width, Node.height, OfScientific.ofScientific]

/-- What a node is drawn as takes up the box of the node. -/
theorem box_of_shows {theme : Theme} {placed : Placed Rat} {e : Element Rat}
    (h : e.Shows (headDraft theme placed)) :
    e.kind = placed.node.kind.elementKind ∧ e.box = placed.box := by
  rw [headDraft] at h
  cases hsize : (placed.node.kind.size? : Option (Rat × Rat)) with
  | none =>
    rw [hsize] at h
    refine ⟨kind_of_shows rfl h, ?_⟩
    -- a bare label is measured when its element is created
    obtain ⟨index, ⟨kind, label⟩, x, y⟩ := placed
    obtain rfl : kind = .textOnly := size?_eq_none_iff.mp hsize
    obtain ⟨shape, hshape, heq⟩ := h
    cases hshape
    rw [Drawing.Element.box_of_appearance heq]
    show Box.mk x y (Drawing.textSize label Drawing.defaultFontSize).1
      (Drawing.textSize label Drawing.defaultFontSize).2 = _
    rw [textSize_default]
    rfl
  | some size =>
    rw [hsize] at h
    have houtline := isOutline_of_shows hsize h
    obtain ⟨hwidth, hheight⟩ := Prod.mk.inj (size?_eq houtline.size)
    refine ⟨houtline.kind, ?_⟩
    rw [Drawing.Element.box, houtline.x, houtline.y, hwidth, hheight]
    rfl

/-! ## Nodes of a row -/

/-- How far from the edge of the plane a node stands along the axis. -/
def station (direction : Direction) (spacing : UInt32) (index : Nat) : Nat :=
  100 + index * step direction spacing

theorem origin_add_offset (direction : Direction) (spacing : UInt32) (index : Nat) :
    (origin + offset direction spacing index : Rat) = (station direction spacing index : Rat) := by
  cases direction
  · show (100.0 : Rat) + ((index : Int) : Rat) * (150.0 + ((spacing.toNat : Int) : Rat)) =
      ((100 + index * (150 + spacing.toNat) : Nat) : Rat)
    norm_num
  · show (100.0 : Rat) + ((index : Int) : Rat) * (80.0 + ((spacing.toNat : Int) : Rat)) =
      ((100 + index * (80 + spacing.toNat) : Nat) : Rat)
    norm_num

/-- The box of a node of a row, in whole numbers. -/
theorem box_place (direction : Direction) (spacing : UInt32) (node : Node) (index : Nat) :
    (place direction spacing node index : Placed Rat).box =
      match direction with
      | .horizontal => ⟨(station .horizontal spacing index : Rat), ((100 : Nat) : Rat),
          node.width, node.height⟩
      | .vertical => ⟨((100 : Nat) : Rat), (station .vertical spacing index : Rat),
          node.width, node.height⟩ := by
  have horigin : (origin : Rat) = ((100 : Nat) : Rat) := by
    show (100.0 : Rat) = _
    norm_num
  cases direction
  all_goals
    simp only [place, Placed.box]
    rw [origin_add_offset, horigin]

/-- A node of a row overlaps a later one exactly if it reaches further than the later one
stands, and neither of the two is empty. -/
theorem overlaps_place_iff (direction : Direction) (spacing : UInt32) (node node' : Node)
    {i j : Nat} (hij : i < j) :
    (place direction spacing node i : Placed Rat).box.Overlaps
        (place direction spacing node' j : Placed Rat).box ↔
      (j - i) * step direction spacing < node.reach direction ∧
        0 < node.width ∧ 0 < node'.width := by
  have hheight := height_pos node
  have hheight' := height_pos node'
  have hle : i * step direction spacing ≤ j * step direction spacing :=
    Nat.mul_le_mul_right _ hij.le
  rw [box_place, box_place, Box.overlaps_iff, Nat.sub_mul]
  -- along the chain the later node stands further on; across it both stand at the origin
  cases direction
  all_goals
    rw [exists_common_iff, exists_common_iff]
    simp only [station, Node.reach]
    omega

/-! ## Nodes of a document -/

theorem node_place (direction : Direction) (spacing : UInt32) (node : Node) (index : Nat) :
    (place direction spacing node index : Placed Rat).node = node := by
  cases direction <;> rfl

theorem getElem?_layout (direction : Direction) (spacing : UInt32) {nodes : List Node} {i : Nat}
    {node : Node} (h : nodes[i]? = some node) :
    (layout direction spacing nodes : List (Placed Rat))[i]? =
      some (place direction spacing node i) := by
  rw [layout, List.getElem?_map, List.getElem?_zipIdx, h]
  simp

/-- What holds of the places of a row and of blocks one by one holds of each node and its block. -/
theorem of_layout {R : Placed Rat → Block Rat → Prop} {direction : Direction} {spacing : UInt32}
    {nodes : List Node} {blocks : List (Block Rat)}
    (h : List.Forall₂ R (layout direction spacing nodes) blocks) {i : Nat} {node : Node}
    {b : Block Rat} (hi : nodes[i]? = some node) (hb : blocks[i]? = some b) :
    R (place direction spacing node i) b := by
  obtain ⟨hlt, hget⟩ := List.getElem?_eq_some_iff.mp (getElem?_layout direction spacing hi)
  obtain ⟨hlt', rfl⟩ := List.getElem?_eq_some_iff.mp hb
  have hR := (List.forall₂_iff_get.mp h).2 i hlt hlt'
  rwa [List.get_eq_getElem, List.get_eq_getElem, hget] at hR

/-- The blocks of the nodes of a document have the boxes of the nodes. -/
theorem box_of_block {options : Options} {nodes : List Node} {blocks : List (Block Rat)}
    (h : List.Forall₂ (fun placed b => b.head.Shows (headDraft options.theme placed))
      (layout options.direction options.spacing nodes) blocks) {i : Nat} {node : Node}
    {b : Block Rat} (hi : nodes[i]? = some node) (hb : blocks[i]? = some b) :
    b.head.kind = node.kind.elementKind ∧
      b.head.box = (place options.direction options.spacing node i : Placed Rat).box := by
  have hbox := box_of_shows (of_layout h hi hb)
  rwa [node_place] at hbox

/-- **Overlapping nodes.** In the document of a source the elements of two nodes overlap
exactly if the earlier one reaches, over the pitch and the spacing of all places between the
two, into the place of the later one, and neither is an empty label. An outline never
overlaps a later node. -/
theorem compile_overlaps_iff {G : Type} [Drawing.IdSource G] (now : Int64) (options : Options)
    (source : String) {d : Document Rat} {g g' : G}
    (hrun : (compile now options source).run.run g = (.ok d, g')) :
    ∃ (diagram : Diagram) (blocks : List (Block Rat)) (others : List (Element Rat)),
      Diagram.read source = .ok diagram ∧
      d.elements = blocks.flatMap Block.elements ++ others ∧
      blocks.length = diagram.nodes.length ∧
      ∀ (i : Nat) (node : Node) (b : Block Rat), diagram.nodes[i]? = some node →
        blocks[i]? = some b →
        (b.head.kind = node.kind.elementKind ∧ b.head.width = (node.width : Rat) ∧
          b.head.height = (node.height : Rat)) ∧
        ∀ (j : Nat) (node' : Node) (b' : Block Rat), i < j → diagram.nodes[j]? = some node' →
          blocks[j]? = some b' →
          (b.head.box.Overlaps b'.head.box ↔
            (j - i) * step options.direction options.spacing < node.reach options.direction ∧
              0 < node.width ∧ 0 < node'.width) ∧
          (node.kind ≠ .textOnly → ¬ b.head.box.Overlaps b'.head.box) := by
  obtain ⟨diagram, blocks, others, hread, helements, hshows⟩ := compile_shows hrun
  refine ⟨diagram, blocks, others, hread, helements, ?_, ?_⟩
  · rw [← hshows.length_eq, layout, List.length_map, List.length_zipIdx]
  · intro i node b hi hb
    obtain ⟨hkind, hbox⟩ := box_of_block hshows hi hb
    have hwidth : b.head.width = _ := congrArg Box.width hbox
    have hheight : b.head.height = _ := congrArg Box.height hbox
    rw [Placed.box, node_place] at hwidth hheight
    refine ⟨⟨hkind, hwidth, hheight⟩, ?_⟩
    intro j node' b' hij hj hb'
    have hiff := overlaps_place_iff options.direction options.spacing node node' hij
    rw [← hbox, ← (box_of_block hshows hj hb').2] at hiff
    refine ⟨hiff, fun houtline hoverlaps => ?_⟩
    -- the next place is already out of reach
    have hreach := reach_le_step houtline options.direction options.spacing
    have hstep : step options.direction options.spacing ≤
        (j - i) * step options.direction options.spacing :=
      Nat.le_mul_of_pos_left _ (by omega)
    have hfar := (hiff.mp hoverlaps).1
    omega

/-! ## A long label -/

/-- A label of 36 characters before a node that stands 200 further on. -/
def longLabel : String := "<A label that is wider than its place> -> [b]"

theorem read_longLabel : Diagram.read longLabel =
    .ok ⟨[⟨.textOnly, "A label that is wider than its place"⟩, ⟨.rectangle, "b"⟩],
      [⟨0, 1, none, .arrow⟩]⟩ := by
  decide +kernel

theorem run_longLabel : ∃ (d : Document Rat) (g' : Drawing.SequentialIds)
    (text box : Element Rat) (others : List (Element Rat)),
    (compile 0 {} longLabel).run.run (.fresh "el") = (.ok d, g') ∧
    d.elements = text :: box :: others ∧
    (text.kind, text.box) = (.text, ⟨100, 100, 432, 25⟩) ∧
    (box.kind, box.box) = (.rectangle, ⟨300, 100, 150, 60⟩) := by
  have hboxes : ((compile 0 {} longLabel).run.run
      (Drawing.SequentialIds.fresh "el")).1.toOption.map
        (fun d : Document Rat => (d.elements.take 2).map fun e => (e.kind, e.box)) =
      some [(.text, ⟨100, 100, 432, 25⟩), (.rectangle, ⟨300, 100, 150, 60⟩)] := by
    decide +kernel
  obtain ⟨d, g', hrun, htwo⟩ := Drawing.exists_of_toOption_map hboxes
  -- the two elements at the bottom
  obtain ⟨text, rest, htake, htext, hrest⟩ := List.map_eq_cons_iff.mp htwo
  obtain ⟨box, rest', rfl, hbox, hrest'⟩ := List.map_eq_cons_iff.mp hrest
  obtain rfl := List.map_eq_nil_iff.mp hrest'
  refine ⟨d, g', text, box, d.elements.drop 2, hrun, ?_, htext, hbox⟩
  exact (List.take_append_drop 2 d.elements).symm.trans (congrArg (· ++ _) htake)

/-- The label covers the node after it: it reaches 432, and the node is 200 away. -/
theorem compile_overlaps_longLabel : ∃ (d : Document Rat) (g' : Drawing.SequentialIds)
    (blocks : List (Block Rat)),
    (compile 0 {} longLabel).run.run (.fresh "el") = (.ok d, g') ∧ blocks.length = 2 ∧
    ∀ b b', blocks[0]? = some b → blocks[1]? = some b' → b.head.box.Overlaps b'.head.box := by
  obtain ⟨d, g', -, -, -, hrun, -⟩ := run_longLabel
  obtain ⟨diagram, blocks, others, hread, -, hlength, hnodes⟩ :=
    compile_overlaps_iff 0 {} longLabel hrun
  rw [read_longLabel] at hread
  cases hread
  refine ⟨d, g', blocks, hrun, hlength, fun b b' hb hb' => ?_⟩
  exact ((hnodes 0 _ b rfl hb).2 1 _ b' Nat.zero_lt_one rfl hb').1.mpr (by decide)

/-- **No free place for a label.** In the document of a source the texts of bare labels may
overlap the nodes after them. -/
theorem not_apart_of_long_label : ∃ (d : Document Rat) (g' : Drawing.SequentialIds)
    (text box : Element Rat) (others : List (Element Rat)),
    Diagram.read longLabel =
      .ok ⟨[⟨.textOnly, "A label that is wider than its place"⟩, ⟨.rectangle, "b"⟩],
        [⟨0, 1, none, .arrow⟩]⟩ ∧
    (compile 0 {} longLabel).run.run (.fresh "el") = (.ok d, g') ∧
    d.elements = text :: box :: others ∧ text.kind = .text ∧ box.kind = .rectangle ∧
    text.box.Overlaps box.box := by
  obtain ⟨d, g', text, box, others, hrun, helements, htext, hbox⟩ := run_longLabel
  obtain ⟨htextKind, htextBox⟩ := Prod.mk.inj htext
  obtain ⟨hboxKind, hboxBox⟩ := Prod.mk.inj hbox
  refine ⟨d, g', text, box, others, read_longLabel, hrun, helements, htextKind, hboxKind, ?_⟩
  rw [htextBox, hboxBox]
  -- a point in the text and in the rectangle
  refine ⟨⟨310, 110⟩, ⟨?_, ?_, ?_, ?_⟩, ⟨?_, ?_, ?_, ?_⟩⟩
  all_goals norm_num [Box.left, Box.right, Box.top, Box.bottom]

end Chain

end Whiteboard
