import Whiteboard.Chain.Compilation
import Whiteboard.Proofs.Drawing.Connecting

/-!
# Whiteboard — pictures of diagrams

A diagram is drawn block by block. The block of a node is the element that edges
attach to, with the label of an outlined node as a text of its own; the block of
an edge is its connector, with the label if the edge has one. A `Picture` lists
the blocks of all nodes and then those of the edges drawn so far.

Main results:

* `Picture.linksAt_link` — one edge more is listed last at its two nodes.
* `Picture.index_eq_of_id_eq` — where ids are distinct, an id occurs in one block.
-/

namespace Whiteboard.Chain

open Drawing (BoundElement Document Element)

variable {S : Type}

/-! ## Blocks -/

/-- What one node or edge is drawn as. -/
structure Block (S : Type) where
  /-- The element that edges attach to, or the connector. -/
  head : Element S
  /-- The text over it. -/
  label? : Option (Element S)

namespace Block

/-- The elements of a block, from the bottom to the top. -/
def elements (b : Block S) : List (Element S) := b.head :: b.label?.toList

/-- A block with every element changed. -/
def map (f : Element S → Element S) (b : Block S) : Block S := ⟨f b.head, b.label?.map f⟩

theorem head_mem (b : Block S) : b.head ∈ b.elements := List.mem_cons_self

theorem elements_map (f : Element S → Element S) (b : Block S) :
    (b.map f).elements = b.elements.map f := by
  obtain ⟨head, label?⟩ := b
  cases label? <;> rfl

theorem flatMap_elements_map (f : Element S → Element S) (bs : List (Block S)) :
    (bs.map (Block.map f)).flatMap elements = (bs.flatMap elements).map f := by
  rw [List.flatMap_map, List.map_flatMap]
  exact List.flatMap_congr fun b _ => elements_map f b

/-- A block stays as it is where none of its elements changes. -/
theorem map_eq_self {f : Element S → Element S} {b : Block S} (h : ∀ e ∈ b.elements, f e = e) :
    b.map f = b := by
  obtain ⟨head, label?⟩ := b
  have hhead : f head = head := h head List.mem_cons_self
  cases label? with
  | none => rw [map, hhead, Option.map_none]
  | some label =>
    have hlabel : f label = label := h label (List.mem_cons_of_mem _ List.mem_cons_self)
    rw [map, hhead, Option.map_some, hlabel]

end Block

/-! ## Pictures -/

/-- The blocks of nodes and edges. -/
structure Picture (S : Type) where
  nodes : List (Block S)
  links : List (Block S)

namespace Picture

/-- All elements of a picture, from the bottom to the top. -/
def elements (p : Picture S) : List (Element S) := (p.nodes ++ p.links).flatMap Block.elements

/-- An element is the head of a block or its label. -/
theorem mem_elements {p : Picture S} {e : Element S} (h : e ∈ p.elements) :
    ∃ b ∈ p.nodes ++ p.links, e = b.head ∨ b.label? = some e := by
  obtain ⟨b, hb, he⟩ := List.mem_flatMap.mp h
  refine ⟨b, hb, ?_⟩
  rcases List.mem_cons.mp he with he | he
  · exact Or.inl he
  · exact Or.inr (Option.mem_toList.mp he)

theorem head_mem_elements {p : Picture S} {b : Block S} (h : b ∈ p.nodes ++ p.links) :
    b.head ∈ p.elements :=
  List.mem_flatMap.mpr ⟨b, h, b.head_mem⟩

/-- The ids that edges attach to. -/
def anchors (p : Picture S) : List String := p.nodes.map fun b => b.head.id

theorem getElem?_anchors {p : Picture S} {i : Nat} {b : Block S} (h : p.nodes[i]? = some b) :
    p.anchors[i]? = some b.head.id := by
  rw [anchors, List.getElem?_map, h, Option.map_some]

/-- The document of a picture in the colours of a theme. -/
def document (theme : Theme) (p : Picture S) : Document S :=
  { emptyDocument theme with elements := p.elements }

/-- How an element lists the connector of an edge. -/
def linkTo (link : Block S) : BoundElement := ⟨link.head.id, link.head.kind⟩

/-- The connectors at a node: that of the edge before it and that of the edge
after it, as far as they are there. -/
def linksAt (p : Picture S) : Nat → List BoundElement
  | 0 => p.links[0]?.toList.map linkTo
  | i + 1 => (p.links[i]?.toList ++ p.links[i + 1]?.toList).map linkTo

/-- A picture with one more edge; the elements of the nodes change. -/
def link (p : Picture S) (f : Element S → Element S) (b : Block S) : Picture S :=
  ⟨p.nodes.map (Block.map f), p.links ++ [b]⟩

theorem linksAt_link (p : Picture S) (f : Element S → Element S) (b : Block S) (i : Nat) :
    (p.link f b).linksAt i = p.linksAt i ++
      if i = p.links.length ∨ i = p.links.length + 1 then [linkTo b] else [] := by
  -- the new edge is listed at its place, and at the place after that
  have hget : ∀ j, (p.links ++ [b])[j]?.toList = p.links[j]?.toList ++
      if j = p.links.length then [b] else [] := by
    intro j
    rcases Nat.lt_trichotomy j p.links.length with hj | rfl | hj
    · rw [List.getElem?_append_left hj, if_neg (Nat.ne_of_lt hj), List.append_nil]
    · simp
    · rw [List.getElem?_eq_none (by simp; omega), List.getElem?_eq_none (by omega),
        if_neg (Nat.ne_of_gt hj)]
      rfl
  cases i with
  | zero =>
    show ((p.links ++ [b])[0]?.toList).map linkTo = p.links[0]?.toList.map linkTo ++ _
    rw [hget, List.map_append]
    by_cases h : 0 = p.links.length
    · rw [if_pos h, if_pos (Or.inl h)]
      rfl
    · rw [if_neg h, if_neg (by omega)]
      rfl
  | succ i =>
    show ((p.links ++ [b])[i]?.toList ++ (p.links ++ [b])[i + 1]?.toList).map linkTo =
      (p.links[i]?.toList ++ p.links[i + 1]?.toList).map linkTo ++ _
    rw [hget, hget]
    by_cases hi : i = p.links.length
    · -- the new edge leads to this node, and none leads on
      have hnone : p.links[i + 1]? = none := List.getElem?_eq_none (by omega)
      rw [if_pos hi, if_neg (by omega), if_pos (Or.inr (by omega)), hnone]
      simp
    · rw [if_neg hi]
      by_cases hi' : i + 1 = p.links.length
      · -- the new edge leads on from this node
        rw [if_pos hi', if_pos (Or.inl hi')]
        simp
      · rw [if_neg hi', if_neg (by omega)]
        simp

theorem mem_linksAt {p : Picture S} {i : Nat} {entry : BoundElement} (h : entry ∈ p.linksAt i) :
    ∃ b ∈ p.links, entry = linkTo b := by
  cases i with
  | zero =>
    obtain ⟨b, hb, rfl⟩ := List.mem_map.mp h
    exact ⟨b, List.mem_of_getElem? (Option.mem_toList.mp hb), rfl⟩
  | succ i =>
    obtain ⟨b, hb, rfl⟩ := List.mem_map.mp h
    rcases List.mem_append.mp hb with hb | hb
    · exact ⟨b, List.mem_of_getElem? (Option.mem_toList.mp hb), rfl⟩
    · exact ⟨b, List.mem_of_getElem? (Option.mem_toList.mp hb), rfl⟩

theorem length_linksAt_le (p : Picture S) (i : Nat) : (p.linksAt i).length ≤ 2 := by
  have hone : ∀ j : Nat, p.links[j]?.toList.length ≤ 1 := by
    intro j
    cases p.links[j]? <;> simp
  cases i with
  | zero =>
    have h := hone 0
    simp only [linksAt, List.length_map]
    omega
  | succ i =>
    have h := hone i
    have h' := hone (i + 1)
    simp only [linksAt, List.length_map, List.length_append]
    omega

/-! ## Distinct ids -/

/-- Where ids are distinct, an id occurs in one block only. -/
theorem index_eq_of_id_eq {p : Picture S} (hnodup : (p.elements.map Element.id).Nodup) {i j : Nat}
    {b b' : Block S} (hi : (p.nodes ++ p.links)[i]? = some b)
    (hj : (p.nodes ++ p.links)[j]? = some b') {e e' : Element S} (he : e ∈ b.elements)
    (he' : e' ∈ b'.elements) (hid : e.id = e'.id) : i = j := by
  have hmem : ∀ {k : Nat} {c : Block S} {x : Element S}, (p.nodes ++ p.links)[k]? = some c →
      x ∈ c.elements → x ∈ p.elements := fun hk hx =>
    List.mem_flatMap.mpr ⟨_, List.mem_of_getElem? hk, hx⟩
  have heq : e = e' := List.inj_on_of_nodup_map hnodup (hmem hi he) (hmem hj he') hid
  obtain ⟨hib, rfl⟩ := List.getElem?_eq_some_iff.mp hi
  obtain ⟨hjb, rfl⟩ := List.getElem?_eq_some_iff.mp hj
  have hpairs := List.pairwise_iff_getElem.mp
    (List.nodup_flatMap.mp (List.Nodup.of_map Element.id hnodup)).2
  rw [← heq] at he'
  -- the blocks of different places have no element in common
  rcases Nat.lt_trichotomy i j with hij | hij | hij
  · exact absurd he' (hpairs i j hib hjb hij he)
  · exact hij
  · exact absurd he (hpairs j i hjb hib hij he')

theorem getElem?_node {p : Picture S} {i : Nat} {b : Block S} (h : p.nodes[i]? = some b) :
    (p.nodes ++ p.links)[i]? = some b := by
  rw [List.getElem?_append_left (List.getElem?_eq_some_iff.mp h).1]
  exact h

/-- Where ids are distinct, the label of a node has another id than what edges
attach to, at this node or any other. -/
theorem label_id_ne {p : Picture S} (hnodup : (p.elements.map Element.id).Nodup) {b c : Block S}
    (hb : b ∈ p.nodes) (hc : c ∈ p.nodes) {label : Element S} (hlabel : b.label? = some label) :
    label.id ≠ c.head.id := by
  intro h
  obtain ⟨i, hi⟩ := List.mem_iff_getElem?.mp hb
  obtain ⟨k, hk⟩ := List.mem_iff_getElem?.mp hc
  have hmem : label ∈ b.elements := by
    rw [Block.elements, hlabel]
    exact List.mem_cons_of_mem _ List.mem_cons_self
  obtain rfl := index_eq_of_id_eq hnodup (getElem?_node hi) (getElem?_node hk) hmem c.head_mem h
  obtain rfl : b = c := Option.some.inj (hi.symm.trans hk)
  -- the two are different elements of one block
  have hblock : (b.elements.map Element.id).Nodup := by
    rw [elements, List.map_flatMap] at hnodup
    exact (List.nodup_flatMap.mp hnodup).1 b (List.mem_append_left _ hb)
  rw [Block.elements, hlabel] at hblock
  simp [h] at hblock

end Picture

end Whiteboard.Chain
