import Mathlib.Algebra.Order.Group.MinMax
import Whiteboard.Proofs.Geometry.Exact

/-!
# Whiteboard — the smallest box around points

The box around points starts out as the first of them and is stretched to one after the other,
on each of its four sides for itself. In exact arithmetic what comes out is the smallest box that
holds all of them, and there is only one such box. So it does not matter in which order the points
come or how often they do, the box moves along with its points, and around two lists together lies
the smallest box that holds the boxes around each.

Main results:

* `Smallest.unique` — there are no two smallest boxes.
* `smallest_of_touches` — a box is the smallest if on each side lies one of its points.
* `smallest_around`, `smallest_around_append` — the box around points, and around two lists.
* `around_laws` — all together.
-/

namespace Whiteboard.Box

/-! ## Points in boxes -/

/-- The point lies in the box, or on a side of it. -/
structure Holds (b : Box Rat) (p : Point Rat) : Prop where
  left : b.left ≤ p.x
  right : p.x ≤ b.right
  top : b.top ≤ p.y
  bottom : p.y ≤ b.bottom

/-- The box holds all the points. -/
def Encloses (ps : List (Point Rat)) (b : Box Rat) : Prop := ∀ p ∈ ps, b.Holds p

/-- Each of the four sides passes through one of the points. -/
structure Touches (ps : List (Point Rat)) (b : Box Rat) : Prop where
  left : ∃ p ∈ ps, p.x = b.left
  right : ∃ p ∈ ps, p.x = b.right
  top : ∃ p ∈ ps, p.y = b.top
  bottom : ∃ p ∈ ps, p.y = b.bottom

/-- Every point of the one box lies in the other. -/
def Within (b c : Box Rat) : Prop := ∀ p, b.Holds p → c.Holds p

/-- The box has the property, and lies within every box that has it. -/
structure Smallest (P : Box Rat → Prop) (b : Box Rat) : Prop where
  holds : P b
  within : ∀ c, P c → b.Within c

theorem Holds.proper {b : Box Rat} {p : Point Rat} (h : b.Holds p) : b.Proper :=
  ⟨le_add_iff_nonneg_right b.x |>.mp (h.left.trans h.right),
    le_add_iff_nonneg_right b.y |>.mp (h.top.trans h.bottom)⟩

/-- The corner from which a box is measured lies in it, and so does the one across. -/
theorem Proper.holds_corners {b : Box Rat} (h : b.Proper) :
    b.Holds ⟨b.left, b.top⟩ ∧ b.Holds ⟨b.right, b.bottom⟩ := by
  have hx : b.left ≤ b.right := le_add_of_nonneg_right h.width
  have hy : b.top ≤ b.bottom := le_add_of_nonneg_right h.height
  exact ⟨⟨le_rfl, hx, le_rfl, hy⟩, ⟨hx, le_rfl, hy, le_rfl⟩⟩

theorem Within.antisymm {b c : Box Rat} (hb : b.Proper) (hc : c.Proper) (hbc : b.Within c)
    (hcb : c.Within b) : b = c := by
  obtain ⟨hb₁, hb₂⟩ := hb.holds_corners
  obtain ⟨hc₁, hc₂⟩ := hc.holds_corners
  have hleft : b.left = c.left := le_antisymm (hcb _ hc₁).left (hbc _ hb₁).left
  have htop : b.top = c.top := le_antisymm (hcb _ hc₁).top (hbc _ hb₁).top
  have hright : b.right = c.right := le_antisymm (hbc _ hb₂).right (hcb _ hc₂).right
  have hbottom : b.bottom = c.bottom := le_antisymm (hbc _ hb₂).bottom (hcb _ hc₂).bottom
  obtain ⟨x, y, width, height⟩ := b
  obtain ⟨x', y', width', height'⟩ := c
  -- the sizes are what lies between the sides
  simp only [left, right, top, bottom] at hleft hright htop hbottom
  subst hleft htop
  rw [add_left_cancel hright, add_left_cancel hbottom]

/-- **There are no two smallest boxes.** -/
theorem Smallest.unique {P : Box Rat → Prop} {b c : Box Rat} (hb : Smallest P b)
    (hc : Smallest P c) (hbproper : b.Proper) (hcproper : c.Proper) : b = c :=
  (hb.within c hc.holds).antisymm hbproper hcproper (hc.within b hb.holds)

/-- **Which box is the smallest.** A box that holds the points is the smallest to do so if on
each side of it lies one of them. -/
theorem smallest_of_touches {ps : List (Point Rat)} {b : Box Rat} (hholds : b.Encloses ps)
    (htouches : b.Touches ps) : Smallest (Encloses ps) b := by
  refine ⟨hholds, fun c hc p hp => ?_⟩
  -- no side of the other box can be farther in than a point
  obtain ⟨l, hl, hleft⟩ := htouches.left
  obtain ⟨r, hr, hright⟩ := htouches.right
  obtain ⟨t, ht, htop⟩ := htouches.top
  obtain ⟨u, hu, hbottom⟩ := htouches.bottom
  exact ⟨(hc l hl).left.trans (hleft ▸ hp.left), (hp.right.trans hright.ge).trans (hc r hr).right,
    (hc t ht).top.trans (htop ▸ hp.top), (hp.bottom.trans hbottom.ge).trans (hc u hu).bottom⟩

/-! ## The box around points -/

/-- Stretching to one value after the other leads to the least of all. -/
theorem min?_eq_foldl (f : Point Rat → Rat) (p : Point Rat) (ps : List (Point Rat)) :
    ((p :: ps).map f).min? = some (ps.foldl (fun m q => Scalar.min m (f q)) (f p)) := by
  simp only [min_rat]
  rw [List.map_cons, List.min?_cons', List.foldl_map]

theorem max?_eq_foldl (f : Point Rat → Rat) (p : Point Rat) (ps : List (Point Rat)) :
    ((p :: ps).map f).max? = some (ps.foldl (fun m q => Scalar.max m (f q)) (f p)) := by
  simp only [max_rat]
  rw [List.map_cons, List.max?_cons', List.foldl_map]

/-- The sides of the box are the extremes of the coordinates. -/
theorem sides_around {ps : List (Point Rat)} (h : ps ≠ []) :
    (ps.map Point.x).min? = some (around ps).left ∧
      (ps.map Point.x).max? = some (around ps).right ∧
      (ps.map Point.y).min? = some (around ps).top ∧
      (ps.map Point.y).max? = some (around ps).bottom := by
  obtain ⟨p, ps, rfl⟩ := List.exists_cons_of_ne_nil h
  -- a size is stored, and the side across is found again from it
  have hacross : ∀ a b : Rat, a + (b - a) = b := fun a b => by ring
  refine ⟨min?_eq_foldl Point.x p ps, ?_, min?_eq_foldl Point.y p ps, ?_⟩
  · rw [max?_eq_foldl, right, around, hacross]
  · rw [max?_eq_foldl, bottom, around, hacross]

theorem encloses_around {ps : List (Point Rat)} (h : ps ≠ []) : (around ps).Encloses ps := by
  obtain ⟨hleft, hright, htop, hbottom⟩ := sides_around h
  intro p hp
  have hx : p.x ∈ ps.map Point.x := List.mem_map_of_mem hp
  have hy : p.y ∈ ps.map Point.y := List.mem_map_of_mem hp
  exact ⟨(List.min?_eq_some_iff.mp hleft).2 _ hx, (List.max?_eq_some_iff.mp hright).2 _ hx,
    (List.min?_eq_some_iff.mp htop).2 _ hy, (List.max?_eq_some_iff.mp hbottom).2 _ hy⟩

theorem touches_around {ps : List (Point Rat)} (h : ps ≠ []) : (around ps).Touches ps := by
  obtain ⟨hleft, hright, htop, hbottom⟩ := sides_around h
  exact ⟨List.mem_map.mp (List.min?_eq_some_iff.mp hleft).1,
    List.mem_map.mp (List.max?_eq_some_iff.mp hright).1,
    List.mem_map.mp (List.min?_eq_some_iff.mp htop).1,
    List.mem_map.mp (List.max?_eq_some_iff.mp hbottom).1⟩

/-- **The box around points** is the smallest one that holds them. -/
theorem smallest_around {ps : List (Point Rat)} (h : ps ≠ []) :
    Smallest (Encloses ps) (around ps) :=
  smallest_of_touches (encloses_around h) (touches_around h)

theorem proper_around {ps : List (Point Rat)} (h : ps ≠ []) : (around ps).Proper := by
  obtain ⟨p, hp, -⟩ := (touches_around h).left
  exact (encloses_around h p hp).proper

/-- Only which points there are matters, not in which order they come or how often. -/
theorem around_congr {ps qs : List (Point Rat)} (h : ps ≠ []) (hsame : ∀ p, p ∈ qs ↔ p ∈ ps) :
    around qs = around ps := by
  have hqs : qs ≠ [] := by
    obtain ⟨p, hp⟩ := List.exists_mem_of_ne_nil ps h
    exact List.ne_nil_of_mem ((hsame p).mpr hp)
  -- the same boxes hold the points of the one list and of the other
  have hboxes : Encloses qs = Encloses ps := by
    funext b
    simp only [Encloses, hsame]
  exact (hboxes ▸ smallest_around hqs).unique (smallest_around h) (proper_around hqs)
    (proper_around h)

/-! ## Moving points -/

theorem right_moved (b : Box Rat) (v : Point Rat) : (b.moved v).right = b.right + v.x :=
  add_right_comm ..

theorem bottom_moved (b : Box Rat) (v : Point Rat) : (b.moved v).bottom = b.bottom + v.y :=
  add_right_comm ..

theorem Holds.moved {b : Box Rat} {p : Point Rat} (h : b.Holds p) (v : Point Rat) :
    (b.moved v).Holds (p.moved v) := by
  refine ⟨add_le_add_left h.left v.x, ?_, add_le_add_left h.top v.y, ?_⟩
  · rw [right_moved]
    exact add_le_add_left h.right v.x
  · rw [bottom_moved]
    exact add_le_add_left h.bottom v.y

theorem Encloses.moved {b : Box Rat} {ps : List (Point Rat)} (h : b.Encloses ps) (v : Point Rat) :
    (b.moved v).Encloses (ps.map (·.moved v)) := by
  intro q hq
  obtain ⟨p, hp, rfl⟩ := List.mem_map.mp hq
  exact (h p hp).moved v

theorem Touches.moved {b : Box Rat} {ps : List (Point Rat)} (h : b.Touches ps) (v : Point Rat) :
    (b.moved v).Touches (ps.map (·.moved v)) := by
  -- the point on a side stays on it
  have hmem : ∀ p ∈ ps, p.moved v ∈ ps.map (·.moved v) := fun p hp => List.mem_map_of_mem hp
  obtain ⟨l, hl, hleft⟩ := h.left
  obtain ⟨r, hr, hright⟩ := h.right
  obtain ⟨t, ht, htop⟩ := h.top
  obtain ⟨u, hu, hbottom⟩ := h.bottom
  refine ⟨⟨_, hmem l hl, congrArg (· + v.x) hleft⟩, ⟨_, hmem r hr, ?_⟩,
    ⟨_, hmem t ht, congrArg (· + v.y) htop⟩, ⟨_, hmem u hu, ?_⟩⟩
  · rw [right_moved, ← hright]
    rfl
  · rw [bottom_moved, ← hbottom]
    rfl

/-- The box moves with its points. -/
theorem around_moved {ps : List (Point Rat)} (h : ps ≠ []) (v : Point Rat) :
    around (ps.map (·.moved v)) = (around ps).moved v := by
  have hmap : ps.map (·.moved v) ≠ [] := fun hnil => h (List.map_eq_nil_iff.mp hnil)
  have hproper : (around ps).Proper := proper_around h
  have hmoved : Smallest (Encloses (ps.map (·.moved v))) ((around ps).moved v) :=
    smallest_of_touches ((encloses_around h).moved v) ((touches_around h).moved v)
  exact (smallest_around hmap).unique hmoved (proper_around hmap) ⟨hproper.width, hproper.height⟩

/-! ## Two lists -/

/-- **The box around two lists** is the smallest one that holds the boxes around each. -/
theorem smallest_around_append {ps qs : List (Point Rat)} (hps : ps ≠ []) (hqs : qs ≠ []) :
    Smallest (fun c => (around ps).Within c ∧ (around qs).Within c) (around (ps ++ qs)) := by
  have hall := smallest_around (List.append_ne_nil_of_left_ne_nil hps qs)
  refine ⟨⟨?_, ?_⟩, ?_⟩
  · exact (smallest_around hps).within _ fun p hp => hall.holds p (List.mem_append_left qs hp)
  · exact (smallest_around hqs).within _ fun q hq => hall.holds q (List.mem_append_right ps hq)
  · -- a box that holds the two boxes holds what they hold
    rintro c ⟨hcps, hcqs⟩
    refine hall.within c fun p hp => ?_
    rcases List.mem_append.mp hp with hp | hp
    · exact hcps p (encloses_around hps p hp)
    · exact hcqs p (encloses_around hqs p hp)

/-! ## Two points -/

/-- The box around two points is as wide and as high as they are apart. -/
theorem around_pair (p q : Point Rat) :
    (around [p, q]).width = |q.x - p.x| ∧ (around [p, q]).height = |q.y - p.y| := by
  have hapart : ∀ a b : Rat, Scalar.max a b - Scalar.min a b = |b - a| := by
    intro a b
    rw [max_rat, min_rat, max_sub_min_eq_abs, abs_sub_comm]
  exact ⟨hapart p.x q.x, hapart p.y q.y⟩

/-! ## All together -/

/-- **The laws of the box around points.** It is the smallest box that holds them, each of its
sides passes through one of them, and its sizes are not negative. The order of the points and
their repetition do not matter, the box moves with them, and around two lists together lies the
smallest box that holds the boxes around each. -/
theorem around_laws {ps : List (Point Rat)} (h : ps ≠ []) :
    Smallest (Encloses ps) (around ps) ∧ (around ps).Touches ps ∧ (around ps).Proper ∧
      (∀ qs, (∀ p, p ∈ qs ↔ p ∈ ps) → around qs = around ps) ∧
      (∀ v, around (ps.map (·.moved v)) = (around ps).moved v) ∧
      ∀ qs, qs ≠ [] →
        Smallest (fun c => (around ps).Within c ∧ (around qs).Within c) (around (ps ++ qs)) :=
  ⟨smallest_around h, touches_around h, proper_around h, fun _ hsame => around_congr h hsame,
    around_moved h, fun _ hqs => smallest_around_append h hqs⟩

/-- The laws at a triangle far from the origin, its corners in another order and one of them
twice, together with a point that lies outside. -/
theorem around_laws_of_triangle :
    let ps : List (Point Rat) := [⟨7, 8⟩, ⟨9, -3⟩, ⟨8, 20⟩]
    let qs : List (Point Rat) := [⟨8, 20⟩, ⟨7, 8⟩, ⟨9, -3⟩, ⟨7, 8⟩]
    let outside : Point Rat := ⟨-1, 5⟩
    ps ≠ [] ∧ around ps = ⟨7, -3, 2, 23⟩ ∧ Smallest (Encloses ps) (around ps) ∧
      (∀ p, p ∈ qs ↔ p ∈ ps) ∧ around qs = around ps ∧
      around (ps.map (·.moved outside)) = ⟨6, 2, 2, 23⟩ ∧
      Smallest (fun c => (around ps).Within c ∧ (around [outside]).Within c)
        (around (ps ++ [outside])) := by
  intro ps qs outside
  have hne : ps ≠ [] := List.cons_ne_nil _ _
  have hsame : ∀ p, p ∈ qs ↔ p ∈ ps := by
    intro p
    simp only [ps, qs, List.mem_cons, List.not_mem_nil, or_false]
    tauto
  have hbox : around ps = ⟨7, -3, 2, 23⟩ := by decide +kernel
  obtain ⟨hsmallest, -, -, hsameBox, hmoved, happend⟩ := around_laws hne
  refine ⟨hne, hbox, hsmallest, hsame, hsameBox qs hsame, ?_, happend _ (List.cons_ne_nil _ _)⟩
  rw [hmoved, hbox]
  decide +kernel

end Whiteboard.Box
