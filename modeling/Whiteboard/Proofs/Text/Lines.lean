import Mathlib.Algebra.Ring.Nat
import Mathlib.Data.List.Basic

/-!
# Whiteboard — the lines of a text

A text is read line by line. A line ends at a line break, whoever put it there: what is meant as
one line falls apart wherever something in it brings a break along. So a text that is written line
by line has as many lines as were written and one more for each such break, and its lines are the
ones that were written exactly if there is none.

Main results:

* `lines_append` — the lines before a line break and those after it.
* `length_lines_written` — how many lines are read where lines were written.
* `lines_written_iff` — when they are the ones that were written.
-/

namespace Whiteboard.Text

/-- The lines of a text, without the breaks that end them. The last one need not be ended. -/
def lines (text : String) : List String :=
  let parts := (text.toList.splitOn '\n').map String.ofList
  if parts.getLast? = some "" then parts.dropLast else parts

/-- How many line breaks a text has. -/
def breaks (text : String) : Nat := text.toList.count '\n'

/-- The text has no line break. -/
def OneLine (text : String) : Prop := '\n' ∉ text.toList

instance (text : String) : Decidable (OneLine text) :=
  inferInstanceAs (Decidable (¬ '\n' ∈ text.toList))

@[simp] theorem breaks_append (s t : String) : breaks (s ++ t) = breaks s + breaks t := by
  rw [breaks, String.toList_append, List.count_append]
  rfl

theorem breaks_eq_zero_iff {s : String} : breaks s = 0 ↔ OneLine s := List.count_eq_zero

@[simp] theorem oneLine_append {s t : String} : OneLine (s ++ t) ↔ OneLine s ∧ OneLine t := by
  rw [← breaks_eq_zero_iff, ← breaks_eq_zero_iff, ← breaks_eq_zero_iff, breaks_append,
    Nat.add_eq_zero_iff]

theorem length_splitOn (cs : List Char) : (cs.splitOn '\n').length = cs.count '\n' + 1 := by
  induction cs with
  | nil => rfl
  | cons c cs ih =>
    rw [List.splitOn_cons_eq_if_modifyHead, List.count_cons]
    by_cases hc : (c == '\n') = true
    · rw [if_pos hc, if_pos hc, List.length_cons, ih]
    · rw [if_neg hc, if_neg hc, List.length_modifyHead, ih]

/-- What stands before a line break is split on its own, and so is what stands after it. -/
theorem splitOn_append (s t : String) : (s ++ "\n" ++ t).toList.splitOn '\n' =
    s.toList.splitOn '\n' ++ t.toList.splitOn '\n' := by
  have hchars : (s ++ "\n" ++ t).toList = s.toList ++ '\n' :: t.toList := by
    rw [String.toList_append, String.toList_append, List.append_assoc]
    rfl
  rw [hchars, List.splitOn_append_cons_self]

theorem splitOn_of_oneLine {s : String} (h : OneLine s) : s.toList.splitOn '\n' = [s.toList] := by
  refine List.splitOn_eq_singleton_of_beq_eq_false fun c hc => beq_eq_false_iff_ne.mpr ?_
  rintro rfl
  exact h hc

/-! ## Reading -/

/-- A line break ends a line, and the next one begins. -/
theorem lines_append (s t : String) :
    lines (s ++ "\n" ++ t) = (s.toList.splitOn '\n').map String.ofList ++ lines t := by
  -- what is left out at the end is left out of the second text
  have hrest : (t.toList.splitOn '\n').map String.ofList ≠ [] := by
    rw [ne_eq, List.map_eq_nil_iff]
    exact List.splitOn_ne_nil _ _
  rw [lines, lines, splitOn_append, List.map_append]
  by_cases hlast : ((t.toList.splitOn '\n').map String.ofList).getLast? = some ""
  · rw [if_pos hlast, if_pos (by rw [List.getLast?_append_of_ne_nil _ hrest]; exact hlast),
      List.dropLast_append_of_ne_nil hrest]
  · rw [if_neg hlast, if_neg (by rw [List.getLast?_append_of_ne_nil _ hrest]; exact hlast)]

theorem lines_cons {s : String} (h : OneLine s) (t : String) :
    lines (s ++ "\n" ++ t) = s :: lines t := by
  rw [lines_append, splitOn_of_oneLine h, List.map_singleton, String.ofList_toList]
  rfl

theorem length_lines_append (s t : String) :
    (lines (s ++ "\n" ++ t)).length = breaks s + 1 + (lines t).length := by
  rw [lines_append, List.length_append, List.length_map, length_splitOn]
  rfl

/-! ## Writing -/

/-- A text written line by line. -/
def written (rows : List String) : String := String.join (rows.map (· ++ "\n"))

theorem written_cons (row : String) (rows : List String) :
    written (row :: rows) = row ++ "\n" ++ written rows := by
  rw [written, List.map_cons, String.join_cons]
  rfl

/-- **How many lines are read.** As many as were written, and one more for each line break that
stands within one of them. -/
theorem length_lines_written (rows : List String) :
    (lines (written rows)).length = rows.length + (rows.map breaks).sum := by
  induction rows with
  | nil => rfl
  | cons row rows ih =>
    rw [written_cons, length_lines_append, ih, List.length_cons, List.map_cons, List.sum_cons]
    omega

/-- **Which lines are read.** Those that were written, exactly if each of them is one line. -/
theorem lines_written_iff {rows : List String} :
    lines (written rows) = rows ↔ ∀ row ∈ rows, OneLine row := by
  constructor
  · intro h
    -- a line break within a line would make one line too many
    have hlength := length_lines_written rows
    rw [h] at hlength
    have hsum : (rows.map breaks).sum = 0 := by omega
    intro row hrow
    exact breaks_eq_zero_iff.mp
      (List.sum_eq_zero_iff_forall_eq_nat.mp hsum _ (List.mem_map_of_mem hrow))
  · intro h
    induction rows with
    | nil => rfl
    | cons row rows ih =>
      obtain ⟨hrow, hrows⟩ := List.forall_mem_cons.mp h
      rw [written_cons, lines_cons hrow, ih hrows]

end Whiteboard.Text
