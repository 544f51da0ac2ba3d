import Mathlib.Data.List.Basic
import Mathlib.Data.List.Forall2

/-!
# Whiteboard — lines as runs of characters

A text is split at its line breaks, and what lies between them are its lines. The same lines can
be told without splitting: a run is a part of a text without a line break, every line is one, and
every run is a part of a line, as none reaches across a break. Characters that are put into a text
are put into its lines, as long as they are no breaks.

Main results:

* `isRun_of_mem_splitOn`, `exists_line_of_isRun` — lines and runs.
* `forall₂_padded_lines` — characters put into a text are put into its lines, one by one.
-/

namespace Whiteboard.Text

/-! ## Splitting, character by character -/

/-- A line break ends a line before it has begun. -/
theorem splitOn_break_cons (cs : List Char) :
    ('\n' :: cs).splitOn '\n' = [] :: cs.splitOn '\n' := by
  rw [List.splitOn_cons_eq_if_modifyHead, if_pos (beq_self_eq_true _)]

/-- Any other character comes before the first of the lines that follow. -/
theorem exists_splitOn_cons {c : Char} (hc : c ≠ '\n') (cs : List Char) :
    ∃ line lines, cs.splitOn '\n' = line :: lines ∧
      (c :: cs).splitOn '\n' = (c :: line) :: lines := by
  obtain ⟨line, lines, hlines⟩ := List.exists_cons_of_ne_nil (List.splitOn_ne_nil '\n' cs)
  refine ⟨line, lines, hlines, ?_⟩
  rw [List.splitOn_cons_eq_if_modifyHead, if_neg (fun h => hc (beq_iff_eq.mp h)), hlines,
    List.modifyHead_cons]

/-! ## Runs -/

/-- A part of the text without a line break. -/
def IsRun (text run : List Char) : Prop := run <:+: text ∧ '\n' ∉ run

/-- Lines are runs, and the first one starts the text. -/
theorem isRun_of_mem_splitOn (cs : List Char) :
    (∀ line ∈ (cs.splitOn '\n').head?, line <+: cs) ∧
      ∀ line ∈ cs.splitOn '\n', IsRun cs line := by
  induction cs with
  | nil => simp [IsRun, List.splitOn_nil]
  | cons c cs ih =>
    obtain ⟨hfirst, hlines⟩ := ih
    have hkept : ∀ line, IsRun cs line → IsRun (c :: cs) line :=
      fun line h => ⟨List.infix_cons h.1, h.2⟩
    by_cases hc : c = '\n'
    · subst hc
      rw [splitOn_break_cons]
      refine ⟨fun line hline => ?_, List.forall_mem_cons.mpr ⟨?_, fun line hline => ?_⟩⟩
      · obtain rfl := Option.some.inj hline
        exact List.nil_prefix
      · exact ⟨List.nil_infix, List.not_mem_nil⟩
      · exact hkept line (hlines line hline)
    · obtain ⟨first, rest, hsplit, hsplit'⟩ := exists_splitOn_cons hc cs
      rw [hsplit] at hfirst hlines
      obtain ⟨hrun, hruns⟩ := List.forall_mem_cons.mp hlines
      have hstart : c :: first <+: c :: cs := List.cons_prefix_cons.mpr ⟨rfl, hfirst first rfl⟩
      rw [hsplit']
      refine ⟨fun line hline => ?_, List.forall_mem_cons.mpr ⟨?_, fun line hline => ?_⟩⟩
      · obtain rfl := Option.some.inj hline
        exact hstart
      · exact ⟨hstart.isInfix, List.not_mem_cons_of_ne_of_not_mem (Ne.symm hc) hrun.2⟩
      · exact hkept line (hruns line hline)

/-- A run at the start of the text stays within the first line. -/
theorem exists_line_of_start {cs run : List Char} (h : run <+: cs) (hrun : '\n' ∉ run) :
    ∃ line lines, cs.splitOn '\n' = line :: lines ∧ run <+: line := by
  induction cs generalizing run with
  | nil => exact ⟨[], [], List.splitOn_nil .., h⟩
  | cons c cs ih =>
    by_cases hc : c = '\n'
    · subst hc
      refine ⟨[], _, splitOn_break_cons cs, ?_⟩
      rcases List.prefix_cons_iff.mp h with rfl | ⟨rest, rfl, -⟩
      · exact List.nil_prefix
      · -- the run would start with the break
        exact absurd List.mem_cons_self hrun
    · obtain ⟨first, lines, hsplit, hsplit'⟩ := exists_splitOn_cons hc cs
      refine ⟨c :: first, lines, hsplit', ?_⟩
      rcases List.prefix_cons_iff.mp h with rfl | ⟨rest, rfl, hrest⟩
      · exact List.nil_prefix
      · obtain ⟨line, lines', hline, hstart⟩ := ih hrest (List.not_mem_of_not_mem_cons hrun)
        obtain ⟨rfl, -⟩ := List.cons.inj (hsplit.symm.trans hline)
        exact List.cons_prefix_cons.mpr ⟨rfl, hstart⟩

/-- **No run reaches across a line break.** It is a part of one of the lines. -/
theorem exists_line_of_isRun {cs run : List Char} (h : IsRun cs run) :
    ∃ line ∈ cs.splitOn '\n', run <:+: line := by
  obtain ⟨hpart, hrun⟩ := h
  induction cs with
  | nil => exact ⟨[], List.mem_singleton_self [], hpart⟩
  | cons c cs ih =>
    rcases List.infix_cons_iff.mp hpart with hstart | hpart
    · obtain ⟨line, lines, hsplit, hline⟩ := exists_line_of_start hstart hrun
      exact ⟨line, hsplit ▸ List.mem_cons_self, hline.isInfix⟩
    · -- the line that it is a part of later on may still get a character in front
      obtain ⟨line, hline, hin⟩ := ih hpart
      by_cases hc : c = '\n'
      · subst hc
        exact ⟨line, splitOn_break_cons cs ▸ List.mem_cons_of_mem _ hline, hin⟩
      · obtain ⟨first, lines, hsplit, hsplit'⟩ := exists_splitOn_cons hc cs
        rw [hsplit] at hline
        rw [hsplit']
        rcases List.mem_cons.mp hline with rfl | hrest
        · exact ⟨c :: line, List.mem_cons_self, List.infix_cons hin⟩
        · exact ⟨line, List.mem_cons_of_mem _ hrest, hin⟩

/-! ## Putting characters in -/

/-- The one text comes from the other by putting characters in, anywhere and as many as one likes,
but no line break. -/
inductive Padded : List Char → List Char → Prop where
  | nil : Padded [] []
  | keep (c : Char) {cs ds : List Char} (rest : Padded cs ds) : Padded (c :: cs) (c :: ds)
  | put {c : Char} {cs ds : List Char} (h : c ≠ '\n') (rest : Padded cs ds) : Padded cs (c :: ds)

theorem Padded.refl (cs : List Char) : Padded cs cs := by
  induction cs with
  | nil => exact .nil
  | cons c cs ih => exact .keep c ih

theorem Padded.length_le {cs ds : List Char} (h : Padded cs ds) : cs.length ≤ ds.length := by
  induction h with
  | nil => exact Nat.le_refl _
  | keep c _ ih => exact Nat.succ_le_succ ih
  | put _ _ ih => exact Nat.le_succ_of_le ih

/-- **Characters put into a text** are put into its lines, each into one of them. -/
theorem forall₂_padded_lines {cs ds : List Char} (h : Padded cs ds) :
    List.Forall₂ Padded (cs.splitOn '\n') (ds.splitOn '\n') := by
  induction h with
  | nil => exact .cons .nil .nil
  | @keep c cs ds _ ih =>
    by_cases hc : c = '\n'
    · subst hc
      rw [splitOn_break_cons, splitOn_break_cons]
      exact .cons .nil ih
    · obtain ⟨line, lines, hcs, hcs'⟩ := exists_splitOn_cons hc cs
      obtain ⟨line', lines', hds, hds'⟩ := exists_splitOn_cons hc ds
      rw [hcs, hds] at ih
      obtain ⟨hline, hlines⟩ := List.forall₂_cons.mp ih
      rw [hcs', hds']
      exact .cons (.keep c hline) hlines
  | @put c cs ds hc _ ih =>
    -- the first line is the one that the character is put into
    obtain ⟨line, lines, hcs⟩ := List.exists_cons_of_ne_nil (List.splitOn_ne_nil '\n' cs)
    obtain ⟨line', lines', hds, hds'⟩ := exists_splitOn_cons hc ds
    rw [hcs, hds] at ih
    obtain ⟨hline, hlines⟩ := List.forall₂_cons.mp ih
    rw [hcs, hds']
    exact .cons (.put hc hline) hlines

theorem length_le_of_forall₂_padded {lines lines' : List (List Char)} {n : Nat}
    (h : List.Forall₂ Padded lines lines') (hle : ∀ line ∈ lines', line.length ≤ n) :
    ∀ line ∈ lines, line.length ≤ n := by
  induction h with
  | nil => exact hle
  | cons hline _ ih =>
    obtain ⟨hfirst, hrest⟩ := List.forall_mem_cons.mp hle
    exact List.forall_mem_cons.mpr ⟨Nat.le_trans hline.length_le hfirst, ih hrest⟩

end Whiteboard.Text
