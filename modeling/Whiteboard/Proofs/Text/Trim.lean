import Mathlib.Data.List.TakeWhile
import Whiteboard.Text.Blank

/-!
# Whiteboard — trimming

`Text.trimmed` is computed by dropping blanks, turning the list around and
dropping again. `TrimsTo` says without computation what a text is when trimmed:
the blanks at both ends are gone and nothing else is.

Main results:

* `trimmed_eq_iff` — trimming computes exactly what `TrimsTo` describes, so the
  trimmed text is unique.
* `trimmed_eq_nil_iff` — nothing is left exactly of a text of blanks.
-/

namespace Whiteboard.Text

/-- A text of blanks only. -/
def AllBlank (cs : List Char) : Prop := ∀ c ∈ cs, isBlank c = true

/-- A text that neither begins nor ends with a blank. -/
structure NoBlankEnds (cs : List Char) : Prop where
  head : ∀ c, cs.head? = some c → isBlank c = false
  last : ∀ c, cs.getLast? = some c → isBlank c = false

/-- `inner` is the text without the blanks at its ends. -/
def TrimsTo (cs inner : List Char) : Prop :=
  ∃ before after, cs = before ++ inner ++ after ∧ AllBlank before ∧ AllBlank after ∧
    NoBlankEnds inner

/-! ## Skipping blanks -/

theorem skipBlanks_append {before : List Char} (h : AllBlank before) (cs : List Char) :
    skipBlanks (before ++ cs) = skipBlanks cs :=
  List.dropWhile_append_of_pos h

theorem skipBlanks_of_head {cs : List Char} (h : ∀ c, cs.head? = some c → isBlank c = false) :
    skipBlanks cs = cs := by
  cases cs with
  | nil => rfl
  | cons c cs =>
    have hc : isBlank c = false := h c rfl
    rw [skipBlanks, List.dropWhile_cons, hc]
    rfl

/-- What is skipped is blank, and a skipped text does not begin with a blank. -/
theorem exists_skipBlanks (cs : List Char) :
    ∃ before, cs = before ++ skipBlanks cs ∧ AllBlank before ∧
      ∀ c, (skipBlanks cs).head? = some c → isBlank c = false := by
  refine ⟨cs.takeWhile isBlank, List.takeWhile_append_dropWhile.symm, ?_, ?_⟩
  · intro c hc
    exact List.mem_takeWhile_imp hc
  · intro c hc
    have h := List.head?_dropWhile_not isBlank cs
    rw [skipBlanks] at hc
    rw [hc] at h
    simpa using h

theorem AllBlank.reverse {cs : List Char} (h : AllBlank cs) : AllBlank cs.reverse := by
  intro c hc
  exact h c (List.mem_reverse.mp hc)

theorem skipBlanks_eq_nil {cs : List Char} (h : AllBlank cs) : skipBlanks cs = [] := by
  have := skipBlanks_append h []
  rw [List.append_nil] at this
  exact this

/-! ## Trimming -/

theorem trimsTo_trimmed (cs : List Char) : TrimsTo cs (trimmed cs) := by
  obtain ⟨before, hcs, hbefore, hhead⟩ := exists_skipBlanks cs
  obtain ⟨after, hrev, hafter, hlast⟩ := exists_skipBlanks (skipBlanks cs).reverse
  have hsplit : skipBlanks cs = trimmed cs ++ after.reverse := by
    rw [← List.reverse_reverse (skipBlanks cs), hrev, List.reverse_append, trimmed]
  refine ⟨before, after.reverse, ?_, hbefore, hafter.reverse, ?_, ?_⟩
  · rw [List.append_assoc, ← hsplit]
    exact hcs
  · -- the head of the trimmed text is the head of the text once skipped
    intro c hc
    refine hhead c ?_
    rw [hsplit, List.head?_append, hc]
    rfl
  · intro c hc
    rw [trimmed, List.getLast?_reverse] at hc
    exact hlast c hc

theorem trimmed_of_trimsTo {cs inner : List Char} (h : TrimsTo cs inner) : trimmed cs = inner := by
  obtain ⟨before, after, rfl, hbefore, hafter, hends⟩ := h
  rw [trimmed, List.append_assoc, skipBlanks_append hbefore]
  cases inner with
  | nil =>
    rw [List.nil_append, skipBlanks_eq_nil hafter]
    rfl
  | cons x xs =>
    -- nothing of the inner text is skipped from either end
    have hhead : ∀ c, (x :: xs ++ after).head? = some c → isBlank c = false := hends.head
    have hlast : ∀ c, (x :: xs).reverse.head? = some c → isBlank c = false := by
      intro c hc
      rw [List.head?_reverse] at hc
      exact hends.last c hc
    rw [skipBlanks_of_head hhead, List.reverse_append, skipBlanks_append hafter.reverse,
      skipBlanks_of_head hlast, List.reverse_reverse]

/-- **Trimming is unique.** The trimmed text is the one that has lost the blanks
at its ends and nothing else. -/
theorem trimmed_eq_iff {cs inner : List Char} : trimmed cs = inner ↔ TrimsTo cs inner := by
  constructor
  · rintro rfl
    exact trimsTo_trimmed cs
  · exact trimmed_of_trimsTo

theorem trimmed_eq_nil_iff {cs : List Char} : trimmed cs = [] ↔ AllBlank cs := by
  rw [trimmed_eq_iff]
  constructor
  · rintro ⟨before, after, rfl, hbefore, hafter, -⟩ c hc
    rcases List.mem_append.mp hc with hc | hc
    · exact hbefore c (by simpa using hc)
    · exact hafter c hc
  · intro h
    exact ⟨cs, [], by simp, h, by simp [AllBlank], ⟨by simp, by simp⟩⟩

end Whiteboard.Text
