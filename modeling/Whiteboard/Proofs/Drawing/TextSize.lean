import Mathlib.Algebra.Order.Field.Basic
import Mathlib.Algebra.Order.Ring.Rat
import Mathlib.Order.Bounds.Basic
import Mathlib.Tactic.NormNum
import Mathlib.Tactic.Ring
import Whiteboard.Drawing.TextSize
import Whiteboard.Proofs.Text.Lines
import Whiteboard.Proofs.Text.Runs

/-!
# Whiteboard — the laws of text sizes

A text is as wide as its longest line and as high as all of its lines together. The longest line
is the longest run of characters without a line break, and there is one line more than there are
breaks. So texts one below the other are as wide as the wider one and as high as both, characters
put into a text make it no narrower and no higher, and the order of the lines does not matter.
Nothing is special about the end of a text, about empty lines, or about any character but the line
break.

Lines and characters are counted without a bound. A tally in words of 32 bits, kept line by line,
comes to the same numbers for every text whose lines and characters such words can count.

Main results:

* `widestLine_le_iff`, `isGreatest_widestLine` — the longest line.
* `textSize_append`, `textSize_intercalate_of_perm` — texts one below the other.
* `tally_eq` — counting in words.
* `textSize_laws` — all together.
-/

namespace Whiteboard.Drawing

open Text (IsRun OneLine Padded breaks)

/-! ## The longest line -/

theorem foldl_max_le_iff {α : Type} (size : α → Nat) (xs : List α) (a n : Nat) :
    xs.foldl (fun w x => max w (size x)) a ≤ n ↔ a ≤ n ∧ ∀ x ∈ xs, size x ≤ n := by
  induction xs generalizing a with
  | nil => simp
  | cons x xs ih => rw [List.foldl_cons, ih, Nat.max_le, List.forall_mem_cons, and_assoc]

/-- The longest line is known from what it is not longer than. -/
theorem widestLine_le_iff {text : String} {n : Nat} :
    widestLine text ≤ n ↔ ∀ line ∈ textLines text, line.length ≤ n := by
  rw [widestLine, foldl_max_le_iff]
  exact and_iff_right (Nat.zero_le n)

theorem exists_widestLine (text : String) :
    ∃ line ∈ textLines text, line.length = widestLine text := by
  have hle := widestLine_le_iff.mp (le_refl (widestLine text))
  by_contra hnone
  push Not at hnone
  have hlt : ∀ line ∈ textLines text, line.length < widestLine text := fun line hline =>
    lt_of_le_of_ne (hle line hline) (hnone line hline)
  -- every line is shorter, and there is one at least
  have hless : widestLine text ≤ widestLine text - 1 :=
    widestLine_le_iff.mpr fun line hline => Nat.le_sub_one_of_lt (hlt line hline)
  obtain ⟨first, hfirst⟩ : ∃ first, first ∈ textLines text :=
    List.exists_mem_of_ne_nil _ (List.splitOn_ne_nil '\n' text.toList)
  have hpos := hlt first hfirst
  omega

/-- **The longest line** is as long as the longest run of characters without a line break. -/
theorem isGreatest_widestLine (text : String) :
    IsGreatest {n | ∃ run, IsRun text.toList run ∧ run.length = n} (widestLine text) := by
  constructor
  · obtain ⟨line, hline, hlength⟩ := exists_widestLine text
    exact ⟨line, (Text.isRun_of_mem_splitOn text.toList).2 line hline, hlength⟩
  · rintro n ⟨run, hrun, rfl⟩
    obtain ⟨line, hline, hpart⟩ := Text.exists_line_of_isRun hrun
    exact hpart.length_le.trans (widestLine_le_iff.mp le_rfl line hline)

theorem length_textLines (text : String) : (textLines text).length = breaks text + 1 :=
  Text.length_splitOn text.toList

/-! ## Texts one below the other -/

theorem textLines_append (s t : String) :
    textLines (s ++ "\n" ++ t) = textLines s ++ textLines t := Text.splitOn_append s t

theorem widestLine_append (s t : String) :
    widestLine (s ++ "\n" ++ t) = max (widestLine s) (widestLine t) := by
  refine eq_of_forall_ge_iff fun n => ?_
  rw [max_le_iff, widestLine_le_iff, widestLine_le_iff, widestLine_le_iff, textLines_append,
    List.forall_mem_append]

theorem textLines_of_oneLine {s : String} (h : OneLine s) : textLines s = [s.toList] :=
  Text.splitOn_of_oneLine h

theorem widestLine_of_oneLine {s : String} (h : OneLine s) : widestLine s = s.length := by
  rw [widestLine, textLines_of_oneLine h, List.foldl_cons, List.foldl_nil, String.length_toList,
    Nat.zero_max]

/-- Rows that are put together have the lines of each. -/
theorem textLines_intercalate {rows : List String} (h : rows ≠ []) :
    textLines ("\n".intercalate rows) = rows.flatMap textLines := by
  induction rows with
  | nil => exact absurd rfl h
  | cons row rows ih =>
    cases rows with
    | nil => rw [String.intercalate_singleton, List.flatMap_singleton]
    | cons row' rows =>
      rw [String.intercalate_cons_cons, textLines_append, ih (List.cons_ne_nil _ _)]
      rfl

/-- The order of the lines does not matter to the longest one. -/
theorem widestLine_of_perm {s t : String} (h : (textLines s).Perm (textLines t)) :
    widestLine s = widestLine t := by
  refine eq_of_forall_ge_iff fun n => ?_
  rw [widestLine_le_iff, widestLine_le_iff]
  simp only [h.mem_iff]

/-! ## Putting characters in -/

theorem widestLine_le_of_padded {s t : String} (h : Padded s.toList t.toList) :
    widestLine s ≤ widestLine t :=
  widestLine_le_iff.mpr
    (Text.length_le_of_forall₂_padded (Text.forall₂_padded_lines h) (widestLine_le_iff.mp le_rfl))

theorem length_textLines_of_padded {s t : String} (h : Padded s.toList t.toList) :
    (textLines t).length = (textLines s).length := (Text.forall₂_padded_lines h).length_eq.symm

/-! ## Sizes -/

/-- In exact arithmetic a size is what was counted, in units of the font size. -/
theorem textSize_rat (text : String) (f : Rat) :
    textSize text f = (0.6 * f * widestLine text, 1.25 * f * (textLines text).length) := by
  have hwidth : ∀ n : Nat, ((n : Int) : Rat) * f * 0.6 = 0.6 * f * n := by
    intro n
    push_cast
    ring
  have hheight : ∀ n : Nat, ((n : Int) : Rat) * f * 1.25 = 1.25 * f * n := by
    intro n
    push_cast
    ring
  exact Prod.ext (hwidth _) (hheight _)

/-- **One text below another.** The size is as wide as the wider of the two and as high as both
together. -/
theorem textSize_append {f : Rat} (hf : 0 ≤ f) (s t : String) :
    textSize (s ++ "\n" ++ t) f =
      (max (textSize s f).1 (textSize t f).1, (textSize s f).2 + (textSize t f).2) := by
  have hunit : (0 : Rat) ≤ 0.6 * f := mul_nonneg (by norm_num) hf
  rw [textSize_rat, textSize_rat, textSize_rat, widestLine_append, textLines_append,
    List.length_append, Nat.cast_max, mul_max_of_nonneg _ _ hunit, Nat.cast_add, mul_add]

/-- **The order of the rows** does not matter. -/
theorem textSize_intercalate_of_perm {rows rows' : List String} (h : rows.Perm rows') (f : Rat) :
    textSize ("\n".intercalate rows) f = textSize ("\n".intercalate rows') f := by
  by_cases hrows : rows = []
  · subst hrows
    rw [h.nil_eq]
  · have hrows' : rows' ≠ [] := fun hnil => hrows (List.Perm.eq_nil (hnil ▸ h))
    have hlines : (textLines ("\n".intercalate rows)).Perm
        (textLines ("\n".intercalate rows')) := by
      rw [textLines_intercalate hrows, textLines_intercalate hrows']
      exact h.flatMap_right textLines
    rw [textSize_rat, textSize_rat, widestLine_of_perm hlines, hlines.length_eq]

/-! ## Counting in words -/

/-- What is counted of a text in words of 32 bits: its lines so far, and the characters of the
longest of them. -/
structure Tally where
  lines : UInt32
  widest : UInt32

/-- One line more. A line that is too long for a word counts as the largest word. -/
def Tally.next (tally : Tally) (line : List Char) : Tally where
  lines := tally.lines + 1
  widest := max tally.widest (UInt32.ofNatClamp line.length)

/-- What is counted of a text, line after line. -/
def tally (text : String) : Tally := (textLines text).foldl Tally.next ⟨0, 0⟩

theorem Tally.foldl_next {lines : List (List Char)} {t : Tally}
    (hcount : t.lines.toNat + lines.length < 2 ^ 32)
    (hlength : ∀ line ∈ lines, line.length < 2 ^ 32) :
    (lines.foldl Tally.next t).lines.toNat = t.lines.toNat + lines.length ∧
      (lines.foldl Tally.next t).widest.toNat =
        lines.foldl (fun w line => max w line.length) t.widest.toNat := by
  induction lines generalizing t with
  | nil => exact ⟨rfl, rfl⟩
  | cons line lines ih =>
    obtain ⟨hline, hrest⟩ := List.forall_mem_cons.mp hlength
    rw [List.length_cons] at hcount
    have hlines : (t.next line).lines.toNat = t.lines.toNat + 1 := by
      show (t.lines + 1).toNat = _
      rw [UInt32.toNat_add, UInt32.toNat_one]
      exact Nat.mod_eq_of_lt (by omega)
    have hwidest : (t.next line).widest.toNat = max t.widest.toNat line.length := by
      show (max t.widest (UInt32.ofNatClamp line.length)).toNat = _
      rw [UInt32.toNat_max, UInt32.toNat_ofNatClamp_of_lt hline]
    obtain ⟨ihlines, ihwidest⟩ := ih (t := t.next line) (by omega) hrest
    rw [List.foldl_cons, List.foldl_cons, ihlines, ihwidest, hlines, hwidest, List.length_cons]
    exact ⟨by omega, rfl⟩

/-- **Counting in words.** If words of 32 bits can count the lines and the characters of a text,
the tally of it is what is counted without a bound. -/
theorem tally_eq {text : String} (hlines : (textLines text).length < 2 ^ 32)
    (hlength : text.length < 2 ^ 32) :
    (tally text).lines.toNat = (textLines text).length ∧
      (tally text).widest.toNat = widestLine text := by
  have hline : ∀ line ∈ textLines text, line.length < 2 ^ 32 := by
    intro line hmem
    have hpart := ((Text.isRun_of_mem_splitOn text.toList).2 line hmem).1
    exact hpart.length_le.trans_lt (String.length_toList ▸ hlength)
  obtain ⟨hcount, hwidest⟩ := Tally.foldl_next (t := ⟨0, 0⟩) (by simpa using hlines) hline
  exact ⟨hcount.trans (Nat.zero_add _), hwidest⟩

/-! ## All together -/

/-- **The laws of text sizes.** One text below another is as wide as the wider one and as high
as both. Texts of one line side by side are as wide as both, and such a text is as high as one
line. Any text is as wide as its longest run without a line break, and has one line more than
breaks; characters put in anywhere make it no narrower and leave its height as it is, and the
order of its rows does not matter. All of this can be told from a tally in words of 32 bits, if
such words can count the lines and the characters. -/
theorem textSize_laws {f : Rat} (hf : 0 ≤ f) :
    (∀ s t, textSize (s ++ "\n" ++ t) f =
      (max (textSize s f).1 (textSize t f).1, (textSize s f).2 + (textSize t f).2)) ∧
    (∀ s t, OneLine s → OneLine t →
      textSize (s ++ t) f = ((textSize s f).1 + (textSize t f).1, 1.25 * f)) ∧
    (∀ text, ∃ longest,
      IsGreatest {n | ∃ run, IsRun text.toList run ∧ run.length = n} longest ∧
        textSize text f = (0.6 * f * longest, 1.25 * f * (breaks text + 1))) ∧
    (∀ s t, Padded s.toList t.toList →
      (textSize s f).1 ≤ (textSize t f).1 ∧ (textSize t f).2 = (textSize s f).2) ∧
    (∀ rows rows' : List String, rows.Perm rows' →
      textSize ("\n".intercalate rows) f = textSize ("\n".intercalate rows') f) ∧
    ∀ text, (textLines text).length < 2 ^ 32 → text.length < 2 ^ 32 →
      textSize text f =
        (0.6 * f * (tally text).widest.toNat, 1.25 * f * (tally text).lines.toNat) := by
  have hunit : (0 : Rat) ≤ 0.6 * f := mul_nonneg (by norm_num) hf
  refine ⟨textSize_append hf, ?_, ?_, ?_, fun rows rows' h => textSize_intercalate_of_perm h f, ?_⟩
  · intro s t hs ht
    have hst : OneLine (s ++ t) := Text.oneLine_append.mpr ⟨hs, ht⟩
    rw [textSize_rat, textSize_rat, textSize_rat, textLines_of_oneLine hst,
      widestLine_of_oneLine hst, widestLine_of_oneLine hs, widestLine_of_oneLine ht,
      String.length_append, Nat.cast_add, mul_add, List.length_singleton, Nat.cast_one, mul_one]
  · intro text
    refine ⟨widestLine text, isGreatest_widestLine text, ?_⟩
    rw [textSize_rat, length_textLines, Nat.cast_succ]
  · intro s t h
    rw [textSize_rat, textSize_rat, length_textLines_of_padded h]
    have hle : (widestLine s : Rat) ≤ widestLine t := Nat.cast_le.mpr (widestLine_le_of_padded h)
    exact ⟨mul_le_mul_of_nonneg_left hle hunit, rfl⟩
  · intro text hlines hlength
    obtain ⟨hcount, hwidest⟩ := tally_eq hlines hlength
    rw [textSize_rat, hcount, hwidest]

/-- The laws for texts with a carriage return, with an empty line at the end and with a character
of more than one byte. -/
theorem textSize_laws_of_rows :
    let s := "a\nabcd"
    let t := "naïve\n"
    (0 : Rat) ≤ 10 ∧ textSize (s ++ "\n" ++ t) (10 : Rat) = (30, 50) ∧
      OneLine "ab\r" ∧ OneLine "ï" ∧ textSize ("ab\r" ++ "ï") (10 : Rat) = (24, 12.5) ∧
      Padded s.toList "ab\nabcd".toList ∧
      (textSize s (10 : Rat)).1 ≤ (textSize "ab\nabcd" (10 : Rat)).1 ∧
      ["abcd", "", "a"].Perm ["a", "abcd", ""] ∧
      textSize ("\n".intercalate ["abcd", "", "a"]) (10 : Rat) =
        textSize ("\n".intercalate ["a", "abcd", ""]) (10 : Rat) ∧
      (textLines t).length < 2 ^ 32 ∧ t.length < 2 ^ 32 ∧
      textSize t (10 : Rat) =
        ((0.6 : Rat) * 10 * (tally t).widest.toNat, (1.25 : Rat) * 10 * (tally t).lines.toNat) := by
  intro s t
  have hten : (0 : Rat) ≤ 10 := by decide
  obtain ⟨hbelow, hbeside, -, hput, hrows, hwords⟩ := textSize_laws hten
  have hs : textSize s (10 : Rat) = (24, 25) := by decide +kernel
  have ht : textSize t (10 : Rat) = (30, 25) := by decide +kernel
  have hboth : textSize (s ++ "\n" ++ t) (10 : Rat) = (30, 50) := by
    rw [hbelow, hs, ht]
    decide +kernel
  have hab : OneLine "ab\r" := by decide
  have hi : OneLine "ï" := by decide
  have hbesides : textSize ("ab\r" ++ "ï") (10 : Rat) = (24, 12.5) := by
    have hleft : textSize "ab\r" (10 : Rat) = (18, 12.5) := by decide +kernel
    have hright : textSize "ï" (10 : Rat) = (6, 12.5) := by decide +kernel
    rw [hbeside _ _ hab hi, hleft, hright]
    decide +kernel
  have hpadded : Padded s.toList "ab\nabcd".toList := by
    have hchars : s.toList = ['a', '\n', 'a', 'b', 'c', 'd'] := by decide +kernel
    have hchars' : "ab\nabcd".toList = ['a', 'b', '\n', 'a', 'b', 'c', 'd'] := by decide +kernel
    rw [hchars, hchars']
    exact .keep 'a' (.put (by decide) (.refl _))
  have hperm : ["abcd", "", "a"].Perm ["a", "abcd", ""] := by decide
  have hlines : (textLines t).length < 2 ^ 32 := by decide +kernel
  have hlength : t.length < 2 ^ 32 := by decide +kernel
  exact ⟨hten, hboth, hab, hi, hbesides, hpadded, (hput _ _ hpadded).1, hperm, hrows _ _ hperm,
    hlines, hlength, hwords t hlines hlength⟩

end Whiteboard.Drawing
