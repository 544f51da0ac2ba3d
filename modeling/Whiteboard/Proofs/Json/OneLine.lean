import Whiteboard.Json.Printer
import Whiteboard.Proofs.Json.Trees
import Whiteboard.Proofs.Text.Lines

/-!
# Whiteboard — values on one line

Without layout a value is written on one line, whatever strings it holds: a line break in a string
is escaped, and the writer adds none of its own. Numbers are made of digits, signs, points and
letters only.

Main results:

* `oneLine_floatText` — the text of a float, in any style.
* `Json.oneLine_compact` — the text of a value.
-/

namespace Whiteboard

open Text (OneLine)

/-! ## Numbers -/

theorem not_mem_digits (n : Nat) : '\n' ∉ Decimal.digits n := by
  intro h
  have hdigit : Char.isDigit '\n' = true :=
    Nat.isDigit_of_mem_toDigits (by decide) (by decide) h
  exact absurd hdigit (by decide)

theorem oneLine_nat (n : Nat) : OneLine (toString n) := by
  show '\n' ∉ (Nat.repr n).toList
  rw [Nat.toList_repr]
  exact not_mem_digits n

theorem not_mem_intText (n : Int) : '\n' ∉ Json.intText n := by
  have hdigits := not_mem_digits n.natAbs
  rw [Json.intText]
  split
  · rw [List.mem_cons, not_or]
    exact ⟨by decide, hdigits⟩
  · exact hdigits

namespace NumeralStyle

/-- Zeros and a point are put around the digits. -/
theorem not_mem_positionalText (style : NumeralStyle) {ds : List Char} (h : '\n' ∉ ds) (k : Int) :
    '\n' ∉ style.positionalText ds k := by
  have hzeros : ∀ n, '\n' ∉ List.replicate n '0' := by
    intro n hmem
    exact absurd (List.eq_of_mem_replicate hmem) (by decide)
  unfold positionalText
  split
  · rw [List.mem_append, List.mem_append]
    rintro ((hmem | hmem) | hmem)
    · exact h hmem
    · exact hzeros _ hmem
    · split at hmem
      · exact absurd hmem (by decide)
      · cases hmem
  · have hpadded : ∀ n, '\n' ∉ List.replicate n '0' ++ ds := by
      intro n hmem
      exact (List.mem_append.mp hmem).elim (hzeros n) h
    simp only [List.mem_append, List.mem_cons]
    rintro (hmem | hpoint | hmem)
    · exact hpadded _ (List.mem_of_mem_take hmem)
    · exact absurd hpoint (by decide)
    · exact hpadded _ (List.mem_of_mem_drop hmem)

theorem not_mem_scientificText {ds : List Char} (h : '\n' ∉ ds) (leading : Int) :
    '\n' ∉ scientificText ds leading := by
  have hmantissa : ∀ cs : List Char, '\n' ∉ cs →
      '\n' ∉ cs ++ 'e' :: (if leading < 0 then '-' else '+') :: Decimal.digits leading.natAbs := by
    intro cs hcs
    rw [List.mem_append, List.mem_cons, List.mem_cons]
    rintro (hmem | he | hsign | hmem)
    · exact hcs hmem
    · exact absurd he (by decide)
    · split at hsign
      · exact absurd hsign (by decide)
      · exact absurd hsign (by decide)
    · exact not_mem_digits _ hmem
  unfold scientificText
  refine hmantissa _ ?_
  -- a point after the first digit, unless it is the only one
  split
  · rw [List.mem_cons, List.mem_cons] at h ⊢
    rintro (hd | hpoint | hrest)
    · exact h (Or.inl hd)
    · exact absurd hpoint (by decide)
    · exact h (Or.inr (List.mem_cons.mp hrest))
  · exact h

theorem oneLine_text (style : NumeralStyle) (d : Decimal) : OneLine (style.text d) := by
  have hdigits := not_mem_digits d.significand
  have hbody : ∀ body : List Char, '\n' ∉ body →
      OneLine (String.ofList (if d.negative then '-' :: body else body)) := by
    intro body hbody
    rw [OneLine, String.toList_ofList]
    split
    · rw [List.mem_cons, not_or]
      exact ⟨by decide, hbody⟩
    · exact hbody
  unfold text
  refine hbody _ ?_
  split
  · exact style.not_mem_positionalText hdigits 0
  · split
    · exact style.not_mem_positionalText hdigits _
    · exact not_mem_scientificText hdigits _

end NumeralStyle

/-- **Floats.** -/
theorem oneLine_floatText (style : NumeralStyle) (x : Float) : OneLine (floatText style x) := by
  unfold floatText
  split
  · exact style.oneLine_text _
  · split
    · decide
    · split
      · decide
      · decide

/-! ## Values -/

namespace Json

/-- No character is written as a line break, not even a line break. -/
theorem not_mem_escaped (c : Char) : '\n' ∉ escaped c := by
  by_cases hcontrol : c.toNat < 0x20
  · have hcontrols : ∀ n < 0x20, '\n' ∉ escaped (Char.ofNat n) := by decide
    have h := hcontrols c.toNat hcontrol
    rwa [Char.ofNat_toNat] at h
  · -- a quote, a backslash, or a character that stands for itself
    have hbreak : '\n' ≠ c := by
      rintro rfl
      exact hcontrol (by decide)
    unfold escaped
    rw [if_neg hcontrol]
    split_ifs
    any_goals decide
    exact fun hmem => hbreak (List.mem_singleton.mp hmem)

theorem not_mem_quote (s : String) : '\n' ∉ quote s := by
  rw [quote, List.mem_cons, List.mem_append, List.mem_flatMap]
  rintro (hquote | ⟨c, -, hmem⟩ | hquote)
  · exact absurd hquote (by decide)
  · exact not_mem_escaped c hmem
  · exact absurd hquote (by decide)

theorem not_mem_numberText (n : Number Float) : '\n' ∉ numberText n := by
  cases n with
  | int n => exact not_mem_intText n
  | real x => exact oneLine_floatText .data x

theorem not_mem_writeItems {vs : List (Json Float)} {level : Nat}
    (h : ∀ v ∈ vs, '\n' ∉ write .compact level v) : '\n' ∉ writeItems .compact level vs := by
  induction vs with
  | nil =>
    intro hmem
    cases hmem
  | cons v vs ih =>
    obtain ⟨hv, hvs⟩ := List.forall_mem_cons.mp h
    show '\n' ∉ ',' :: (write .compact level v ++ writeItems .compact level vs)
    rw [List.mem_cons, List.mem_append]
    rintro (hcomma | hmem | hmem)
    · exact absurd hcomma (by decide)
    · exact hv hmem
    · exact ih hvs hmem

/-- A key, a colon and a value. -/
theorem not_mem_field {k : String} {cs : List Char} (h : '\n' ∉ cs) :
    '\n' ∉ quote k ++ ':' :: cs := by
  rw [List.mem_append, List.mem_cons]
  rintro (hmem | hcolon | hmem)
  · exact not_mem_quote k hmem
  · exact absurd hcolon (by decide)
  · exact h hmem

theorem not_mem_writeFields {fs : List (String × Json Float)} {level : Nat}
    (h : ∀ f ∈ fs, '\n' ∉ write .compact level f.2) : '\n' ∉ writeFields .compact level fs := by
  induction fs with
  | nil =>
    intro hmem
    cases hmem
  | cons f fs ih =>
    obtain ⟨hf, hfs⟩ := List.forall_mem_cons.mp h
    show '\n' ∉ ',' :: (quote f.1 ++ ':' ::
      (write .compact level f.2 ++ writeFields .compact level fs))
    rw [List.mem_cons, not_or]
    refine ⟨by decide, not_mem_field ?_⟩
    rw [List.mem_append, not_or]
    exact ⟨hf, ih hfs⟩

/-- A value between brackets. -/
theorem not_mem_enclosed {before after : Char} {cs : List Char} (hbefore : '\n' ≠ before)
    (hafter : '\n' ≠ after) (h : '\n' ∉ cs) : '\n' ∉ before :: (cs ++ [after]) := by
  rw [List.mem_cons, List.mem_append, List.mem_singleton]
  rintro (hmem | hmem | hmem)
  · exact hbefore hmem
  · exact h hmem
  · exact hafter hmem

theorem not_mem_write (v : Json Float) : ∀ level, '\n' ∉ write .compact level v := by
  induction v using Json.induction with
  | null =>
    intro level
    show '\n' ∉ ['n', 'u', 'l', 'l']
    decide
  | bool b =>
    intro level
    cases b with
    | true =>
      show '\n' ∉ ['t', 'r', 'u', 'e']
      decide
    | false =>
      show '\n' ∉ ['f', 'a', 'l', 's', 'e']
      decide
  | number n => exact fun _ => not_mem_numberText n
  | string s => exact fun _ => not_mem_quote s
  | array items ih =>
    intro level
    cases items with
    | nil =>
      show '\n' ∉ '[' :: ([] ++ [']'])
      exact not_mem_enclosed (by decide) (by decide) List.not_mem_nil
    | cons v vs =>
      obtain ⟨hv, hvs⟩ := List.forall_mem_cons.mp ih
      have htext : write .compact level (.array (v :: vs)) =
          '[' ::
            ((write .compact (level + 1) v ++ writeItems .compact (level + 1) vs) ++ [']']) := by
        simp only [write, Layout.compact, List.nil_append, List.append_nil]
      rw [htext]
      refine not_mem_enclosed (by decide) (by decide) ?_
      rw [List.mem_append, not_or]
      exact ⟨hv _, not_mem_writeItems fun w hw => hvs w hw _⟩
  | object fields ih =>
    intro level
    cases fields with
    | nil =>
      show '\n' ∉ '\x7b' :: ([] ++ ['\x7d'])
      exact not_mem_enclosed (by decide) (by decide) List.not_mem_nil
    | cons f fs =>
      obtain ⟨hf, hfs⟩ := List.forall_mem_cons.mp ih
      have htext : write .compact level (.object (f :: fs)) =
          '\x7b' :: ((quote f.1 ++ ':' :: (write .compact (level + 1) f.2 ++
            writeFields .compact (level + 1) fs)) ++ ['\x7d']) := by
        simp only [write, Layout.compact, List.nil_append, List.append_nil, List.append_assoc,
          List.cons_append]
      rw [htext]
      refine not_mem_enclosed (by decide) (by decide) (not_mem_field ?_)
      rw [List.mem_append, not_or]
      exact ⟨hf _, not_mem_writeFields fun g hg => hfs g hg _⟩

/-- **Values.** Without layout a value is written on one line. -/
theorem oneLine_compact (v : Json Float) : OneLine v.compact := by
  rw [OneLine, compact, String.toList_ofList]
  exact not_mem_write v 0

end Json

end Whiteboard
