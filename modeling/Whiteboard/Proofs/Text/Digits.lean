import Mathlib.Data.List.TakeWhile

/-!
# Whiteboard — where the parts of a text end

A text that was put together from parts can be taken apart again if it can be seen where the
parts end. A part without characters of a class ends before the first such character, and so a
number ends before the first character that is no digit. Read backwards, a number at the end of a
text starts after the last such character, whatever stands before it.

Main results:

* `append_inj_of_ends` — a text is cut before the first character of a class.
* `digits_append_inj` — a number at the start of a text.
* `append_digits_inj` — a number at the end of a text.
-/

namespace Whiteboard.Text

/-- Two texts that are each cut before the first character of a class are cut at the same
place. -/
theorem append_inj_of_ends {isEnd : Char → Bool} {as bs as' bs' : List Char}
    (has : ∀ c ∈ as, isEnd c = false) (hbs : ∀ c ∈ bs, isEnd c = false)
    (has' : ∀ c ∈ as'.head?, isEnd c = true) (hbs' : ∀ c ∈ bs'.head?, isEnd c = true)
    (h : as ++ as' = bs ++ bs') : as = bs ∧ as' = bs' := by
  have htake : ∀ cs cs' : List Char, (∀ c ∈ cs, isEnd c = false) →
      (∀ c ∈ cs'.head?, isEnd c = true) →
      (cs ++ cs').takeWhile (fun c => !isEnd c) = cs := by
    intro cs cs' hcs hcs'
    have hstop : cs'.takeWhile (fun c => !isEnd c) = [] := by
      cases cs' with
      | nil => rfl
      | cons c cs' => rw [List.takeWhile_cons_of_neg (by simp [hcs' c rfl])]
    rw [List.takeWhile_append_of_pos fun c hc => by simp [hcs c hc], hstop, List.append_nil]
  have hparts : as = bs := by
    rw [← htake as as' has has', h, htake bs bs' hbs hbs']
  subst hparts
  exact ⟨rfl, List.append_cancel_left h⟩

/-! ## Numbers -/

/-- Digits read back as the number that they spell. -/
theorem toDigits_inj {m n : Nat} (h : Nat.toDigits 10 m = Nat.toDigits 10 n) : m = n := by
  rw [← Nat.ofDigitChars_ten_toDigits (n := m), h, Nat.ofDigitChars_ten_toDigits]

section

variable {c : Char} (hc : c.isDigit = false)

include hc

theorem ne_of_mem_toDigits (n : Nat) : ∀ d ∈ Nat.toDigits 10 n, (d == c) = false := by
  intro d hd
  have hdigit : d.isDigit = true := Nat.isDigit_of_mem_toDigits (by decide) (by decide) hd
  rw [beq_eq_false_iff_ne]
  rintro rfl
  rw [hc] at hdigit
  cases hdigit

/-- A number at the start of a text ends where there is no digit. -/
theorem digits_append_inj {m n : Nat} {as bs : List Char}
    (h : Nat.toDigits 10 m ++ c :: as = Nat.toDigits 10 n ++ c :: bs) : m = n ∧ as = bs := by
  have hend : ∀ cs : List Char, ∀ d ∈ (c :: cs).head?, (d == c) = true := by simp
  obtain ⟨hmn, habs⟩ := append_inj_of_ends (ne_of_mem_toDigits hc m) (ne_of_mem_toDigits hc n)
    (hend as) (hend bs) h
  exact ⟨toDigits_inj hmn, (List.cons.inj habs).2⟩

/-- A number at the end of a text starts where there is no digit for the last time. -/
theorem append_digits_inj {m n : Nat} {as bs : List Char}
    (h : as ++ c :: Nat.toDigits 10 m = bs ++ c :: Nat.toDigits 10 n) : as = bs ∧ m = n := by
  have hend : ∀ cs : List Char, ∀ d ∈ (c :: cs).head?, (d == c) = true := by simp
  have hdigits : ∀ k, ∀ d ∈ (Nat.toDigits 10 k).reverse, (d == c) = false := fun k d hd =>
    ne_of_mem_toDigits hc k d (List.mem_reverse.mp hd)
  -- from the other end the number comes first
  have hreverse := congrArg List.reverse h
  simp only [List.reverse_append, List.reverse_cons, List.append_assoc,
    List.singleton_append] at hreverse
  obtain ⟨hmn, habs⟩ := append_inj_of_ends (hdigits m) (hdigits n) (hend _) (hend _) hreverse
  exact ⟨List.reverse_inj.mp (List.cons.inj habs).2, toDigits_inj (List.reverse_inj.mp hmn)⟩

end

end Whiteboard.Text
