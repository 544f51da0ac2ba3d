import Mathlib.Data.List.Basic
import Whiteboard.Number.Whole

/-!
# Whiteboard — which texts are whole numbers

A whole number is read digit by digit, and reading stops at the first character that is no digit
and at the first digit that makes the number too large. What is read in the end is what the digits
denote together; as they never make a number smaller, one that is too large on the way is too large
in the end.

Main results:

* `read_eq_ok_iff` — a text is read as a number exactly if it denotes one of 32 bits.
* `read_map_toLower` — the case of letters does not matter, not even to what is wrong.
-/

namespace Whiteboard.Whole

/-- The text consists of the digits of the number, with a plus sign before them or without. -/
def Denotes (cs : List Char) (n : Nat) : Prop :=
  ∃ digits, (cs = digits ∨ cs = '+' :: digits) ∧ digits ≠ [] ∧ (∀ c ∈ digits, c.isDigit = true) ∧
    Nat.ofDigitChars 10 digits 0 = n

/-! ## Digits -/

theorem le_ofDigitChars (cs : List Char) (n : Nat) : n ≤ Nat.ofDigitChars 10 cs n := by
  induction cs generalizing n with
  | nil => exact Nat.le_refl n
  | cons c cs ih =>
    rw [Nat.ofDigitChars_cons]
    have hnext := ih (10 * n + (c.toNat - '0'.toNat))
    omega

theorem extend_eq_ok_iff {cs : List Char} {n m : Nat} (hn : n < UInt32.size) :
    extend n cs = .ok m ↔
      (∀ c ∈ cs, c.isDigit = true) ∧ Nat.ofDigitChars 10 cs n = m ∧ m < UInt32.size := by
  induction cs generalizing n with
  | nil =>
    rw [extend, Except.ok.injEq, Nat.ofDigitChars_nil]
    constructor
    · rintro rfl
      exact ⟨List.forall_mem_nil _, rfl, hn⟩
    · exact fun h => h.2.1
  | cons c cs ih =>
    rw [extend, Nat.ofDigitChars_cons, List.forall_mem_cons]
    by_cases hc : c.isDigit = true
    · rw [if_neg (not_not_intro hc)]
      by_cases hnext : 10 * n + (c.toNat - '0'.toNat) < UInt32.size
      · rw [if_pos hnext, ih hnext]
        simp only [hc, true_and]
      · -- the number will not get smaller
        rw [if_neg hnext]
        have hle := le_ofDigitChars cs (10 * n + (c.toNat - '0'.toNat))
        refine ⟨fun h => ?_, fun h => ?_⟩
        · cases h
        · omega
    · rw [if_pos hc]
      refine ⟨fun h => ?_, fun h => absurd h.1.1 hc⟩
      cases h

/-! ## Signs -/

theorem read_plus {digits : List Char} (h : digits ≠ []) :
    read ('+' :: digits) = extend 0 digits := by
  cases digits with
  | nil => exact absurd rfl h
  | cons c cs => rfl

theorem read_of_ne_plus {c : Char} (h : c ≠ '+') (cs : List Char) :
    read (c :: cs) = extend 0 (c :: cs) := by
  unfold read
  split
  · rename_i heq
    cases heq
  · rename_i heq
    cases heq
    exact absurd rfl h
  · rename_i heq
    cases heq
    exact absurd rfl h
  · rfl

theorem denotes_plus_iff {digits : List Char} {n : Nat} :
    Denotes ('+' :: digits) n ↔
      digits ≠ [] ∧ (∀ c ∈ digits, c.isDigit = true) ∧ Nat.ofDigitChars 10 digits 0 = n := by
  constructor
  · rintro ⟨digits', heq | heq, hne, hdigits, hvalue⟩
    · -- a plus sign is no digit
      exact absurd (hdigits '+' (heq ▸ List.mem_cons_self)) (by decide)
    · obtain rfl := (List.cons.inj heq).2
      exact ⟨hne, hdigits, hvalue⟩
  · exact fun h => ⟨digits, Or.inr rfl, h⟩

theorem denotes_iff_of_ne_plus {c : Char} (h : c ≠ '+') {cs : List Char} {n : Nat} :
    Denotes (c :: cs) n ↔
      (∀ d ∈ c :: cs, d.isDigit = true) ∧ Nat.ofDigitChars 10 (c :: cs) 0 = n := by
  constructor
  · rintro ⟨digits, heq | heq, -, hdigits, hvalue⟩
    · obtain rfl := heq
      exact ⟨hdigits, hvalue⟩
    · exact absurd (List.cons.inj heq).1 h
  · exact fun hdigits => ⟨_, Or.inl rfl, List.cons_ne_nil c cs, hdigits⟩

/-- **Whole numbers.** Exactly the texts that denote a number of 32 bits are read, as this
number. -/
theorem read_eq_ok_iff {cs : List Char} {n : Nat} :
    read cs = .ok n ↔ Denotes cs n ∧ n < UInt32.size := by
  have hzero : 0 < UInt32.size := by decide
  cases cs with
  | nil =>
    constructor
    · intro h
      cases h
    · rintro ⟨⟨digits, heq | heq, hne, -⟩, -⟩
      · exact absurd heq.symm hne
      · cases heq
  | cons c cs =>
    by_cases hc : c = '+'
    · subst hc
      rw [denotes_plus_iff]
      by_cases hcs : cs = []
      · -- a sign alone
        subst hcs
        constructor
        · intro h
          cases h
        · exact fun h => absurd rfl h.1.1
      · rw [read_plus hcs, extend_eq_ok_iff hzero]
        simp only [ne_eq, hcs, not_false_eq_true, true_and, and_assoc]
    · rw [read_of_ne_plus hc, extend_eq_ok_iff hzero, denotes_iff_of_ne_plus hc, and_assoc]

/-! ## Letters -/

/-- A character that is changed is a letter, and becomes one. -/
theorem toLower_cases (c : Char) :
    c.toLower = c ∨ 65 ≤ c.toNat ∧ c.toNat ≤ 90 ∧ c.toLower.toNat = c.toNat + 32 := by
  unfold Char.toLower
  split
  · rename_i hupper
    refine Or.inr ⟨hupper.1, hupper.2, ?_⟩
    have hhigh : c.val.toNat ≤ 90 := hupper.2
    show (c.val + ('a'.val - 'A'.val)).toNat = c.val.toNat + 32
    rw [UInt32.toNat_add]
    show (c.val.toNat + 32) % 2 ^ 32 = _
    omega
  · exact Or.inl rfl

theorem isDigit_iff (c : Char) : c.isDigit = true ↔ 48 ≤ c.toNat ∧ c.toNat ≤ 57 := by
  rw [Char.isDigit, Bool.and_eq_true, decide_eq_true_eq, decide_eq_true_eq]
  exact Iff.rfl

theorem isDigit_toLower (c : Char) : c.toLower.isDigit = c.isDigit := by
  rcases toLower_cases c with hsame | ⟨hlow, hhigh, hlower⟩
  · rw [hsame]
  · rw [Bool.eq_iff_iff, isDigit_iff, isDigit_iff]
    omega

theorem toLower_of_isDigit {c : Char} (h : c.isDigit = true) : c.toLower = c := by
  rcases toLower_cases c with hsame | ⟨hlow, hhigh, hlower⟩
  · exact hsame
  · have hdigit := (isDigit_iff c).mp h
    omega

theorem toLower_eq_plus_iff {c : Char} : c.toLower = '+' ↔ c = '+' := by
  rcases toLower_cases c with hsame | ⟨hlow, hhigh, hlower⟩
  · rw [hsame]
  · have hplus : '+'.toNat = 43 := by decide
    constructor
    · intro h
      rw [h, hplus] at hlower
      omega
    · rintro rfl
      omega

theorem extend_map_toLower (cs : List Char) (n : Nat) :
    extend n (cs.map Char.toLower) = extend n cs := by
  induction cs generalizing n with
  | nil => rfl
  | cons c cs ih =>
    rw [List.map_cons, extend, extend, isDigit_toLower]
    by_cases hc : c.isDigit = true
    · rw [if_neg (not_not_intro hc), if_neg (not_not_intro hc), toLower_of_isDigit hc]
      simp only [ih]
    · rw [if_pos hc, if_pos hc]

/-- **The case of letters.** No letter is part of a number, whatever its case. -/
theorem read_map_toLower (cs : List Char) : read (cs.map Char.toLower) = read cs := by
  cases cs with
  | nil => rfl
  | cons c cs =>
    by_cases hc : c = '+'
    · subst hc
      by_cases hcs : cs = []
      · subst hcs
        rfl
      · have hlower : cs.map Char.toLower ≠ [] := fun h => hcs (List.map_eq_nil_iff.mp h)
        show read ('+' :: cs.map Char.toLower) = _
        rw [read_plus hlower, read_plus hcs, extend_map_toLower]
    · have hlower : c.toLower ≠ '+' := fun h => hc (toLower_eq_plus_iff.mp h)
      rw [List.map_cons, read_of_ne_plus hlower, read_of_ne_plus hc, ← List.map_cons,
        extend_map_toLower]

end Whiteboard.Whole
