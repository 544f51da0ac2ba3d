import Whiteboard.Json.Printer
import Whiteboard.Json.Reader

/-!
# Whiteboard — strings are read as they are written

A writer puts every character into a string by itself or by one escape, and a reader
takes that apart again as one unit, whatever follows.

Main results:

* `scanString_escaped` — one character, as it stands in a string, is read as one unit.
* `scanString_quoted` — a string is read up to its closing quote, and denotes what was
  written.
-/

namespace Whiteboard.Json

/-! ## Escapes -/

theorem hexValue?_hexDigit : ∀ n < 16, hexValue? (hexDigit n) = some n := by
  decide

/-- A letter after a backslash, other than `u`, stands for one character. -/
theorem scanString_simpleEscape {e c : Char} (hescape : simpleEscape? e = some c)
    (rest : List Char) :
    scanString ('\\' :: e :: rest) = (scanString rest).map fun p => (.char c :: p.1, p.2) := by
  have hunit : e ≠ 'u' := by
    rintro rfl
    cases hescape
  rw [scanString, hescape]
  · cases scanString rest <;> rfl
  · rintro a b d d' more heq
    exact absurd heq hunit

/-- Four hexadecimal digits stand for a control character. -/
theorem scanString_control {n : Nat} (hn : n < 0x20) (rest : List Char) :
    scanString ('\\' :: 'u' :: '0' :: '0' :: hexDigit (n / 16) :: hexDigit (n % 16) :: rest) =
      (scanString rest).map fun p => (.code n :: p.1, p.2) := by
  have hunit : unit? '0' '0' (hexDigit (n / 16)) (hexDigit (n % 16)) = some n := by
    have hzero : hexValue? '0' = some 0 := rfl
    have hvalue : (((0 * 16 + 0) * 16 + n / 16) * 16 + n % 16) = n := by omega
    simp only [unit?, hzero, hexValue?_hexDigit (n / 16) (by omega),
      hexValue?_hexDigit (n % 16) (by omega), Option.bind_eq_bind, Option.bind_some,
      Option.pure_def, hvalue]
  rw [scanString, hunit]
  cases scanString rest <;> rfl

/-- A character that needs no escape stands for itself. -/
theorem scanString_char {c : Char} (hquote : c ≠ '"') (hbackslash : c ≠ '\\')
    (hcontrol : ¬ c.toNat < 0x20) (rest : List Char) :
    scanString (c :: rest) = (scanString rest).map fun p => (.char c :: p.1, p.2) := by
  rw [scanString]
  · rw [if_neg (by simp [hcontrol, hbackslash])]
    cases scanString rest <;> rfl
  all_goals
    intros
    simp_all

theorem denoted?_code {n : Nat} (hn : n < 0x20) (units : List Unit16) :
    denoted? (.code n :: units) = (denoted? units).map (Char.ofNat n :: ·) := by
  have hhigh : isHighSurrogate n = false := by simp [isHighSurrogate]; omega
  have hlow : isLowSurrogate n = false := by simp [isLowSurrogate]; omega
  cases units with
  | nil => simp [denoted?, hhigh, hlow]
  | cons u units => cases u <;> simp [denoted?, hhigh, hlow]

/-! ## Strings -/

/-- **One character, one unit.** -/
theorem scanString_escaped (c : Char) (rest : List Char) : ∃ u : Unit16,
    (scanString (escaped c ++ rest) = (scanString rest).map fun p => (u :: p.1, p.2)) ∧
      ∀ units, denoted? (u :: units) = (denoted? units).map (c :: ·) := by
  rw [escaped]
  iterate 7
    split
    · subst_vars
      exact ⟨.char _, scanString_simpleEscape rfl rest, fun _ => rfl⟩
  split
  · rename_i hcontrol
    refine ⟨.code c.toNat, scanString_control hcontrol rest, fun units => ?_⟩
    rw [denoted?_code hcontrol, Char.ofNat_toNat]
  · rename_i hquote hbackslash _ _ _ _ _ hcontrol
    exact ⟨.char c, scanString_char hquote hbackslash hcontrol rest, fun _ => rfl⟩

/-- **A string is read up to its closing quote.** -/
theorem scanString_quoted (cs rest : List Char) : ∃ units,
    scanString (cs.flatMap escaped ++ '"' :: rest) = some (units, rest) ∧
      denoted? units = some cs := by
  induction cs with
  | nil => exact ⟨[], rfl, rfl⟩
  | cons c cs ih =>
    obtain ⟨units, hscan, hdenoted⟩ := ih
    obtain ⟨u, hone, hchar⟩ := scanString_escaped c (cs.flatMap escaped ++ '"' :: rest)
    refine ⟨u :: units, ?_, ?_⟩
    · rw [List.flatMap_cons, List.append_assoc, hone, hscan]
      rfl
    · rw [hchar, hdenoted]
      rfl

end Whiteboard.Json
