import Whiteboard.Proofs.Json.Numerals

/-!
# Whiteboard — tenths

Numbers with one decimal place: every one is finite, is written with exactly one digit
after its point, and is read back from its digits by shifting the point. They show by
computation what is proved of any scalars whose texts are read back.

Main results:

* `Tenths.literal?_dataText` — the text of a number is one literal, its count of tenths.
* `ExactNumeral Tenths` — the texts are read back.
-/

namespace Whiteboard

/-- A whole count of tenths. -/
structure Tenths where
  count : Int
  deriving DecidableEq, Repr

namespace Tenths

instance : Scalar Tenths where
  add a b := ⟨a.count + b.count⟩
  sub a b := ⟨a.count - b.count⟩
  mul a b := ⟨a.count * b.count / 10⟩
  div a b := ⟨10 * a.count / b.count⟩
  neg a := ⟨-a.count⟩
  lt a b := a.count < b.count
  le a b := a.count ≤ b.count
  ofScientific m down e := ⟨if down then 10 * m / 10 ^ e else 10 * m * 10 ^ e⟩
  ofInt n := ⟨10 * n⟩
  isFinite _ := true
  midpoint a b := ⟨(a.count + b.count) / 2⟩
  decidableLT a b := inferInstanceAs (Decidable (a.count < b.count))
  decidableLE a b := inferInstanceAs (Decidable (a.count ≤ b.count))

/-- The tenths up to a decimal. -/
def ofDecimal (d : Decimal) : Tenths :=
  let n : Nat :=
    if 0 ≤ d.exponent + 1 then d.significand * 10 ^ (d.exponent + 1).natAbs
    else d.significand / 10 ^ (d.exponent + 1).natAbs
  ⟨if d.negative then -(n : Int) else n⟩

/-- The digits before the point, the point, and one digit. -/
def text (x : Tenths) : List Char :=
  let body := Decimal.digits (x.count.natAbs / 10) ++ ['.', Nat.digitChar (x.count.natAbs % 10)]
  if x.count < 0 then '-' :: body else body

instance : Numeral Tenths where
  ofDecimal? d := some (ofDecimal d)
  dataText x := String.ofList x.text
  plainText x := String.ofList x.text

theorem unsigned?_tenths (negative : Bool) (n : Nat) :
    Json.unsigned? negative (Decimal.digits (n / 10) ++ ['.', Nat.digitChar (n % 10)]) =
      some (⟨⟨negative, n, -1⟩, false⟩, []) := by
  have hlast : n % 10 < 10 := Nat.mod_lt n (by decide)
  have hvalue : Json.natOf (Decimal.digits (n / 10) ++ [Nat.digitChar (n % 10)]) = n := by
    rw [Json.natOf, Nat.ofDigitChars_append, Nat.ofDigitChars_cons_digitChar_of_lt_ten hlast,
      Nat.ofDigitChars_nil]
    rw [Decimal.digits, Nat.ofDigitChars_ten_toDigits]
    omega
  rw [Json.unsigned?_digits_point negative (n / 10) (by simp) (by simp [hlast]),
    hvalue]
  rfl

/-- A number is written as its count of tenths with the point one digit from the end. -/
theorem literal?_text (x : Tenths) :
    Json.literal? x.text = some (⟨⟨decide (x.count < 0), x.count.natAbs, -1⟩, false⟩, []) := by
  rw [text]
  split
  · rename_i hx
    rw [Json.literal?, unsigned?_tenths, decide_eq_true hx]
  · rename_i hx
    rw [Json.literal?_digits_append, unsigned?_tenths, decide_eq_false hx]

/-- With one digit after the point the significand is the count of tenths. -/
theorem ofDecimal_tenths (negative : Bool) (n : Nat) :
    ofDecimal ⟨negative, n, -1⟩ = ⟨if negative then -(n : Int) else n⟩ := by
  have hscaled : (if (0 : Int) ≤ -1 + 1 then n * 10 ^ (-1 + 1 : Int).natAbs
      else n / 10 ^ (-1 + 1 : Int).natAbs) = n := (if_pos (by decide)).trans (Nat.mul_one n)
  exact congrArg (fun k : Nat => Tenths.mk (if negative then -(k : Int) else k)) hscaled

theorem ofDecimal_count (x : Tenths) :
    ofDecimal ⟨decide (x.count < 0), x.count.natAbs, -1⟩ = x := by
  have hcount : (if decide (x.count < 0) then -(x.count.natAbs : Int) else x.count.natAbs) =
      x.count := by
    split
    · rename_i hx
      have := of_decide_eq_true hx
      omega
    · rename_i hx
      have := of_decide_eq_false (Bool.eq_false_iff.mpr hx)
      omega
  rw [ofDecimal_tenths, hcount]

theorem literal?_dataText (x : Tenths) :
    Json.literal? (Numeral.dataText x).toList =
      some (⟨⟨decide (x.count < 0), x.count.natAbs, -1⟩, false⟩, []) := by
  rw [← x.literal?_text]
  exact congrArg Json.literal? String.toList_ofList

instance : LawfulNumeral Tenths where
  literal?_dataText x _ := ⟨_, x, x.literal?_dataText, rfl, congrArg some x.ofDecimal_count⟩
  isFinite_of_ofDecimal? _ := rfl
  isFinite_ofInt _ := rfl

instance : ExactNumeral Tenths where
  reread_eq {x} _ :=
    Numeral.reread_eq_of_literal? x.literal?_dataText (congrArg some x.ofDecimal_count)

end Tenths

end Whiteboard
