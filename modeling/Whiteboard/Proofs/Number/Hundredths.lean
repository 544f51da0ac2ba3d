import Whiteboard.Proofs.Json.Numerals

/-!
# Whiteboard — hundredths that overflow

Numbers with two decimal places up to the largest float, and beyond them two infinities and
NaN, as floats have them: what is too large for a number is infinite and stays so, whatever it
is multiplied with. Within these bounds they are read back from their digits. They show by
computation what is proved of any scalars whose texts can be read.

Main results:

* `Hundredths.literal?_text` — the text of a number is one literal, its count of hundredths.
* `ExactNumeral Hundredths` — the texts are read back.
-/

namespace Whiteboard

/-- The largest finite float, in hundredths. -/
def largestHundredths : Nat := 100 * ((2 ^ 53 - 1) * 2 ^ 971)

/-- A whole count of hundredths, or what is beyond them. -/
inductive Hundredths where
  | finite (count : Int) (bounded : count.natAbs ≤ largestHundredths)
  | infinite (negative : Bool)
  | nan
  deriving DecidableEq

namespace Hundredths

/-- So many hundredths, or the infinity on their side. -/
def ofCount (n : Int) : Hundredths :=
  if h : n.natAbs ≤ largestHundredths then .finite n h else .infinite (decide (n < 0))

def isFinite : Hundredths → Bool
  | .finite .. => true
  | .infinite _ | .nan => false

def isZero : Hundredths → Bool
  | .finite n _ => n = 0
  | .infinite _ | .nan => false

def isNegative : Hundredths → Bool
  | .finite n _ => n < 0
  | .infinite negative => negative
  | .nan => false

/-- Where a number stands in their order; a NaN stands nowhere. -/
def place? : Hundredths → Option Int
  | .finite n _ => some n
  | .infinite negative =>
    some (if negative then -(largestHundredths + 1) else largestHundredths + 1)
  | .nan => none

def add : Hundredths → Hundredths → Hundredths
  | .nan, _ | _, .nan => .nan
  | .finite m _, .finite n _ => ofCount (m + n)
  | .infinite s, .infinite t => if s = t then .infinite s else .nan
  | .infinite s, .finite .. | .finite .., .infinite s => .infinite s

def neg : Hundredths → Hundredths
  | .finite n h => .finite (-n) (by rwa [Int.natAbs_neg])
  | .infinite negative => .infinite !negative
  | .nan => .nan

def mul : Hundredths → Hundredths → Hundredths
  | .nan, _ | _, .nan => .nan
  | .finite m _, .finite n _ => ofCount (m * n / 100)
  | a, b => if a.isZero || b.isZero then .nan else .infinite (a.isNegative != b.isNegative)

def div : Hundredths → Hundredths → Hundredths
  | .nan, _ | _, .nan => .nan
  | .infinite _, .infinite _ => .nan
  | .finite .., .infinite _ => ofCount 0
  | .finite m h, .finite n _ =>
    if n ≠ 0 then ofCount (100 * m / n)
    else if m = 0 then .nan
    else .infinite (isNegative (.finite m h))
  | .infinite s, b => .infinite (s != b.isNegative)

instance : Scalar Hundredths where
  add := add
  sub a b := a.add b.neg
  mul := mul
  div := div
  neg := neg
  lt a b := (a.place?.any fun m => b.place?.any fun n => decide (m < n)) = true
  le a b := (a.place?.any fun m => b.place?.any fun n => decide (m ≤ n)) = true
  ofScientific m down e := ofCount (if down then 100 * m / 10 ^ e else 100 * m * 10 ^ e : Nat)
  ofInt n := ofCount (100 * n)
  isFinite := isFinite
  midpoint a b := (a.add b).div (ofCount 200)
  decidableLT _ _ := inferInstanceAs (Decidable (_ = true))
  decidableLE _ _ := inferInstanceAs (Decidable (_ = true))

/-- The hundredths up to a decimal. -/
def ofDecimal (d : Decimal) : Hundredths :=
  let n : Nat :=
    if 0 ≤ d.exponent + 2 then d.significand * 10 ^ (d.exponent + 2).natAbs
    else d.significand / 10 ^ (d.exponent + 2).natAbs
  ofCount (if d.negative then -(n : Int) else n)

/-- The digits before the point, the point, and two digits. -/
def text (n : Int) : List Char :=
  let body := Decimal.digits (n.natAbs / 100) ++
    ['.', Nat.digitChar (n.natAbs / 10 % 10), Nat.digitChar (n.natAbs % 10)]
  if n < 0 then '-' :: body else body

/-- The text of a number, or the name of what is none. -/
def toText : Hundredths → String
  | .finite n _ => String.ofList (text n)
  | .infinite negative => if negative then "-inf" else "inf"
  | .nan => "NaN"

instance : Numeral Hundredths where
  ofDecimal? d := (some (ofDecimal d)).filter isFinite
  dataText := toText
  plainText := toText

/-! ## Reading -/

theorem unsigned?_hundredths (negative : Bool) (n : Nat) :
    Json.unsigned? negative (Decimal.digits (n / 100) ++
        ['.', Nat.digitChar (n / 10 % 10), Nat.digitChar (n % 10)]) =
      some (⟨⟨negative, n, -2⟩, false⟩, []) := by
  have htenths : n / 10 % 10 < 10 := Nat.mod_lt _ (by decide)
  have hlast : n % 10 < 10 := Nat.mod_lt n (by decide)
  have hdigits : ∀ c ∈ [Nat.digitChar (n / 10 % 10), Nat.digitChar (n % 10)],
      c.isDigit = true := by
    simp [htenths, hlast]
  have hvalue : Json.natOf (Decimal.digits (n / 100) ++
      [Nat.digitChar (n / 10 % 10), Nat.digitChar (n % 10)]) = n := by
    rw [Json.natOf, Nat.ofDigitChars_append, Nat.ofDigitChars_cons_digitChar_of_lt_ten htenths,
      Nat.ofDigitChars_cons_digitChar_of_lt_ten hlast, Nat.ofDigitChars_nil, Decimal.digits,
      Nat.ofDigitChars_ten_toDigits]
    omega
  rw [Json.unsigned?_digits_point negative (n / 100) (by simp) hdigits, hvalue]
  rfl

/-- A number is written as its count of hundredths with the point two digits from the end. -/
theorem literal?_text (n : Int) :
    Json.literal? (text n) = some (⟨⟨decide (n < 0), n.natAbs, -2⟩, false⟩, []) := by
  rw [text]
  split
  · rename_i hn
    rw [Json.literal?, unsigned?_hundredths, decide_eq_true hn]
  · rename_i hn
    rw [Json.literal?_digits_append, unsigned?_hundredths, decide_eq_false hn]

theorem ofCount_eq {n : Int} (h : n.natAbs ≤ largestHundredths) : ofCount n = .finite n h :=
  dif_pos h

/-- With two digits after the point the significand is the count of hundredths. -/
theorem ofDecimal_count {n : Int} (h : n.natAbs ≤ largestHundredths) :
    ofDecimal ⟨decide (n < 0), n.natAbs, -2⟩ = .finite n h := by
  have hscaled : (if (0 : Int) ≤ -2 + 2 then n.natAbs * 10 ^ (-2 + 2 : Int).natAbs
      else n.natAbs / 10 ^ (-2 + 2 : Int).natAbs) = n.natAbs :=
    (if_pos (by decide)).trans (Nat.mul_one _)
  have hcount : (if decide (n < 0) then -(n.natAbs : Int) else n.natAbs) = n := by
    split
    · rename_i hn
      have := of_decide_eq_true hn
      omega
    · rename_i hn
      have := of_decide_eq_false (Bool.eq_false_iff.mpr hn)
      omega
  rw [ofDecimal, hscaled, hcount, ofCount_eq h]

theorem isFinite_ofCount {n : Int} (h : n.natAbs ≤ largestHundredths) :
    (ofCount n).isFinite = true := by
  rw [ofCount_eq h]
  rfl

/-- A finite number is written as a literal that denotes it. -/
theorem exists_literal {x : Hundredths} (hx : x.isFinite = true) : ∃ l : Literal,
    Json.literal? (Numeral.dataText x).toList = some (l, []) ∧ l.whole = false ∧
      Numeral.ofDecimal? l.decimal = some x := by
  cases x with
  | finite n h =>
    refine ⟨_, (congrArg Json.literal? String.toList_ofList).trans (literal?_text n), rfl, ?_⟩
    show (some (ofDecimal ⟨decide (n < 0), n.natAbs, -2⟩)).filter isFinite = _
    rw [ofDecimal_count h]
    rfl
  | infinite | nan => cases hx

instance : LawfulNumeral Hundredths where
  literal?_dataText x hx := by
    obtain ⟨l, hl⟩ := exists_literal hx
    exact ⟨l, x, hl⟩
  isFinite_of_ofDecimal? h := (Option.filter_eq_some_iff.mp h).2
  isFinite_ofInt {n} h := by
    obtain ⟨hlow, hhigh⟩ := h
    have hlargest : 100 * 2 ^ 64 ≤ largestHundredths := by decide +kernel
    exact isFinite_ofCount (by omega)

instance : ExactNumeral Hundredths where
  reread_eq {x} hx := by
    obtain ⟨l, hl, -, hdenotes⟩ := exists_literal hx
    exact Numeral.reread_eq_of_literal? hl hdenotes

end Hundredths

end Whiteboard
