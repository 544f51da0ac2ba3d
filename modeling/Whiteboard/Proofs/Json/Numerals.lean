import Mathlib.Algebra.Ring.Int.Defs
import Mathlib.Algebra.Ring.Nat
import Mathlib.Data.List.TakeWhile
import Whiteboard.Json.Printer
import Whiteboard.Json.Reader

/-!
# Whiteboard — numbers are read as they are written

A number ends where the text goes on with nothing that could continue it, so a
reader that takes a number from a text alone takes the same one from a longer text.

Main results:

* `literal?_append` — what follows a number does not change how it is read.
* `literal?_intText` — an integer is read from its digits.
* `Number.literal?_numberText`, `Number.number?_literal` — a number is written as a
  literal, from which it is read up to the rounding of the reader (`Numeral.reread`).
* `Number.reread_eq` — where reading is exact (`ExactNumeral`), that is the number itself.
-/

namespace Whiteboard

namespace Json

/-- Integers of 64 bits, with or without a sign, which a reader keeps as integers. -/
def IsInt64 (n : Int) : Prop := -2 ^ 63 ≤ n ∧ n < 2 ^ 64

end Json

/-- Scalars whose texts in a document are read as scalars again, and of which a reader yields
only finite ones. A reader may round, so what is read need not be what was written. -/
class LawfulNumeral (S : Type) [Scalar S] [Numeral S] : Prop where
  /-- A finite scalar is written with a point or an exponent, in digits that are in range. -/
  literal?_dataText : ∀ x : S, Scalar.isFinite x = true → ∃ (l : Literal) (y : S),
    Json.literal? (Numeral.dataText x).toList = some (l, []) ∧ l.whole = false ∧
      Numeral.ofDecimal? l.decimal = some y
  isFinite_of_ofDecimal? : ∀ {d : Decimal} {x : S}, Numeral.ofDecimal? d = some x →
    Scalar.isFinite x = true
  isFinite_ofInt : ∀ {n : Int}, Json.IsInt64 n → Scalar.isFinite (Scalar.ofInt n : S) = true

namespace Json

/-! ## Where a number ends -/

/-- A character that may stand in a number. -/
def isNumeric (c : Char) : Bool := c.isDigit || ['.', 'e', 'E', '+', '-'].contains c

/-- A text that does not continue a number before it. -/
def EndsNumber (rest : List Char) : Prop := ∀ c ∈ rest.head?, isNumeric c = false

theorem EndsNumber.nil : EndsNumber [] := by
  intro c hc
  cases hc

/-- What follows a number does not put a numeric character at its head. -/
theorem EndsNumber.append_ne_cons {cs rest : List Char} {c : Char} (hrest : EndsNumber rest)
    (hcs : ∀ more, cs = c :: more → False) (hc : isNumeric c = true) (more : List Char) :
    cs ++ rest = c :: more → False := by
  intro h
  cases cs with
  | nil =>
    rw [List.nil_append] at h
    have hend := hrest c (by rw [h]; rfl)
    rw [hc] at hend
    cases hend
  | cons c' cs =>
    rw [List.cons_append] at h
    exact hcs cs (by rw [(List.cons.inj h).1])

/-- Digits are taken up to the first character that is none. -/
theorem digits?_eq_some_iff {cs ds after : List Char} :
    digits? cs = some (ds, after) ↔
      ds ≠ [] ∧ (∀ c ∈ ds, c.isDigit = true) ∧ (∀ c ∈ after.head?, c.isDigit = false) ∧
        cs = ds ++ after := by
  constructor
  · intro h
    rw [digits?] at h
    split at h
    · cases h
    · rename_i hnonempty
      obtain ⟨rfl, rfl⟩ := Prod.mk.inj (Option.some.inj h)
      refine ⟨by simpa using hnonempty, fun c hc => List.mem_takeWhile_imp hc, fun c hc => ?_,
        List.takeWhile_append_dropWhile.symm⟩
      have hhead := List.head?_dropWhile_not Char.isDigit cs
      rw [Option.mem_def.mp hc] at hhead
      exact Bool.eq_false_iff.mpr (by simpa using hhead)
  · rintro ⟨hnonempty, hdigits, hafter, rfl⟩
    have hstop : after.takeWhile Char.isDigit = [] ∧ after.dropWhile Char.isDigit = after := by
      cases after with
      | nil => exact ⟨rfl, rfl⟩
      | cons c after =>
        have hc := hafter c rfl
        exact ⟨List.takeWhile_cons_of_neg (by simp [hc]), List.dropWhile_cons_of_neg (by simp [hc])⟩
    rw [digits?, List.takeWhile_append_of_pos hdigits, List.dropWhile_append_of_pos hdigits,
      hstop.1, hstop.2, List.append_nil, if_neg (by simpa using hnonempty)]

theorem digits?_append {cs ds after rest : List Char} (h : digits? cs = some (ds, after))
    (hrest : EndsNumber rest) : digits? (cs ++ rest) = some (ds, after ++ rest) := by
  obtain ⟨hnonempty, hdigits, hafter, rfl⟩ := digits?_eq_some_iff.mp h
  refine digits?_eq_some_iff.mpr ⟨hnonempty, hdigits, ?_, List.append_assoc ..⟩
  cases after with
  | nil => exact fun c hc => (Bool.or_eq_false_iff.mp (hrest c hc)).1
  | cons c after => exact hafter

theorem wholePart?_append {cs ds after rest : List Char} (h : wholePart? cs = some (ds, after))
    (hrest : EndsNumber rest) : wholePart? (cs ++ rest) = some (ds, after ++ rest) := by
  rw [wholePart?.eq_def] at h
  split at h
  · -- a zero stands alone
    cases h
    rfl
  · rename_i hzero
    rw [wholePart?, digits?_append h hrest]
    exact hrest.append_ne_cons hzero rfl

theorem fraction?_append {cs ds after rest : List Char} (h : fraction? cs = some (ds, after))
    (hrest : EndsNumber rest) : fraction? (cs ++ rest) = some (ds, after ++ rest) := by
  rw [fraction?.eq_def] at h
  split at h
  · exact digits?_append h hrest
  · rename_i hpoint
    cases h
    rw [fraction?]
    exact hrest.append_ne_cons hpoint rfl

theorem signedDigits?_append {cs after rest : List Char} {e : Int}
    (h : signedDigits? cs = some (e, after)) (hrest : EndsNumber rest) :
    signedDigits? (cs ++ rest) = some (e, after ++ rest) := by
  rw [signedDigits?.eq_def] at h
  split at h
  all_goals
    obtain ⟨⟨ds, tail⟩, hdigits, heq⟩ := Option.map_eq_some_iff.mp h
    obtain ⟨rfl, rfl⟩ := Prod.mk.inj heq
  · rw [List.cons_append, signedDigits?, digits?_append hdigits hrest]
    rfl
  · rw [List.cons_append, signedDigits?, digits?_append hdigits hrest]
    rfl
  · rename_i hminus hplus
    rw [signedDigits?, digits?_append hdigits hrest]
    · rfl
    · exact hrest.append_ne_cons hminus rfl
    · exact hrest.append_ne_cons hplus rfl

theorem exponent?_append {cs after rest : List Char} {e : Option Int}
    (h : exponent? cs = some (e, after)) (hrest : EndsNumber rest) :
    exponent? (cs ++ rest) = some (e, after ++ rest) := by
  rw [exponent?.eq_def] at h
  split at h
  -- neither letter follows: there is no exponent, and none comes with the rest
  case h_3 hsmall hlarge =>
    cases h
    rw [exponent?]
    · exact hrest.append_ne_cons hsmall rfl
    · exact hrest.append_ne_cons hlarge rfl
  all_goals
    obtain ⟨⟨e', tail⟩, hsigned, heq⟩ := Option.map_eq_some_iff.mp h
    obtain ⟨rfl, rfl⟩ := Prod.mk.inj heq
    rw [List.cons_append, exponent?, signedDigits?_append hsigned hrest]
    rfl

theorem unsigned?_append {negative : Bool} {cs after rest : List Char} {l : Literal}
    (h : unsigned? negative cs = some (l, after)) (hrest : EndsNumber rest) :
    unsigned? negative (cs ++ rest) = some (l, after ++ rest) := by
  simp only [unsigned?, Option.bind_eq_bind, Option.bind_eq_some_iff] at h
  obtain ⟨⟨whole, r₁⟩, h₁, ⟨fraction, r₂⟩, h₂, ⟨e, r₃⟩, h₃, heq⟩ := h
  obtain ⟨rfl, rfl⟩ := Prod.mk.inj (Option.some.inj heq)
  simp [unsigned?, wholePart?_append h₁ hrest, fraction?_append h₂ hrest, exponent?_append h₃ hrest]

/-- **What follows a number does not change it**, unless it could be a part of it. -/
theorem literal?_append {cs after rest : List Char} {l : Literal}
    (h : literal? cs = some (l, after)) (hrest : EndsNumber rest) :
    literal? (cs ++ rest) = some (l, after ++ rest) := by
  rw [literal?.eq_def] at h
  split at h
  · rw [List.cons_append, literal?, unsigned?_append h hrest]
  · rename_i hminus
    rw [literal?, unsigned?_append h hrest]
    exact hrest.append_ne_cons hminus rfl

/-- A number begins with a digit or a minus sign. -/
theorem head_of_literal? {c : Char} {cs after : List Char} {l : Literal}
    (h : literal? (c :: cs) = some (l, after)) : c = '-' ∨ c.isDigit = true := by
  by_cases hminus : c = '-'
  · exact Or.inl hminus
  · right
    have hunsigned : unsigned? false (c :: cs) = some (l, after) := by
      rwa [literal?] at h
      exact fun _ heq => hminus (List.cons.inj heq).1
    simp only [unsigned?, Option.bind_eq_bind, Option.bind_eq_some_iff] at hunsigned
    obtain ⟨⟨whole, rest⟩, hwhole, -⟩ := hunsigned
    rw [wholePart?.eq_def] at hwhole
    split at hwhole
    · rename_i heq
      rw [(List.cons.inj heq).1]
      rfl
    · obtain ⟨hnonempty, hdigits, -, heq⟩ := digits?_eq_some_iff.mp hwhole
      obtain ⟨d, ds, rfl⟩ := List.exists_cons_of_ne_nil hnonempty
      rw [(List.cons.inj heq).1]
      exact hdigits d List.mem_cons_self

/-! ## Integers -/

/-- A positive number is written without a leading zero. -/
theorem head_digits {n : Nat} (hn : 0 < n) : ∀ ds, Decimal.digits n ≠ '0' :: ds := by
  induction n using Nat.strongRecOn with
  | ind n ih =>
    intro ds h
    rw [Decimal.digits, Nat.toDigits_eq_if (by decide)] at h
    split at h
    · rename_i hsmall
      have hdigit : ∀ d < 10, 0 < d → Nat.digitChar d ≠ '0' := by decide
      exact hdigit n hsmall hn (List.cons.inj h).1
    · -- the digits of a tenth come first
      have hhead : Decimal.digits (n / 10) ≠ [] := Nat.toDigits_ne_nil
      obtain ⟨d, more, hmore⟩ := List.exists_cons_of_ne_nil hhead
      rw [← Decimal.digits, hmore, List.cons_append] at h
      obtain ⟨rfl, -⟩ := List.cons.inj h
      exact ih (n / 10) (by omega) (by omega) more hmore

/-- The digits of a number are its whole part, up to what is no digit. -/
theorem wholePart?_digits_append (n : Nat) (rest : List Char)
    (hrest : ∀ c ∈ rest.head?, c.isDigit = false) :
    wholePart? (Decimal.digits n ++ rest) = some (Decimal.digits n, rest) := by
  rcases Nat.eq_zero_or_pos n with rfl | hn
  · rfl
  · obtain ⟨d, ds, hds⟩ := List.exists_cons_of_ne_nil (Nat.toDigits_ne_nil (n := n) (b := 10))
    have hdigits : digits? (Decimal.digits n ++ rest) = some (Decimal.digits n, rest) :=
      digits?_eq_some_iff.mpr ⟨Nat.toDigits_ne_nil, fun c hc =>
        Nat.isDigit_of_mem_toDigits (by decide) (by decide) hc, hrest, rfl⟩
    rw [wholePart?, hdigits]
    intro more heq
    rw [Decimal.digits, hds, List.cons_append] at heq
    exact head_digits hn ds (by rw [Decimal.digits, hds, (List.cons.inj heq).1])

theorem unsigned?_digits (negative : Bool) (n : Nat) :
    unsigned? negative (Decimal.digits n) = some (⟨⟨negative, n, 0⟩, true⟩, []) := by
  have hwhole := wholePart?_digits_append n [] (by simp)
  rw [List.append_nil] at hwhole
  have hvalue : natOf (Decimal.digits n) = n := Nat.ofDigitChars_ten_toDigits
  simp [unsigned?, hwhole, fraction?, exponent?, hvalue]

/-- Digits have no sign before them. -/
theorem literal?_digits_append (n : Nat) (rest : List Char) :
    literal? (Decimal.digits n ++ rest) = unsigned? false (Decimal.digits n ++ rest) := by
  obtain ⟨d, ds, hds⟩ := List.exists_cons_of_ne_nil (Nat.toDigits_ne_nil (n := n) (b := 10))
  have hdigit : d.isDigit = true :=
    Nat.isDigit_of_mem_toDigits (b := 10) (n := n) (by decide) (by decide) (by simp [hds])
  rw [literal?]
  intro more heq
  rw [Decimal.digits, hds, List.cons_append] at heq
  rw [(List.cons.inj heq).1] at hdigit
  cases hdigit

/-- Digits with a point among them are a number of tenths, hundredths, and so on. -/
theorem unsigned?_digits_point (negative : Bool) (n : Nat) {fraction : List Char}
    (hnonempty : fraction ≠ []) (hdigits : ∀ c ∈ fraction, c.isDigit = true) :
    unsigned? negative (Decimal.digits n ++ '.' :: fraction) =
      some (⟨⟨negative, natOf (Decimal.digits n ++ fraction), -fraction.length⟩, false⟩, []) := by
  have hwhole := wholePart?_digits_append n ('.' :: fraction) (by simp)
  have hfraction : fraction? ('.' :: fraction) = some (fraction, []) :=
    digits?_eq_some_iff.mpr ⟨hnonempty, hdigits, by simp, (List.append_nil _).symm⟩
  simp [unsigned?, hwhole, hfraction, exponent?, hnonempty]

/-- An integer is read from its digits. -/
theorem literal?_intText (n : Int) :
    literal? (intText n) = some (⟨⟨decide (n < 0), n.natAbs, 0⟩, true⟩, []) := by
  rw [intText]
  split
  · rename_i hn
    rw [literal?, unsigned?_digits, decide_eq_true hn]
  · rename_i hn
    have hunsigned := literal?_digits_append n.natAbs []
    rw [List.append_nil] at hunsigned
    rw [hunsigned, unsigned?_digits, decide_eq_false hn]

end Json

/-! ## Literals -/

theorem Literal.isInt64_of_int? {l : Literal} {n : Int} (h : l.int? = some n) :
    Json.IsInt64 n := by
  simp only [Literal.int?] at h
  split at h
  · cases h
  split at h
  · -- a negative number is kept down to the least signed one, but not a zero
    split at h
    · cases h
    · rename_i hlarge
      cases h
      constructor <;> omega
  · -- any other up to the greatest unsigned one
    split at h
    · rename_i hsmall
      cases h
      have hsize : UInt64.size = 2 ^ 64 := rfl
      constructor <;> omega
    · cases h

variable {S : Type} [Scalar S] [Numeral S]

omit [Scalar S] in
/-- The literal that a number is written as. -/
def Number.literal : Number S → Literal
  | .int n => ⟨⟨decide (n < 0), n.natAbs, 0⟩, true⟩
  | .real x => ((Json.literal? (Numeral.dataText x).toList).map Prod.fst).getD ⟨⟨false, 0, 0⟩, true⟩

/-! ## What is read of what was written -/

omit [Scalar S] in
/-- What a reader makes of the text of a scalar. -/
def Numeral.reread (x : S) : S := (Numeral.ofDecimal? (Number.real x).literal.decimal).getD x

omit [Scalar S] in
/-- What the digits denote is what is read of them. -/
theorem Numeral.reread_eq_of_literal? {x y : S} {l : Literal}
    (hl : Json.literal? (Numeral.dataText x).toList = some (l, []))
    (hy : Numeral.ofDecimal? l.decimal = some y) : Numeral.reread x = y := by
  rw [Numeral.reread, Number.literal, hl]
  show (Numeral.ofDecimal? l.decimal).getD x = y
  rw [hy, Option.getD_some]

omit [Scalar S] in
/-- What a reader makes of the text of a number. Integers are read as they are. -/
def Number.reread : Number S → Number S
  | .int n => .int n
  | .real x => .real (Numeral.reread x)

/-- Scalars that are read from their texts exactly. -/
class ExactNumeral (S : Type) [Scalar S] [Numeral S] : Prop extends LawfulNumeral S where
  reread_eq : ∀ {x : S}, Scalar.isFinite x = true → Numeral.reread x = x

/-- Floats are not always: of the digits of this one a reader makes the next. -/
example : (Numeral.reread (14.399999999999999 : Float)).toBits = (14.4 : Float).toBits := by
  decide +kernel

/-- An integer of 64 bits or a finite scalar, which is what a reader yields. -/
def Number.InRange : Number S → Prop
  | .int n => Json.IsInt64 n
  | .real x => Scalar.isFinite x = true

theorem Number.reread_eq [ExactNumeral S] {n : Number S} (h : n.InRange) : n.reread = n := by
  cases n with
  | int n => rfl
  | real x => exact congrArg Number.real (ExactNumeral.reread_eq h)

omit [Scalar S] in
theorem Number.int?_literal {n : Int} (h : Json.IsInt64 n) :
    (Number.int n : Number S).literal.int? = some n := by
  obtain ⟨hlow, hhigh⟩ := h
  have hsize : UInt64.size = 2 ^ 64 := rfl
  rcases Int.lt_or_le n 0 with hn | hn
  · have hfits : ¬ (n.natAbs = 0 ∨ 0x8000000000000000 < n.natAbs) := by omega
    have habs : -(n.natAbs : Int) = n := by omega
    rw [Number.literal, decide_eq_true hn, Literal.int?, if_neg (not_not_intro rfl), if_pos rfl,
      if_neg hfits, habs]
  · have hfits : n.natAbs < UInt64.size := by omega
    have habs : (n.natAbs : Int) = n := by omega
    rw [Number.literal, decide_eq_false (Int.not_lt.mpr hn), Literal.int?,
      if_neg (not_not_intro rfl), if_neg Bool.false_ne_true, if_pos hfits, habs]

variable [LawfulNumeral S]

/-- A number is written as its literal. -/
theorem Number.literal?_numberText {n : Number S} (h : n.InRange) :
    Json.literal? (Json.numberText n) = some (n.literal, []) := by
  cases n with
  | int n => exact Json.literal?_intText n
  | real x =>
    obtain ⟨l, y, hl, -⟩ := LawfulNumeral.literal?_dataText x h
    rw [Json.numberText, Number.literal, hl]
    rfl

/-- From its literal a number is read. -/
theorem Number.number?_literal {n : Number S} (h : n.InRange) :
    n.literal.number? = some n.reread := by
  cases n with
  | int n => rw [Literal.number?, Number.int?_literal h, Number.reread]
  | real x =>
    obtain ⟨l, y, hl, hwhole, hdenotes⟩ := LawfulNumeral.literal?_dataText x h
    have hliteral : (Number.real x).literal = l := by rw [Number.literal, hl]; rfl
    have hint : l.int? = none := by simp [Literal.int?, hwhole]
    rw [hliteral, Literal.number?, hint, hdenotes, Number.reread,
      Numeral.reread_eq_of_literal? hl hdenotes]
    rfl

theorem Number.inRange_of_number? {l : Literal} {n : Number S} (h : l.number? = some n) :
    n.InRange := by
  rw [Literal.number?] at h
  split at h
  · rename_i m hint
    cases h
    exact Literal.isInt64_of_int? hint
  · obtain ⟨x, hx, rfl⟩ := Option.map_eq_some_iff.mp h
    exact LawfulNumeral.isFinite_of_ofDecimal? hx

end Whiteboard
