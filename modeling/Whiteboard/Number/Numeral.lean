import Whiteboard.Number.Scalar
import Whiteboard.Number.Shortest

/-!
# Whiteboard — numerals

How scalars are written and read. A `NumeralStyle` lays out a decimal, either in
positional notation or with an exponent; two styles are in use:

* `NumeralStyle.data` — numbers in documents: positional while the leading
  exponent is between -5 and 15, always with a point or an exponent;
* `NumeralStyle.plain` — numbers in messages: always positional, and without a
  point where the number is whole.

`Numeral` is the class of scalars with such texts.
-/

namespace Whiteboard

/-- How a decimal is laid out. -/
structure NumeralStyle where
  /-- Which exponents of the leading digit are written positionally. -/
  positional : Int → Bool
  /-- Whether a whole number in positional notation ends in a point and a zero. -/
  pointZero : Bool
  /-- Which of two equally near shortest decimals is written. -/
  tie : Tie

namespace NumeralStyle

/-- Numbers in documents. -/
def data : NumeralStyle := ⟨fun e => decide (-5 ≤ e ∧ e ≤ 15), true, .toEven⟩

/-- Numbers in messages. -/
def plain : NumeralStyle := ⟨fun _ => true, false, .upward⟩

/-- The digits with a point at its place; `k` is the exponent of the last digit. -/
def positionalText (style : NumeralStyle) (ds : List Char) (k : Int) : List Char :=
  if 0 ≤ k then
    ds ++ List.replicate k.natAbs '0' ++ (if style.pointZero then ['.', '0'] else [])
  else
    let places := k.natAbs
    let padded := List.replicate (places + 1 - ds.length) '0' ++ ds
    let whole := padded.length - places
    padded.take whole ++ '.' :: padded.drop whole

/-- One digit, a point before the others, and a signed exponent. -/
def scientificText (ds : List Char) (leading : Int) : List Char :=
  let mantissa := match ds with
    | d :: e :: rest => d :: '.' :: e :: rest
    | short => short
  mantissa ++ 'e' :: (if leading < 0 then '-' else '+') :: Decimal.digits leading.natAbs

/-- The text of a decimal; zero is written as a whole number of either sign. -/
def text (style : NumeralStyle) (d : Decimal) : String :=
  let ds := Decimal.digits d.significand
  let body :=
    if d.significand = 0 then style.positionalText ds 0
    else if style.positional d.leading then style.positionalText ds d.exponent
    else scientificText ds d.leading
  String.ofList (if d.negative then '-' :: body else body)

end NumeralStyle

/-- Scalars that can be read from decimals and written as text. -/
class Numeral (S : Type) where
  /-- The scalar that is read from a decimal, or `none` where it is out of range. -/
  ofDecimal? : Decimal → Option S
  /-- The text in a document, which stands for finite scalars only. -/
  dataText : S → String
  /-- The text in a message. -/
  plainText : S → String

/-- The text of a float in a style. Infinities and NaN have names, which appear in
no document. -/
def floatText (style : NumeralStyle) (x : Float) : String :=
  match shortest? style.tie x with
  | some d => style.text d
  | none => if x.isNaN then "NaN" else if x < 0.0 then "-inf" else "inf"

instance : Numeral Float where
  ofDecimal? := Decimal.read?
  dataText := floatText .data
  plainText := floatText .plain

end Whiteboard
