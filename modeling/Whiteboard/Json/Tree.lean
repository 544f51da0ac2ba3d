import Whiteboard.Json.Value
import Whiteboard.Number.Numeral

/-!
# Whiteboard — JSON texts as trees

A `Tree` is what the grammar of JSON says about a text and no more: numbers are
kept as they are written, keys may repeat, and a string whose escapes denote no
text (an unpaired surrogate) is kept as such. Whether a number is in range, a
string is a text and the nesting is not too deep is decided where a tree is
turned into a value, so that a part which nobody reads is never judged.
-/

namespace Whiteboard

/-- A number as it is written. -/
structure Literal where
  decimal : Decimal
  /-- Written without a point and without an exponent. -/
  whole : Bool
  deriving DecidableEq, Repr

/-- A text as JSON's grammar sees it. A string is `none` if its escapes denote no
text. -/
inductive Tree where
  | null
  | bool (value : Bool)
  | number (value : Literal)
  | string (value : Option String)
  | array (items : List Tree)
  | object (fields : List (Option String × Tree))
  deriving Repr

/-- The integer that a literal denotes, if it is whole and fits into 64 bits, with
or without a sign. Minus zero is not an integer. -/
def Literal.int? (l : Literal) : Option Int :=
  let n := l.decimal.significand
  if ¬ l.whole then none
  else if l.decimal.negative then
    (if n = 0 ∨ 0x8000000000000000 < n then none else some (-(n : Int)))
  else (if n < UInt64.size then some n else none)

/-- The number that a literal denotes; one that is no integer is a real, unless it
is out of range. -/
def Literal.number? {S : Type} [Numeral S] (l : Literal) : Option (Number S) :=
  match l.int? with
  | some n => some (.int n)
  | none => (Numeral.ofDecimal? l.decimal).map .real

namespace Tree

variable {S : Type} [Numeral S]

/-- The value of a tree that nests at most `room` levels deep, its objects with
their keys in order. -/
def value? : Nat → Tree → Option (Json S)
  | _, .null => some .null
  | _, .bool b => some (.bool b)
  | _, .number l => l.number?.map .number
  | _, .string s => s.map .string
  | 0, .array _ => none
  | room + 1, .array items => (items.mapM (value? room)).map .array
  | 0, .object _ => none
  | room + 1, .object fields =>
    (fields.mapM fun (f : Option String × Tree) => do
      return (← f.1, ← value? room f.2)).map Json.ofFields

/-- How many levels of arrays and objects a reader follows. -/
def nestingLimit : Nat := 127

end Tree

end Whiteboard
