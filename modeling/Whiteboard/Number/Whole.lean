/-!
# Whiteboard — whole numbers as users write them

A whole number without a sign or with a plus sign, up to 2³² - 1. A character that
is no digit is noticed before the number it follows is found too large.
-/

namespace Whiteboard

/-- Why a text is not a whole number. -/
inductive WholeError where
  | noDigits
  | invalidDigit
  | tooLarge
  deriving DecidableEq, Repr

def WholeError.message : WholeError → String
  | .noDigits => "cannot parse integer from empty string"
  | .invalidDigit => "invalid digit found in string"
  | .tooLarge => "number too large to fit in target type"

namespace Whole

/-- The value of a number that begins with `n` and goes on with these digits. -/
def extend (n : Nat) : List Char → Except WholeError Nat
  | [] => .ok n
  | c :: cs =>
    if ¬ c.isDigit then .error .invalidDigit
    else
      let next := 10 * n + (c.toNat - '0'.toNat)
      if next < UInt32.size then extend next cs else .error .tooLarge

/-- The number in a list of characters. -/
def read : List Char → Except WholeError Nat
  | [] => .error .noDigits
  | ['+'] => .error .invalidDigit
  | '+' :: digits => extend 0 digits
  | digits => extend 0 digits

end Whole

/-- A whole number of 32 bits. -/
def readUInt32 (s : String) : Except WholeError UInt32 := (Whole.read s.toList).map UInt32.ofNat

end Whiteboard
