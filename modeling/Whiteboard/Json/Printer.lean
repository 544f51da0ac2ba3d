import Whiteboard.Json.Value
import Whiteboard.Number.Numeral

/-!
# Whiteboard — writing JSON

One writer serves two layouts:

* `Layout.compact` — no space at all;
* `Layout.pretty` — an item a line, two spaces a level, a space after a colon.

A string escapes the quote, the backslash and the control characters below
U+0020, and nothing else.
-/

namespace Whiteboard.Json

/-! ## Strings -/

/-- The character of a hexadecimal digit. -/
def hexDigit (n : Nat) : Char := Nat.digitChar n

/-- A character as it stands in a string. -/
def escaped (c : Char) : List Char :=
  if c = '"' then ['\\', '"']
  else if c = '\\' then ['\\', '\\']
  else if c = '\x08' then ['\\', 'b']
  else if c = '\t' then ['\\', 't']
  else if c = '\n' then ['\\', 'n']
  else if c = '\x0c' then ['\\', 'f']
  else if c = '\r' then ['\\', 'r']
  else if c.toNat < 0x20 then
    ['\\', 'u', '0', '0', hexDigit (c.toNat / 16), hexDigit (c.toNat % 16)]
  else [c]

/-- A string between quotes. -/
def quote (s : String) : List Char := '"' :: (s.toList.flatMap escaped ++ ['"'])

/-! ## Numbers -/

def intText (n : Int) : List Char :=
  if n < 0 then '-' :: Decimal.digits n.natAbs else Decimal.digits n.natAbs

variable {S : Type} [Numeral S]

def numberText : Number S → List Char
  | .int n => intText n
  | .real x => (Numeral.dataText x).toList

/-! ## Values -/

/-- The white space that a writer puts between tokens. -/
structure Layout where
  /-- Before an item or a closing bracket at a level. -/
  newline : Nat → List Char
  /-- After a colon. -/
  gap : List Char

def Layout.compact : Layout := ⟨fun _ => [], []⟩

def Layout.pretty : Layout := ⟨fun level => '\n' :: List.replicate (2 * level) ' ', [' ']⟩

mutual

/-- A value at a level of nesting. -/
def write (lay : Layout) (level : Nat) : Json S → List Char
  | .null => ['n', 'u', 'l', 'l']
  | .bool true => ['t', 'r', 'u', 'e']
  | .bool false => ['f', 'a', 'l', 's', 'e']
  | .number n => numberText n
  | .string s => quote s
  | .array [] => ['[', ']']
  | .array (v :: vs) =>
    '[' :: (lay.newline (level + 1) ++ write lay (level + 1) v ++
      writeItems lay (level + 1) vs ++ lay.newline level ++ [']'])
  | .object [] => ['\x7b', '\x7d']
  | .object ((k, v) :: fs) =>
    '\x7b' :: (lay.newline (level + 1) ++ quote k ++ ':' :: (lay.gap ++
      write lay (level + 1) v ++ writeFields lay (level + 1) fs ++ lay.newline level ++ ['\x7d']))

/-- The items after the first. -/
def writeItems (lay : Layout) (level : Nat) : List (Json S) → List Char
  | [] => []
  | v :: vs => ',' :: (lay.newline level ++ write lay level v ++ writeItems lay level vs)

/-- The fields after the first. -/
def writeFields (lay : Layout) (level : Nat) : List (String × Json S) → List Char
  | [] => []
  | (k, v) :: fs =>
    ',' :: (lay.newline level ++ quote k ++ ':' :: (lay.gap ++ write lay level v ++
      writeFields lay level fs))

end

/-- The text of a value without any space. -/
def compact (v : Json S) : String := String.ofList (write .compact 0 v)

/-- The text of a value with an item a line. -/
def pretty (v : Json S) : String := String.ofList (write .pretty 0 v)

end Whiteboard.Json
