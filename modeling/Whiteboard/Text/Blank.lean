/-!
# Whiteboard — blanks

Blank characters are those with the Unicode property White_Space. Names given by
users are trimmed of them and compared without regard to the case of ASCII
letters.
-/

namespace Whiteboard.Text

/-- Unicode White_Space. -/
def isBlank (c : Char) : Bool :=
  let n := c.toNat
  (9 ≤ n && n ≤ 13) || n == 0x20 || n == 0x85 || n == 0xA0 || n == 0x1680 ||
  (0x2000 ≤ n && n ≤ 0x200A) || n == 0x2028 || n == 0x2029 || n == 0x202F ||
  n == 0x205F || n == 0x3000

/-- A list without its leading blanks. -/
def skipBlanks (cs : List Char) : List Char := cs.dropWhile isBlank

theorem length_skipBlanks_le (cs : List Char) : (skipBlanks cs).length ≤ cs.length :=
  (List.dropWhile_suffix isBlank).length_le

/-- A list without the blanks at its ends. -/
def trimmed (cs : List Char) : List Char := (skipBlanks (skipBlanks cs).reverse).reverse

/-- A string without the blanks at its ends. -/
def trim (s : String) : String := String.ofList (trimmed s.toList)

/-- ASCII letters in lower case, all other characters as they are. -/
def lowerAscii (s : String) : String := String.ofList (s.toList.map Char.toLower)

/-- The form in which names given by users are looked up. -/
def folded (s : String) : String := lowerAscii (trim s)

end Whiteboard.Text
