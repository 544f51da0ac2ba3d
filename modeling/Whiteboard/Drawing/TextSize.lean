import Whiteboard.Number.Scalar

/-!
# Whiteboard — the size of a text

A text is measured by counting: every character is as wide as 0.6 times the font
size and every line as high as 1.25 times, whatever the font.
-/

namespace Whiteboard.Drawing

variable {S : Type} [Scalar S]

/-- The lines of a text; a text always has one. -/
def textLines (text : String) : List (List Char) := text.toList.splitOn '\n'

/-- The number of characters in the longest line. -/
def widestLine (text : String) : Nat := (textLines text).foldl (fun w l => max w l.length) 0

/-- Width of a character in units of the font size. -/
def charWidth : S := 0.6

/-- Height of a line in units of the font size. -/
def lineHeight : S := 1.25

/-- Width and height of a text in a font size. -/
def textSize (text : String) (fontSize : S) : S × S :=
  (Scalar.ofNat (widestLine text) * fontSize * charWidth,
    Scalar.ofNat (textLines text).length * fontSize * lineHeight)

end Whiteboard.Drawing
