import LiveCheck.Text.Basic

/-!
# Blanks

A blank is a character of white space: the tab, the line breaks and page breaks, the four
information separators, and the spaces of every script. Stripping a text removes the blanks at
its two ends.
-/

namespace LiveCheck

/-- A character of white space. -/
def isBlank (c : Char) : Bool :=
  let n := c.toNat
  (0x09 ≤ n && n ≤ 0x0D) || (0x1C ≤ n && n ≤ 0x20) || n == 0x85 || n == 0xA0 || n == 0x1680 ||
    (0x2000 ≤ n && n ≤ 0x200A) || n == 0x2028 || n == 0x2029 || n == 0x202F || n == 0x205F ||
    n == 0x3000

namespace Text

/-- The text without the blanks at its front. -/
def stripLeft (text : Text) : Text := text.dropWhile isBlank

/-- The text without the blanks at its end. -/
def stripRight (text : Text) : Text := (text.reverse.dropWhile isBlank).reverse

/-- The text without the blanks at its two ends. -/
def strip (text : Text) : Text := text.stripLeft.stripRight

end Text

end LiveCheck
