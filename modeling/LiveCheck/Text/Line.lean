import LiveCheck.Text.Basic

/-!
# Lines

A text is read as lines in two ways. `Text.lines` ends a line at every line break, the page and
record separators included, and takes a carriage return with its line feed as one break; a break at
the very end opens no further line. `Text.unifyNewlines` reads the three customary line ends as one
line feed each, which is how the text of a file is read.
-/

namespace LiveCheck

/-- A character that ends a line. -/
def isLineBreak (c : Char) : Bool :=
  let n := c.toNat
  (0x0A ≤ n && n ≤ 0x0D) || (0x1C ≤ n && n ≤ 0x1E) || n == 0x85 || n == 0x2028 || n == 0x2029

namespace Text

/-- The lines of a text, without the breaks that end them. -/
def lines : Text → List Text
  | [] => []
  | '\r' :: '\n' :: rest => [] :: lines rest
  | c :: rest =>
    if isLineBreak c then [] :: lines rest
    else
      match lines rest with
      | [] => [[c]]
      | line :: later => (c :: line) :: later

/-- The text with every line end, of whichever of the three customs, as one line feed. -/
def unifyNewlines : Text → Text
  | [] => []
  | '\r' :: '\n' :: rest => '\n' :: unifyNewlines rest
  | '\r' :: rest => '\n' :: unifyNewlines rest
  | c :: rest => c :: unifyNewlines rest

end Text

end LiveCheck
