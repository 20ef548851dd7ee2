import LiveCheck.Text.Basic

/-!
# Styled texts

A styled text is put together from pieces, each of which may have a style. Characters that would
disturb a terminal are left out of a piece, and an empty piece leaves no trace.
-/

namespace LiveCheck

/-- A stretch of a text with a style. -/
structure Span where
  /-- Where it starts. -/
  start : Nat
  /-- Just past its end. -/
  stop : Nat
  /-- The name of the style. -/
  style : String
  deriving DecidableEq, Repr

/-- A text with styles. -/
structure StyledText where
  /-- The text. -/
  plain : Text := []
  /-- The styles of its parts, in the order in which these were added. -/
  spans : List Span := []
  deriving DecidableEq, Repr

/-- The bell, the backspace, the two page controls and the carriage return. -/
def disturbsTerminal (c : Char) : Bool :=
  c = '\x07' || c = '\x08' || c = '\x0b' || c = '\x0c' || c = '\r'

namespace StyledText

/-- Adds a piece with a style, or without one. -/
def append (t : StyledText) (piece : Text) (style : Option String := none) : StyledText :=
  if piece.isEmpty then t
  else
    let kept := piece.filter (!disturbsTerminal ·)
    let stop := t.plain.length + kept.length
    { plain := t.plain ++ kept
      spans := t.spans ++ (style.map fun style => ⟨t.plain.length, stop, style⟩).toList }

end StyledText

end LiveCheck
