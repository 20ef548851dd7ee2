/-!
# Texts

A text is the list of its characters. Columns, offsets and lengths count characters.
-/

namespace LiveCheck

/-- A text is the list of its characters. -/
abbrev Text := List Char

instance : ToString Text := ⟨String.ofList⟩

namespace Text

/-- The texts of a list one after the other, with `separator` between neighbours. -/
def join (separator : Text) (parts : List Text) : Text := (parts.intersperse separator).flatten

/-- Moves a text to the right end of a field of at least `width` characters. -/
def alignRight (width : Nat) (text : Text) : Text :=
  List.replicate (width - text.length) ' ' ++ text

end Text

end LiveCheck
