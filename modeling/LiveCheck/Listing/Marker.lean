import LiveCheck.Text.Digit
import LiveCheck.Text.Basic

/-!
# Markers

A marker line places error codes under the source line that they belong to. A group of codes is a
dollar sign with a comma-separated list of codes right after it, and all codes of a group share the
place of the dollar sign. The text between groups carries no meaning.

`findMarkers` goes through the line character by character. Nothing has to be skipped after a group
since the codes and commas of a group hold no dollar sign.
-/

namespace LiveCheck

/-- An error code and the column that it is placed at. -/
structure Marker where
  /-- The error code. -/
  code : Text
  /-- The column of the source line. -/
  column : Int
  deriving DecidableEq, Repr

/-- How far a dollar sign stands to the right of the column that it points at. -/
def markerShift : Int := 2

/-- The codes of a list that goes on with the given text, while `code` has been read of the first
    one. A comma belongs to the list only if another code follows it. -/
def codesFrom (code : Text) : Text → List Text
  | [] => [code]
  | c :: rest =>
    if isDecimalDigit c then codesFrom (code ++ [c]) rest
    else if c = ',' && rest.head?.any isDecimalDigit then code :: codesFrom [] rest
    else [code]

/-- The codes of the comma-separated list that the text begins with. -/
def leadingCodes (text : Text) : List Text :=
  if text.head?.any isDecimalDigit then codesFrom [] text else []

/-- The markers of the rest of a line that begins at `offset`. -/
def markersFrom (offset : Nat) : Text → List Marker
  | [] => []
  | c :: rest =>
    (if c = '$' then (leadingCodes rest).map fun code => ⟨code, offset - markerShift⟩ else []) ++
      markersFrom (offset + 1) rest

/-- All markers of a line, from left to right. -/
def findMarkers (line : Text) : List Marker := markersFrom 0 line

end LiveCheck
