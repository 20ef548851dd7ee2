import LiveCheck.Number.Numeral

/-!
# The status bar

The status bar shows the file, the status of its check, the number of errors unless it is zero, and
a note.
-/

namespace LiveCheck

/-- What the status bar shows. -/
structure StatusBar where
  /-- The name of the file. -/
  file : Text := []
  /-- The status of the check. -/
  status : Text := "idle".toList
  /-- The number of errors. -/
  errors : Int := 0
  /-- A note. -/
  note : Text := []
  deriving DecidableEq, Repr

namespace StatusBar

/-- The text of the bar. -/
def text (b : StatusBar) : Text :=
  Text.join "  │  ".toList <|
    (if b.file.isEmpty then [] else ["📄 ".toList ++ b.file]) ++ ["● ".toList ++ b.status] ++
    (if b.errors = 0 then [] else ["❌ ".toList ++ decimal b.errors ++ " error(s)".toList]) ++
    (if b.note.isEmpty then [] else [b.note])

end StatusBar

end LiveCheck
