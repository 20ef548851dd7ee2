import LiveCheck.Viewer.Basic

/-!
# Keys

The keys of the viewer, and what it shows on a plain terminal: its rows, the peek panel and the
status bar.
-/

namespace LiveCheck

/-- What a key is for. -/
inductive Key
  | quit
  | recheck
  | nextError
  | previousError
  | up
  | down
  deriving DecidableEq, Repr

/-- The key of a character. -/
def Key.ofChar? : Char → Option Key
  | 'q' => some quit
  | 'r' => some recheck
  | 'n' => some nextError
  | 'p' => some previousError
  | 'k' => some up
  | 'j' => some down
  | _ => none

namespace Viewer

/-- What the viewer does when a key is pressed. -/
def press (v : Viewer) (behaviour : Behaviour) : Key → Stepped
  | .quit => v.unmount
  | .recheck => v.recheck behaviour
  | .nextError => v.nextError
  | .previousError => v.previousError
  | .up => v.cursorUp
  | .down => v.cursorDown

/-- What is shown on a plain terminal; an arrow points at the row of the cursor. -/
def screen (v : Viewer) : List Text :=
  let row (r : Row) : Text := (if r.hasCursor then ['>', ' '] else "  ".toList) ++ r.text.plain
  v.title.toList :: v.rows.map row ++ (v.peek.map (·.plain)).toList ++ v.status.toList

end Viewer

end LiveCheck
