import LiveCheck.Check.Phase
import LiveCheck.Source.Diagnostic
import LiveCheck.Table
import LiveCheck.Text.Line

/-!
# The state of a viewed source

The viewer knows the lines of its source as they were read last, and the diagnostics that were
reported last; the two need not belong together.
-/

namespace LiveCheck

/-- What the viewer knows of its source. -/
structure SourceState where
  /-- The path of the source. -/
  path : Text := []
  /-- The lines of the source. -/
  lines : List Text := []
  /-- The number of the session that was checked last. -/
  sessionId : Int := 0
  /-- The phase that this session ended in. -/
  phase : Phase := .idle
  /-- The diagnostics that were reported last. -/
  diagnostics : List Diagnostic := []
  /-- What went wrong in the last check. -/
  fault : Text := []
  /-- Was there a report yet? -/
  reported : Bool := false
  deriving DecidableEq, Repr

namespace SourceState

/-- Takes the text of the source. -/
def setSource (s : SourceState) (text : Text) : SourceState := { s with lines := text.lines }

/-- Takes a report. -/
def setReport (s : SourceState) (diagnostics : List Diagnostic) : SourceState :=
  { s with diagnostics, reported := true }

/-- Is there an error among the diagnostics? -/
def hasErrors (s : SourceState) : Bool := s.diagnostics.any (·.severity = errorSeverity)

/-- The diagnostics by line, the lines in the order of their first diagnostic. -/
def errorLines (s : SourceState) : Table Int (List Diagnostic) :=
  s.diagnostics.foldl (fun t d => t.put d.line ((t.get? d.line).getD [] ++ [d])) ∅

/-- Does a line have a diagnostic? -/
def hasDiagnosticOn (s : SourceState) (line : Int) : Bool := s.diagnostics.any (·.line = line)

/-- The diagnostics of a line. -/
def diagnosticsOn (s : SourceState) (line : Int) : List Diagnostic :=
  s.diagnostics.filter (·.line = line)

/-- The text of a line. -/
def line? (s : SourceState) (line : Int) : Option Text :=
  if 0 < line ∧ line ≤ s.lines.length then s.lines[(line - 1).toNat]? else none

end SourceState

end LiveCheck
