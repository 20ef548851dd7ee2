/-!
# Phases of a check

A check starts idle and goes through spawning, running and parsing to its report. From each of the
first three phases it may also end without diagnostics, or overtaken by a newer check; from parsing
it may still end without diagnostics. The last three phases are final.
-/

namespace LiveCheck

/-- How far a check has come. -/
inductive Phase
  | idle
  | spawning
  | running
  | parsing
  | reported
  | reportedEmpty
  | superseded
  deriving DecidableEq, Repr

namespace Phase

/-- All phases. -/
def all : List Phase := [idle, spawning, running, parsing, reported, reportedEmpty, superseded]

/-- The name of a phase. -/
def name : Phase → String
  | idle => "idle"
  | spawning => "spawning"
  | running => "running"
  | parsing => "parsing"
  | reported => "reported"
  | reportedEmpty => "reported-empty"
  | superseded => "superseded"

/-- The phase with a name. -/
def ofName? (name : String) : Option Phase := all.find? fun p => p.name = name

/-- The phases that may follow a phase. -/
def successors : Phase → List Phase
  | idle => [spawning, reportedEmpty, superseded]
  | spawning => [running, reportedEmpty, superseded]
  | running => [parsing, reportedEmpty, superseded]
  | parsing => [reported, reportedEmpty]
  | _ => []

/-- Is the check over? -/
def isFinal (p : Phase) : Bool := p = reported || p = reportedEmpty || p = superseded

end Phase

end LiveCheck
