import LiveCheck.Compiler.Command

/-!
# Faults of a check

What can go wrong in a check: the compiler does not start, the disk refuses a file, or the listing
holds a numeral that is too long. Such a fault ends the check without diagnostics.
-/

namespace LiveCheck

/-- The compiler could not be started. -/
structure SpawnFault where
  /-- The first word of the command. -/
  program : Json
  /-- What the system said. -/
  reason : Text

/-- What is said of a compiler that could not be started. -/
def SpawnFault.message (f : SpawnFault) : String :=
  s!"Could not start '{f.program.plain}': {f.reason}"

/-- What went wrong in a check. -/
inductive CheckFault
  /-- The compiler could not be started. -/
  | spawn (fault : SpawnFault)
  /-- The disk refused a file. -/
  | disk (fault : DiskFault)
  /-- The listing holds a numeral that is too long. -/
  | overlong (numeral : OverlongNumeral)

/-- What is said of a check that went wrong. -/
def CheckFault.message : CheckFault → String
  | spawn fault => fault.message
  | disk fault => fault.message
  | overlong numeral => numeral.message

end LiveCheck
