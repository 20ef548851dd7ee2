/-!
# The machine

How far some operations come depends on the machine that the program runs on and not on what they
work on: calls are nested only so deep, and a row is only so long. These bounds are parameters of
the program.
-/

namespace LiveCheck

/-- What a machine has room for. -/
structure Machine where
  /-- How deep the containers of a JSON value may be nested. -/
  nesting : Nat
  /-- How many directories may be missing above one that is to be made. -/
  levels : Nat
  /-- The length from which on rows are too long. -/
  width : Int
  deriving DecidableEq, Repr

/-- A machine with 64 bits and a call stack of the usual depth. -/
def Machine.usual : Machine := { nesting := 985, levels := 985, width := 0x100000000 }

end LiveCheck
