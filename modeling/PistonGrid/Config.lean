/-!
# Engine configuration

A name for reports, and a bound on the number of cycles that a run may take.
-/

set_option autoImplicit false

namespace PistonGrid

/-- How an engine is to be run. -/
structure Config where
  name : String := "program"
  maxCycles : Option UInt64 := none
deriving DecidableEq, Repr

namespace Config

/-- The configuration when nothing is said. -/
def standard : Config := {}

/-- The default configuration under a name. -/
def named (name : String) : Config := { name }

/-- The same configuration with a bound on cycles. -/
def withMaxCycles (c : Config) (maxCycles : UInt64) : Config := { c with maxCycles := some maxCycles }

/-- The number of cycles at which a run is given up. Without a configured limit a run need not return
at all; it is then given up where a 64-bit count of cycles ends, and the error `cycleLimit` of that number
stands for a run that goes on. No configured limit is that high. -/
def cycleBound (c : Config) : Nat :=
  match c.maxCycles with
  | some n => n.toNat
  | none => 18446744073709551616

end Config

end PistonGrid
