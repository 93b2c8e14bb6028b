import PistonGrid.Piston

/-!
# Snapshots

The visible state of a piston, in the widths in which documents store it.
-/

set_option autoImplicit false

namespace PistonGrid

/-- The visible state of one piston. -/
structure Snapshot where
  id : UInt64
  x : UInt32
  y : UInt32
  heading : Heading
  registers : Vector UInt32 8
  priority : Int32
  ended : Bool
deriving DecidableEq, Repr

/-- The snapshot of a piston. -/
def Piston.snapshot (p : Piston) : Snapshot where
  id := .ofNat p.id
  x := .ofNat p.x
  y := .ofNat p.y
  heading := p.heading
  registers := p.registers.map .ofNat
  priority := .ofInt p.priority
  ended := p.ended

end PistonGrid
