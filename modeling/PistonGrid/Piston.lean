import PistonGrid.Heading
import PistonGrid.Register

/-!
# Pistons

A piston is a cursor on the plane: a position modulo `capacity` in both coordinates, a heading, eight
registers with their hints, a priority, an ended mark and the number of instructions it has executed.
The operations below are all that an instruction may do to the piston that executes it.

Identities and the number of executed instructions stand for 64-bit counters that do not overflow.
-/

set_option autoImplicit false

namespace PistonGrid

/-- An execution cursor. -/
structure Piston where
  id : Nat
  x : Nat
  y : Nat
  heading : Heading
  registers : Vector Nat 8 := Vector.replicate 8 0
  options : Vector RegisterOptions 8 := Vector.replicate 8 RegisterOptions.none
  priority : Int := 0
  ended : Bool := false
  executed : Nat := 0
deriving DecidableEq, Repr

namespace Piston

/-- A new piston; its position is reduced modulo `capacity`. -/
def spawn (id : Nat) (x y : Int) (heading : Heading) : Piston :=
  { id, x := wrap x, y := wrap y, heading }

/-- The contents of a register. -/
def register (p : Piston) (r : Register) : Nat := p.registers.get r

/-- Advance `n` cells along the heading, backwards if `n` is negative. -/
def moveBy (p : Piston) (n : Int) : Piston :=
  { p with
    x := wrap (p.x + p.heading.delta.1 * (n % capacity))
    y := wrap (p.y + p.heading.delta.2 * (n % capacity)) }

/-- Change the heading by a turn. -/
def turn (p : Piston) (t : Turn) : Piston := { p with heading := p.heading.turn t }

/-- Set the heading. -/
def face (p : Piston) (h : Heading) : Piston := { p with heading := h }

/-- Set the position, reduced modulo `capacity`. -/
def goTo (p : Piston) (x y : Int) : Piston := { p with x := wrap x, y := wrap y }

/-- Store a value, reduced modulo `capacity`, with its hint. -/
def setRegister (p : Piston) (r : Register) (value : Int) (o : RegisterOptions) : Piston :=
  { p with registers := p.registers.set r.val (wrap value) r.isLt
           options := p.options.set r.val o r.isLt }

/-- Mark the piston as ended; it leaves the list when the cycle closes. -/
def retire (p : Piston) : Piston := { p with ended := true }

/-- An active copy under a new identity that has executed nothing yet. -/
def copyAs (p : Piston) (id : Nat) : Piston := { p with id, ended := false, executed := 0 }

/-- The copy that a fork sends off: turned, and one cell ahead of its parent. -/
def forked (p : Piston) (id : Nat) (t : Turn) : Piston := ((p.copyAs id).turn t).moveBy 1

/-- One line about a piston. -/
def text (p : Piston) : String :=
  "Piston#" ++ Numeral.decimal p.id ++ " (" ++ Numeral.decimal p.x ++ ", " ++ Numeral.decimal p.y
    ++ ") " ++ p.heading.name ++ " p=" ++ Numeral.signed p.priority
    ++ (if p.ended then " ended" else "")

end Piston

end PistonGrid
