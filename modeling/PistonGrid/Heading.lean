/-!
# Headings and turns

A piston faces one of four ways; `y` grows downward.

* `Heading.delta` — the unit step of a heading.
* `Heading.turn` — quarter turns and the half turn; turning left and right undo each other.
* `Turn.ofBits` — the turn that two bits of an argument select for a fork.
-/

set_option autoImplicit false

namespace PistonGrid

/-- The way a piston faces. -/
inductive Heading where
  | up
  | right
  | down
  | left
deriving DecidableEq, Repr

/-- A change of heading. -/
inductive Turn where
  | left
  | right
  | reverse
deriving DecidableEq, Repr

namespace Turn

/-- The turn selected by the two low bits of an argument: left, right, and around for the rest. -/
def ofBits (bits : Nat) : Turn :=
  match bits % 4 with
  | 0 => .left
  | 1 => .right
  | _ => .reverse

/-- The name of a turn as reports write it. -/
def name : Turn → String
  | .left => "Left"
  | .right => "Right"
  | .reverse => "Reverse"

end Turn

namespace Heading

/-- Two bits, clockwise from up. -/
def ofBits (bits : Nat) : Heading :=
  match bits % 4 with
  | 0 => .up
  | 1 => .right
  | 2 => .down
  | _ => .left

/-- A quarter turn counter-clockwise. -/
def turnLeft : Heading → Heading
  | .up => .left
  | .left => .down
  | .down => .right
  | .right => .up

/-- A quarter turn clockwise. -/
def turnRight : Heading → Heading
  | .up => .right
  | .right => .down
  | .down => .left
  | .left => .up

/-- A half turn. -/
def reverse : Heading → Heading
  | .up => .down
  | .down => .up
  | .left => .right
  | .right => .left

/-- The heading after a turn. -/
def turn (h : Heading) : Turn → Heading
  | .left => h.turnLeft
  | .right => h.turnRight
  | .reverse => h.reverse

/-- The unit step `(dx, dy)` of a heading. -/
def delta : Heading → Int × Int
  | .up => (0, -1)
  | .right => (1, 0)
  | .down => (0, 1)
  | .left => (-1, 0)

/-- The name of a heading in documents and reports. -/
def name : Heading → String
  | .up => "up"
  | .right => "right"
  | .down => "down"
  | .left => "left"

/-- The heading of a given name. -/
def ofName? (s : String) : Option Heading :=
  if s = "up" then some .up
  else if s = "right" then some .right
  else if s = "down" then some .down
  else if s = "left" then some .left
  else none

theorem turnRight_turnLeft (h : Heading) : h.turnLeft.turnRight = h := by cases h <;> rfl

theorem turnLeft_turnRight (h : Heading) : h.turnRight.turnLeft = h := by cases h <;> rfl

theorem turnLeft_turnLeft (h : Heading) : h.turnLeft.turnLeft = h.reverse := by cases h <;> rfl

theorem reverse_reverse (h : Heading) : h.reverse.reverse = h := by cases h <;> rfl

theorem delta_reverse (h : Heading) : h.reverse.delta = (-h.delta.1, -h.delta.2) := by
  cases h <;> rfl

theorem ofName?_name (h : Heading) : ofName? h.name = some h := by cases h <;> decide

end Heading

end PistonGrid
