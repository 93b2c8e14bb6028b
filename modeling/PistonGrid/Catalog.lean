import PistonGrid.Registry

/-!
# The standard catalog

The families and instructions that every engine has unless it is given a registry of its own.

* Plain: `BLANK`, `START`, `DIRECTION`, `FORK`, `END`.
* Memory (`0xB`), channel (`0xC`) and piston (`0xD`) instructions with the register layout.
* Engine (`0xE`) instructions with the generic layout.

`Registry.standard` holds them all; `extend_standard` says that no registration was refused.
-/

set_option autoImplicit false

namespace PistonGrid

namespace Catalog

/-- Move one cell and go on. -/
def advance : Script := .ofActions [.move 1] .proceed

/-- Do something with the register fields and move one cell; another layout only moves. -/
def withRegister (body : Register → RegisterOptions → Nat → Script → Script) : Args → Script
  | .register r o argument => body r o argument advance
  | _ => advance

/-- The turn that the two low bits of an argument select for a piston itself. -/
def redirection (argument : Nat) : Option Turn :=
  match argument % 4 with
  | 0 => none
  | 1 => some .left
  | 2 => some .right
  | _ => some .reverse

/-- Moves on without doing anything. -/
def blank : Instruction where
  code := 0x0
  glyph := '.'
  mnemonic := "BLANK"
  description := "Do nothing and move one cell"
  script _ := advance

/-- Marks a start point; a piston passes over it as over a blank. -/
def start : Instruction where
  code := 0x1
  glyph := 'S'
  mnemonic := "START"
  description := "Start point marker, moves one cell"
  script _ := advance

/-- Turns the piston, then moves. -/
def direction : Instruction where
  code := 0x3
  glyph := 'D'
  mnemonic := "DIRECTION"
  description := "Turn left, right or around, then move one cell"
  script args :=
    match redirection args.argument with
    | none => advance
    | some t => .perform (.turn t) advance

/-- Sends off a turned copy; parent and copy each move one cell. -/
def fork : Instruction where
  code := 0x4
  glyph := 'F'
  mnemonic := "FORK"
  description := "Fork a copy turned left, right or around; both move one cell"
  script args := .perform (.fork (.ofBits args.argument)) advance

/-- Copies a memory cell to a register. -/
def load : Instruction where
  code := 0xB
  command := some 0
  family := .registerMeta
  glyph := 'M'
  mnemonic := "LOAD"
  description := "Read a memory address into a register"
  script := withRegister fun r o address next =>
    .load address fun value => .perform (.setRegister r value o) next

/-- Copies a register to a memory cell. -/
def store : Instruction where
  code := 0xB
  command := some 1
  family := .registerMeta
  glyph := 'M'
  mnemonic := "STORE"
  description := "Write a register to a memory address"
  script := withRegister fun r _ address next =>
    .inspect fun c => .perform (.store address (c.piston.register r)) next

/-- Takes a number from the input. -/
def inNumber : Instruction where
  code := 0xC
  command := some 0
  family := .registerMeta
  glyph := 'I'
  mnemonic := "IN_NUMBER"
  description := "Read leading digits from input into a register (0 if none)"
  script := withRegister fun r o _ next =>
    .grabNumber fun value => .perform (.setRegister r value o) next

/-- Takes a character from the input. -/
def inChar : Instruction where
  code := 0xC
  command := some 1
  family := .registerMeta
  glyph := 'I'
  mnemonic := "IN_CHAR"
  description := "Read one character code from input into a register (0 if exhausted)"
  script := withRegister fun r o _ next =>
    .grabChar fun value => .perform (.setRegister r value o) next

/-- Writes a register in decimal. -/
def outNumber : Instruction where
  code := 0xC
  command := some 2
  family := .registerMeta
  glyph := 'I'
  mnemonic := "OUT_NUMBER"
  description := "Write a register to output as a number"
  script := withRegister fun r _ _ next =>
    .inspect fun c => .perform (.write (.number (c.piston.register r))) next

/-- Writes the character whose code point a register holds. -/
def outChar : Instruction where
  code := 0xC
  command := some 3
  family := .registerMeta
  glyph := 'I'
  mnemonic := "OUT_CHAR"
  description := "Write a register to output as a character"
  script := withRegister fun r _ _ next =>
    .inspect fun c => .perform (.write (.ofChar (charOfCode (c.piston.register r)))) next

/-- Put a coordinate of the piston into the register field and stay in place. -/
def locate (coordinate : Piston → Nat) : Args → Script
  | .register r _ _ =>
    .inspect fun c =>
      .ofActions [.setRegister r (coordinate c.piston % capacity : Nat) RegisterOptions.position]
        .proceed
  | _ => .finish .proceed

/-- Reads the piston's horizontal position. -/
def posX : Instruction where
  code := 0xD
  command := some 4
  family := .registerMeta
  glyph := 'P'
  mnemonic := "POS_X"
  description := "Put this piston's x position into a register"
  script := locate Piston.x

/-- Reads the piston's vertical position. -/
def posY : Instruction where
  code := 0xD
  command := some 5
  family := .registerMeta
  glyph := 'P'
  mnemonic := "POS_Y"
  description := "Put this piston's y position into a register"
  script := locate Piston.y

/-- Changes the piston's priority and stays in place. -/
def priority : Instruction where
  code := 0xD
  command := some 6
  family := .registerMeta
  glyph := 'P'
  mnemonic := "PRIORITY"
  description := "Set this piston's priority and reorder it among the others"
  script args := .ofActions [.setPriority args.argument] .proceed

/-- Stops the engine. -/
def kill : Instruction where
  code := 0xE
  command := some 0
  family := .genericMeta
  glyph := 'E'
  mnemonic := "KILL"
  description := "Stop the engine immediately"
  script _ := .finish .kill

/-- Ends the piston. -/
def stop : Instruction where
  code := 0xF
  glyph := 'X'
  mnemonic := "END"
  description := "End this piston"
  script _ := .finish .retire

/-- The families of the standard catalog. -/
def families : List (Nat × Family) :=
  [(0x0, .plain), (0x1, .plain), (0x3, .plain), (0x4, .plain), (0xB, .registerMeta),
   (0xC, .registerMeta), (0xD, .registerMeta), (0xE, .genericMeta), (0xF, .plain)]

/-- The instructions of the standard catalog. -/
def instructions : List Instruction :=
  [blank, start, direction, fork, load, store, inNumber, inChar, outNumber, outChar, posX, posY,
   priority, kill, stop]

/-- The standard instruction of a given mnemonic. -/
def find? (mnemonic : String) : Option Instruction :=
  instructions.find? (·.mnemonic == mnemonic)

end Catalog

/-- The registry of the standard catalog, which lists its families and instructions in order. -/
def Registry.standard : Registry := ⟨Catalog.families, Catalog.instructions⟩

theorem Registry.extend_standard :
    Registry.empty.extend Catalog.families Catalog.instructions = .ok Registry.standard := rfl

end PistonGrid
