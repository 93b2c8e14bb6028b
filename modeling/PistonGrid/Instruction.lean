import PistonGrid.Args
import PistonGrid.Script

/-!
# Instructions

An instruction answers to a key (a control code and, in a meta family, a meta command), declares the
family whose layout it reads, and has a script for every argument that layout can deliver. The glyph,
the mnemonic and the description only serve reports and reference pages.
-/

set_option autoImplicit false

namespace PistonGrid

/-- What an instruction is looked up by. -/
structure Key where
  code : Nat
  command : Option Nat
deriving DecidableEq, Repr

namespace Key

/-- The place of a key among those of its control code; the key without a command comes first. -/
def slot (k : Key) : Nat :=
  match k.command with
  | none => 0
  | some command => command + 1

/-- Keys are ordered by control code, then by slot. -/
def Before (a b : Key) : Prop := a.code < b.code ∨ (a.code = b.code ∧ a.slot < b.slot)

instance (a b : Key) : Decidable (a.Before b) := inferInstanceAs (Decidable (_ ∨ _))

/-- Control codes have four bits and meta commands three. -/
def inRange (k : Key) : Bool :=
  k.code < 16 && (match k.command with
    | none => true
    | some command => command < 8)

/-- A key as messages write it: the control code, and the meta command behind a stroke. -/
def text (k : Key) : String :=
  match k.command with
  | none => "0x" ++ Numeral.hex k.code
  | some command => "0x" ++ Numeral.hex k.code ++ "/" ++ Numeral.decimal command

end Key

/-- One instruction of a registry. -/
structure Instruction where
  code : Nat
  command : Option Nat := none
  family : Family := .plain
  glyph : Char
  mnemonic : String
  description : String
  script : Args → Script

namespace Instruction

/-- The key an instruction answers to. -/
def key (i : Instruction) : Key := ⟨i.code, i.command⟩

/-- One line about an instruction. -/
def describe (i : Instruction) : String :=
  "Handler(" ++ i.key.text ++ " " ++ i.mnemonic ++ " '" ++ i.glyph.toString ++ "')"

end Instruction

end PistonGrid
