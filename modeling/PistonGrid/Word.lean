import PistonGrid.Register

/-!
# Instruction words

A word has 24 bits. Its top four bits are the control code; how the other twenty are divided depends
on the family of that control code:

* plain: twenty bits of payload;
* register meta: three bits of meta command, three of register, two of options, twelve of argument;
* generic meta: three bits of meta command, seventeen of argument.

Every field can be read from every word (`controlCode`, `payload`, `metaCommand`, …); `plain`,
`registerMeta` and `genericMeta` build words, reducing each field to its width.
-/

set_option autoImplicit false

namespace PistonGrid

/-- An instruction word. -/
structure Word where
  bits : Nat
  bits_lt : bits < 16777216
deriving DecidableEq, Repr

namespace Word

/-- The low 24 bits of a number. -/
def ofNat (n : Nat) : Word := ⟨n % 16777216, Nat.mod_lt _ (by decide)⟩

/-- The word of a red, a green and a blue byte, red highest. -/
def ofRgb (red green blue : Nat) : Word :=
  ofNat (red % 256 * 65536 + green % 256 * 256 + blue % 256)

/-- The word that fills an empty cell. -/
def blank : Word := ofNat 0

instance : Inhabited Word := ⟨blank⟩

/-- Bits 23 to 20. -/
def controlCode (w : Word) : Nat := w.bits / 1048576

/-- Bits 19 to 0. -/
def payload (w : Word) : Nat := w.bits % 1048576

/-- Bits 19 to 17. -/
def metaCommand (w : Word) : Nat := w.bits / 131072 % 8

/-- Bits 16 to 14. -/
def register (w : Word) : Register := Register.ofBits (w.bits / 16384)

/-- Bits 13 to 12. -/
def options (w : Word) : RegisterOptions := RegisterOptions.ofBits (w.bits / 4096)

/-- Bits 11 to 0. -/
def shortArgument (w : Word) : Nat := w.bits % 4096

/-- Bits 16 to 0. -/
def longArgument (w : Word) : Nat := w.bits % 131072

/-- A word of a plain family. -/
def plain (code payload : Nat) : Word := ofNat (code % 16 * 1048576 + payload % 1048576)

/-- A word of a register meta family. -/
def registerMeta (code command : Nat) (r : Register) (o : RegisterOptions) (argument : Nat) : Word :=
  ofNat (code % 16 * 1048576 + command % 8 * 131072 + r.val * 16384 + o.val * 4096 + argument % 4096)

/-- A word of a generic meta family. -/
def genericMeta (code command argument : Nat) : Word :=
  ofNat (code % 16 * 1048576 + command % 8 * 131072 + argument % 131072)

/-- A word in hexadecimal, six digits wide. -/
def text (w : Word) : String := "0x" ++ Numeral.hexPadded 6 w.bits

theorem controlCode_lt (w : Word) : w.controlCode < 16 := by
  have := w.bits_lt
  unfold controlCode
  omega

theorem metaCommand_lt (w : Word) : w.metaCommand < 8 := Nat.mod_lt _ (by decide)

end Word

end PistonGrid
