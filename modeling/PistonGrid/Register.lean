import PistonGrid.Numeral

/-!
# Registers

Every piston has eight registers; each carries a two-bit option hint beside its contents.

* `Register`, `RegisterOptions` — indices below eight and hints below four.
* `RegisterTag`, `OptionsTag` — the same two as bare bytes, the form in which documents store them.
  A document may hold a byte outside the register file, so a tag is wider than what it names.
-/

set_option autoImplicit false

namespace PistonGrid

/-- One of the eight registers of a piston. -/
abbrev Register := Fin 8

/-- The hint stored beside a register's contents. The type carries the bound: a hint is made from the two
low bits of a field, and only the bare byte of a document, an `OptionsTag`, can be wider. -/
abbrev RegisterOptions := Fin 4

namespace Register

/-- The register named by the three low bits of a field. -/
def ofBits (bits : Nat) : Register := ⟨bits % 8, Nat.mod_lt _ (by decide)⟩

/-- The register of a given number, if there is one. -/
def ofNat? (n : Nat) : Option Register := if h : n < 8 then some ⟨n, h⟩ else none

/-- The name of a register, such as `R3`. -/
def label (r : Register) : String := "R" ++ Numeral.decimal r.val

end Register

namespace RegisterOptions

/-- The hint held by the two low bits of a field. -/
def ofBits (bits : Nat) : RegisterOptions := ⟨bits % 4, Nat.mod_lt _ (by decide)⟩

/-- No hint. -/
def none : RegisterOptions := 0

/-- Marks a register that holds a coordinate. -/
def position : RegisterOptions := 1

end RegisterOptions

/-- A register number as a document stores it. -/
structure RegisterTag where
  byte : UInt8
deriving DecidableEq, Repr

/-- A register hint as a document stores it. -/
structure OptionsTag where
  byte : UInt8
deriving DecidableEq, Repr

/-- The name that a stored register number stands for. -/
def RegisterTag.label (t : RegisterTag) : String := "R" ++ Numeral.decimal t.byte.toNat

/-- The stored form of a register. -/
def Register.tag (r : Register) : RegisterTag := ⟨UInt8.ofNat r.val⟩

/-- The stored form of a hint. -/
def RegisterOptions.tag (o : RegisterOptions) : OptionsTag := ⟨UInt8.ofNat o.val⟩

end PistonGrid
