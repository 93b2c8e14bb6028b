import PistonGrid.Registry

/-!
# Indexed registries

A registry as it grows: instructions stay where they were put, an index leads from each key to a place
among them, and families are kept by control code. Listings are sorted when they are asked for. The
ordered lists of `Registry` are the reference for these tables.

* `IndexedRegistry.addFamily`, `IndexedRegistry.add` — registration in place: the checks come first, and
  what is stored is stored after them.
* `IndexedRegistry.family?`, `IndexedRegistry.instruction?`, `IndexedRegistry.decode` — look-up through
  the tables.
* `IndexedRegistry.listFamilies`, `IndexedRegistry.listInstructions` — the sorted listings.
-/

set_option autoImplicit false

namespace PistonGrid

/-- Instructions in order of arrival, the place of each key, and the families, the newest first. -/
structure IndexedRegistry where
  entries : Array Instruction := #[]
  index : List (Key × Nat) := []
  families : List (Nat × Family) := []

namespace IndexedRegistry

/-- The tables without entries. -/
def empty : IndexedRegistry := {}

/-- The family of a control code. -/
def family? (t : IndexedRegistry) (code : Nat) : Option Family := t.families.lookup code

/-- The instruction at the place to which the index leads from a key. -/
def instruction? (t : IndexedRegistry) (k : Key) : Option Instruction :=
  (t.index.lookup k).bind fun place => t.entries[place]?

/-- Number of instructions. -/
def size (t : IndexedRegistry) : Nat := t.entries.size

/-- The mnemonic of the instruction at a place. -/
def mnemonicAt (t : IndexedRegistry) (place : Nat) : String :=
  (t.entries[place]?).elim "" Instruction.mnemonic

/-- Declare how the words of a control code are divided. -/
def addFamily (code : Nat) (family : Family) : EStateM RegistrationError IndexedRegistry Unit := do
  unless code < 16 do throw (.outOfRange ⟨code, none⟩)
  if ((← get).family? code).isSome then throw (.duplicateFamily code)
  modify fun t => { t with families := (code, family) :: t.families }

/-- Register an instruction under its key: the index gets the place behind the last one, and then the
instruction is put there. -/
def add (i : Instruction) : EStateM RegistrationError IndexedRegistry Unit := do
  unless i.key.inRange do throw (.outOfRange i.key)
  let t ← get
  let some family := t.family? i.code | throw (.unknownFamily i.code)
  unless Registry.fits i family do throw (.familyMismatch i.code i.mnemonic)
  if let some place := t.index.lookup i.key then
    throw (.duplicateInstruction i.key (t.mnemonicAt place) i.mnemonic)
  modify fun t => { t with index := (i.key, t.entries.size) :: t.index }
  modify fun t => { t with entries := t.entries.push i }

/-- The instruction and arguments that a word stands for. -/
def decode (t : IndexedRegistry) (w : Word) : Except DecodeError Decoded :=
  Registry.decodeBy t.family? t.instruction? w

/-- Families in ascending order of control code. -/
def listFamilies (t : IndexedRegistry) : List (Nat × Family) :=
  t.families.mergeSort fun p q => !decide (q.1 < p.1)

/-- Instructions in ascending order of key. -/
def listInstructions (t : IndexedRegistry) : List Instruction :=
  t.entries.toList.mergeSort fun i j => !decide (j.key.Before i.key)

end IndexedRegistry

end PistonGrid
