import PistonGrid.DecodeError
import PistonGrid.Instruction
import PistonGrid.Quoted

/-!
# Registries

A registry gives each control code at most one family and each key at most one instruction. Families
are kept in ascending order of control code and instructions in ascending order of key, so that the
order of registration leaves no trace.

* `Registry.addFamily`, `Registry.add` — registration; a refused registration changes nothing.
* `Registry.family?`, `Registry.instruction?` — look-up.
* `Registry.decode` — the instruction and the arguments that a word stands for.
-/

set_option autoImplicit false

namespace PistonGrid

/-- Why a registration was refused. -/
inductive RegistrationError where
  | duplicateFamily (code : Nat)
  | duplicateInstruction (key : Key) (existing new : String)
  | unknownFamily (code : Nat)
  | familyMismatch (code : Nat) (mnemonic : String)
  | outOfRange (key : Key)
deriving DecidableEq, Repr

namespace RegistrationError

/-- Two registrations claimed the same place. -/
def isConflict : RegistrationError → Bool
  | .duplicateFamily _ => true
  | .duplicateInstruction _ _ _ => true
  | _ => false

/-- A meta command, or its absence, as the range message writes it. -/
def commandText : Option Nat → String
  | none => "None"
  | some command => "Some(" ++ Numeral.decimal command ++ ")"

/-- The message of a refused registration. -/
def message : RegistrationError → String
  | .duplicateFamily code => "Family 0x" ++ Numeral.hex code ++ " already registered"
  | .duplicateInstruction key existing new =>
    "Handler '" ++ new ++ "' conflicts with '" ++ existing ++ "' at " ++ key.text
  | .unknownFamily code => "No family registered for control code 0x" ++ Numeral.hex code
  | .familyMismatch code mnemonic =>
    "Handler '" ++ mnemonic ++ "' does not match the family of 0x" ++ Numeral.hex code
  | .outOfRange key =>
    "Key 0x" ++ Numeral.hex key.code ++ "/" ++ commandText key.command ++ " is out of range"

end RegistrationError

/-- Families by control code and instructions by key, both ascending. -/
structure Registry where
  families : List (Nat × Family) := []
  instructions : List Instruction := []

/-- A word resolved against a registry. -/
structure Decoded where
  word : Word
  instruction : Instruction
  args : Args

/-- A resolved word with its fields by name, as reports list them. -/
def Decoded.describe (d : Decoded) : String :=
  "DecodedCall \x7b word: InstructionWord(" ++ Numeral.decimal d.word.bits ++ "), handler: "
    ++ Quoted.quote d.instruction.mnemonic ++ ", args: " ++ d.args.describe ++ " \x7d"

namespace Registry

/-- The registry without families. -/
def empty : Registry := {}

/-- The family of a control code. -/
def family? (r : Registry) (code : Nat) : Option Family := r.families.lookup code

/-- The instruction registered under a key. -/
def instruction? (r : Registry) (k : Key) : Option Instruction :=
  r.instructions.find? (fun i => i.key == k)

/-- Number of instructions. -/
def size (r : Registry) : Nat := r.instructions.length

/-- No instruction is registered. -/
def isEmpty (r : Registry) : Bool := r.instructions.isEmpty

/-- Put a family in its place. -/
def insertFamily (code : Nat) (family : Family) : List (Nat × Family) → List (Nat × Family)
  | [] => [(code, family)]
  | (c, f) :: rest =>
    if code < c then (code, family) :: (c, f) :: rest
    else (c, f) :: insertFamily code family rest

/-- Put an instruction in its place. -/
def insertInstruction (i : Instruction) : List Instruction → List Instruction
  | [] => [i]
  | j :: rest =>
    if i.key.Before j.key then i :: j :: rest
    else j :: insertInstruction i rest

/-- Declare how the words of a control code are divided. -/
def addFamily (r : Registry) (code : Nat) (family : Family) : Except RegistrationError Registry :=
  if code < 16 then
    match r.family? code with
    | some _ => .error (.duplicateFamily code)
    | none => .ok { r with families := insertFamily code family r.families }
  else .error (.outOfRange ⟨code, none⟩)

/-- An instruction fits a family if it declares it and has a meta command just when it needs one. -/
def fits (i : Instruction) (family : Family) : Bool :=
  i.family == family && i.command.isSome == family.isMeta

/-- Register an instruction under its key. -/
def add (r : Registry) (i : Instruction) : Except RegistrationError Registry :=
  if i.key.inRange then
    match r.family? i.code with
    | none => .error (.unknownFamily i.code)
    | some family =>
      if fits i family then
        match r.instruction? i.key with
        | some existing => .error (.duplicateInstruction i.key existing.mnemonic i.mnemonic)
        | none => .ok { r with instructions := insertInstruction i r.instructions }
      else .error (.familyMismatch i.code i.mnemonic)
  else .error (.outOfRange i.key)

/-- Register families, then instructions, up to the first refusal. -/
def extend (r : Registry) (families : List (Nat × Family)) (instructions : List Instruction) :
    Except RegistrationError Registry := do
  let r ← families.foldlM (fun r (code, family) => r.addFamily code family) r
  instructions.foldlM add r

/-- The instruction and arguments that a word stands for, by the look-ups of a registry. -/
def decodeBy (family? : Nat → Option Family) (instruction? : Key → Option Instruction) (w : Word) :
    Except DecodeError Decoded :=
  match family? w.controlCode with
  | none => .error (.unknownControlCode w.controlCode w)
  | some family =>
    match instruction? ⟨w.controlCode, family.commandOf w⟩ with
    | some instruction => .ok ⟨w, instruction, .extract w family⟩
    | none =>
      if family.isMeta then .error (.unknownMetaCommand w.controlCode w.metaCommand w)
      else .error (.unknownControlCode w.controlCode w)

/-- The instruction and arguments that a word stands for. -/
def decode (r : Registry) (w : Word) : Except DecodeError Decoded :=
  decodeBy r.family? r.instruction? w

/-- The instructions of one control code, in order of meta command. -/
def members (r : Registry) (code : Nat) : List Instruction :=
  r.instructions.filter (·.code == code)

/-- One line about a registry. -/
def describe (r : Registry) : String :=
  "HandlerRegistry(" ++ Numeral.decimal r.families.length ++ " families, "
    ++ Numeral.decimal r.size ++ " handlers)"

end Registry

end PistonGrid
