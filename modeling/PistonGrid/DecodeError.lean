import PistonGrid.Word

/-!
# Words that mean nothing

The two ways in which a word can fail to name an instruction, and what is said about each.
-/

set_option autoImplicit false

namespace PistonGrid

/-- Why a word names no instruction. -/
inductive DecodeError where
  /-- No family, or a plain family without an instruction, at the control code. -/
  | unknownControlCode (code : Nat) (word : Word)
  /-- A meta family that has no instruction for the meta command. -/
  | unknownMetaCommand (code command : Nat) (word : Word)
deriving DecidableEq, Repr

namespace DecodeError

/-- The message of a decode error. -/
def message : DecodeError → String
  | .unknownControlCode code word =>
    "Unknown control code 0x" ++ Numeral.hex code ++ " in word " ++ word.text
  | .unknownMetaCommand code command word =>
    "Unknown meta command " ++ Numeral.decimal command ++ " for control code 0x" ++ Numeral.hex code
      ++ " in word " ++ word.text

/-- A decode error with its fields by name, as reports list them. -/
def describe : DecodeError → String
  | .unknownControlCode code word =>
    "UnknownControlCode \x7b control_code: " ++ Numeral.decimal code ++ ", word: "
      ++ Numeral.decimal word.bits ++ " \x7d"
  | .unknownMetaCommand code command word =>
    "UnknownMetaCommand \x7b control_code: " ++ Numeral.decimal code ++ ", meta_command: "
      ++ Numeral.decimal command ++ ", word: " ++ Numeral.decimal word.bits ++ " \x7d"

end DecodeError

end PistonGrid
