import PistonGrid.Word

/-!
# Families and decoded arguments

The family of a control code says how its words are divided. `Args.extract` reads the fields of a word
the way a family divides it; `Args.argument` is the one number that every layout has.
-/

set_option autoImplicit false

namespace PistonGrid

/-- How the words of a control code are divided. -/
inductive Family where
  | plain
  | registerMeta
  | genericMeta
deriving DecidableEq, Repr

namespace Family

/-- Meta families tell their instructions apart by a meta command. -/
def isMeta : Family → Bool
  | .plain => false
  | .registerMeta => true
  | .genericMeta => true

/-- The meta command by which a word of this family is looked up. -/
def commandOf (f : Family) (w : Word) : Option Nat := if f.isMeta then some w.metaCommand else none

/-- The name of a family on reference pages. -/
def title : Family → String
  | .plain => "plain"
  | .registerMeta => "register meta"
  | .genericMeta => "generic meta"

end Family

/-- The fields of a word as its family divides it. -/
inductive Args where
  | plain (payload : Nat)
  | register (register : Register) (options : RegisterOptions) (argument : Nat)
  | generic (argument : Nat)
deriving DecidableEq, Repr

namespace Args

/-- The fields of a word under a family. -/
def extract (w : Word) : Family → Args
  | .plain => .plain w.payload
  | .registerMeta => .register w.register w.options w.shortArgument
  | .genericMeta => .generic w.longArgument

/-- The argument number of any layout. -/
def argument : Args → Nat
  | .plain payload => payload
  | .register _ _ argument => argument
  | .generic argument => argument

/-- The register field, in the one layout that has it. -/
def register? : Args → Option Register
  | .register r _ _ => some r
  | _ => none

/-- The fields by name, as reports list them. -/
def describe : Args → String
  | .plain payload => "Plain \x7b payload: " ++ Numeral.decimal payload ++ " \x7d"
  | .register r o argument =>
    "Register \x7b register: Register(" ++ Numeral.decimal r.val ++ "), options: RegisterOptions("
      ++ Numeral.decimal o.val ++ "), argument: " ++ Numeral.decimal argument ++ " \x7d"
  | .generic argument => "Generic \x7b argument: " ++ Numeral.decimal argument ++ " \x7d"

end Args

end PistonGrid
