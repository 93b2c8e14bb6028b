import PistonGrid.Catalog

/-!
# Recipes

A recipe declares an instruction without writing a script by hand: a list of steps whose numbers,
addresses and registers are either fixed or taken from the decoded arguments.

* `Recipe.Step` — one step; a step can also run a whole instruction in place.
* `Recipe.script` — the script of a recipe. Its verdict is the declared one, or that of the last
  instruction run in place, or to proceed.
-/

set_option autoImplicit false

namespace PistonGrid.Recipe

/-- A number, fixed or the decoded argument. -/
inductive Amount where
  | fixed (n : Int)
  | argument
deriving DecidableEq, Repr

/-- A memory address, fixed or the decoded argument. -/
inductive Address where
  | fixed (n : Nat)
  | argument
deriving DecidableEq, Repr

/-- A register, fixed or the decoded one. -/
inductive Target where
  | fixed (r : Register)
  | decoded
deriving DecidableEq, Repr

/-- The number that an amount stands for. -/
def Amount.resolve (args : Args) : Amount → Int
  | .fixed n => n
  | .argument => args.argument

/-- The address that an address operand stands for. -/
def Address.resolve (args : Args) : Address → Nat
  | .fixed n => n
  | .argument => args.argument

/-- The register that a target stands for; the first one if the layout has no register field. -/
def Target.resolve (args : Args) : Target → Register
  | .fixed r => r
  | .decoded => args.register?.getD (.ofBits 0)

/-- One step of a recipe. -/
inductive Step where
  | move (n : Amount)
  | turn (t : Turn)
  | face (h : Heading)
  | goTo (x y : Amount)
  | set (r : Target) (n : Amount) (o : RegisterOptions)
  | retire
  | fork (t : Turn)
  | prioritize (n : Amount)
  | store (a : Address) (n : Amount)
  | storeRegister (a : Address) (r : Target)
  | clearMemory
  | load (a : Address) (r : Target)
  | writeNumber (n : Amount)
  | writeText (s : String)
  | writeRegister (r : Target)
  | readNumber (r : Target)
  | readChar (r : Target)
  | execute (i : Instruction)

/-- Perform a step, then go on with `next`, which is given the verdict of an instruction run in place
and `verdict` after every other step. -/
def Step.script (args : Args) (verdict : Verdict) (next : Verdict → Script) : Step → Script
  | .move n => .perform (.move (n.resolve args)) (next verdict)
  | .turn t => .perform (.turn t) (next verdict)
  | .face h => .perform (.face h) (next verdict)
  | .goTo x y => .perform (.goTo (x.resolve args) (y.resolve args)) (next verdict)
  | .set r n o => .perform (.setRegister (r.resolve args) (n.resolve args) o) (next verdict)
  | .retire => .perform .retire (next verdict)
  | .fork t => .perform (.fork t) (next verdict)
  | .prioritize n => .perform (.setPriority (n.resolve args)) (next verdict)
  | .store a n => .perform (.store (a.resolve args) (n.resolve args)) (next verdict)
  | .storeRegister a r =>
    .inspect fun c =>
      .perform (.store (a.resolve args) (c.piston.register (r.resolve args))) (next verdict)
  | .clearMemory => .perform .clearMemory (next verdict)
  | .load a r =>
    .load (a.resolve args) fun value =>
      .perform (.setRegister (r.resolve args) value RegisterOptions.none) (next verdict)
  | .writeNumber n => .perform (.write (.number (n.resolve args))) (next verdict)
  | .writeText s => .perform (.write (.text s)) (next verdict)
  | .writeRegister r =>
    .inspect fun c =>
      .perform (.write (.number (c.piston.register (r.resolve args)))) (next verdict)
  | .readNumber r =>
    .grabNumber fun value =>
      .perform (.setRegister (r.resolve args) value RegisterOptions.none) (next verdict)
  | .readChar r =>
    .grabChar fun value =>
      .perform (.setRegister (r.resolve args) value RegisterOptions.none) (next verdict)
  | .execute i => (i.script args).andThen next

/-- The steps from here on, where `verdict` is that of the last instruction run in place so far. -/
def follow (declared : Option Verdict) (args : Args) : List Step → Verdict → Script
  | [], verdict => .finish (declared.getD verdict)
  | step :: rest, verdict => step.script args verdict (follow declared args rest)

/-- The script of a recipe. -/
def script (steps : List Step) (declared : Option Verdict) (args : Args) : Script :=
  follow declared args steps .proceed

end PistonGrid.Recipe
