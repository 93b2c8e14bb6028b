import PistonGrid.Config
import PistonGrid.Grid
import PistonGrid.Registry

/-!
# One pass over the pistons

In a pass every piston in the list steps once, in list order. The first piston that kills the engine,
or that stands on a word that means nothing, stops the pass.

* `Program` — plane, registry, configuration and input; nothing of it changes while an engine runs.
* `Piston.step` — one piston: fetch, decode, execute.
* `stepAll` — the pass, with what stopped it.
-/

set_option autoImplicit false

namespace PistonGrid

/-- What an engine is built from and never changes. -/
structure Program where
  plane : Plane
  registry : Registry
  config : Config
  input : List Char

/-- What one step of a piston leaves behind. -/
structure Step where
  piston : Piston
  shared : Shared
  verdict : Verdict
  events : List Event

/-- Fetch the word under a piston, decode and execute it. A piston outside the plane ends without
executing anything. -/
def Piston.step (program : Program) (s : Shared) (p : Piston) : Except DecodeError Step :=
  match program.plane.wordAt? p.x p.y with
  | none => .ok ⟨p.retire, s, .retire, [.leftPlane p.id p.x p.y]⟩
  | some w =>
    match program.registry.decode w with
    | .error cause => .error cause
    | .ok d =>
      let r := (d.instruction.script d.args).run ⟨{ p with executed := p.executed + 1 }, s⟩
      .ok ⟨if r.verdict = .retire then r.context.piston.retire else r.context.piston,
        r.context.shared, r.verdict,
        .executed p.id p.x p.y w d.instruction.mnemonic :: r.events⟩

/-- What stops a pass over the list before its end. -/
inductive Halt where
  | kill
  | fault (piston : Piston) (cause : DecodeError)
deriving DecidableEq, Repr

/-- One pass over the list: the pistons that stepped followed by those that did not, the shared state
after the last step, and what stopped the pass, if anything did. -/
structure Pass where
  pistons : List Piston
  shared : Shared
  halt : Option Halt
  events : List Event

/-- Step every piston in list order, up to the first that halts the pass. -/
def stepAll (program : Program) : Shared → List Piston → Pass
  | s, [] => ⟨[], s, none, []⟩
  | s, p :: ps =>
    match p.step program s with
    | .error cause => ⟨p :: ps, s, some (.fault p cause), []⟩
    | .ok step =>
      if step.verdict = .kill then ⟨step.piston :: ps, step.shared, some .kill, step.events⟩
      else
        let rest := stepAll program step.shared ps
        ⟨step.piston :: rest.pistons, rest.shared, rest.halt, step.events ++ rest.events⟩

end PistonGrid
