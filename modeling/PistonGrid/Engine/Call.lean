import PistonGrid.Engine.Basic

/-!
# Calls

The four calls by which an engine is driven, and sequences of them.

* `Engine.call` — one call with its outcome.
* `Engine.callAll` — the engine after a sequence of calls; `Engine.history` — the events of it.
-/

set_option autoImplicit false

namespace PistonGrid

/-- The calls that drive an engine. -/
inductive Call where
  | cycle
  | run
  | kill
  | reset
deriving DecidableEq, Repr

namespace Engine

/-- Carry out one call. -/
def call (e : Engine) : Call → Outcome
  | .cycle => e.cycle
  | .run => e.run
  | .kill => ⟨e.kill, none, []⟩
  | .reset => e.reset

/-- The engine after a sequence of calls, whatever they return. -/
def callAll (e : Engine) (calls : List Call) : Engine := calls.foldl (fun e c => (e.call c).engine) e

/-- The events of a sequence of calls, in the order in which they happened. -/
def history : Engine → List Call → List Event
  | _, [] => []
  | e, c :: calls => (e.call c).events ++ history (e.call c).engine calls

end Engine

end PistonGrid
