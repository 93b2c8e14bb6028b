import PistonGrid.Engine.Pass

/-!
# The engine

An engine steps all its pistons in lock-step. A cycle is a pass over the list; then the queued merge
requests are applied, ended pistons leave, and the cycle is counted. A kill empties the list and the
queue. A word that means nothing aborts the engine where it stands, until it is reset.

* `Engine.start`, `Engine.reset` — an engine at the start of its program.
* `Engine.cycle` — one cycle; `Engine.run` — cycles until the engine ends, fails or reaches its bound.
* `Engine.kill` — drop all pistons.
* `Engine.status` — ready, running, ended or aborted.

Every operation that can fail or that leaves events returns an `Outcome`: the engine after it, what
went wrong, and the events.

The counts of cycles and of runs are natural numbers. They stand for 64-bit counters, and nothing here
says what happens when one of them overflows.
-/

set_option autoImplicit false

namespace PistonGrid

/-- Why an engine operation failed. -/
inductive EngineError where
  | registration (cause : RegistrationError)
  | decode (piston x y : Nat) (cause : DecodeError)
  | aborted (cause : DecodeError)
  | cycleLimit (limit : Nat)
deriving DecidableEq, Repr

/-- The message of an engine error. -/
def EngineError.message : EngineError → String
  | .registration cause => "Registration error: " ++ cause.message
  | .decode piston x y cause =>
    "Decode error in piston " ++ Numeral.decimal piston ++ " at " ++ positionText x y ++ ": "
      ++ cause.message
  | .aborted cause => "Engine aborted: " ++ cause.message
  | .cycleLimit limit => "Cycle limit of " ++ Numeral.decimal limit ++ " reached"

/-- An engine: its program, the active pistons in list order, and what they share. -/
structure Engine where
  program : Program
  pistons : List Piston
  shared : Shared
  cycles : Nat
  runs : Nat
  aborted : Option DecodeError

/-- The stages in the life of an engine. -/
inductive Status where
  | ready
  | running
  | ended
  | aborted (cause : DecodeError)
deriving DecidableEq, Repr

/-- The name of a status, with the cause of an abort. -/
def Status.describe : Status → String
  | .ready => "Ready"
  | .running => "Running"
  | .ended => "Ended"
  | .aborted cause => "Aborted(" ++ cause.describe ++ ")"

/-- What an engine operation returns: the engine after it, the error it met, and its events. -/
structure Outcome where
  engine : Engine
  error : Option EngineError
  events : List Event

namespace Engine

/-- The name under which an engine reports. -/
def name (e : Engine) : String := e.program.config.name

/-- One piston for each start point, numbered from zero in order. -/
def spawnAll (starts : List StartPoint) : List Piston :=
  starts.mapIdx fun id s => .spawn id s.x.toNat s.y.toNat s.heading

/-- Put an engine back to the start of its program, with fresh shared state, and count the run. -/
def reset (e : Engine) : Outcome :=
  let starts := e.program.plane.starts
  { engine :=
      { program := e.program
        pistons := spawnAll starts
        shared := { Shared.fresh e.program.input with nextId := starts.length }
        cycles := 0
        runs := e.runs + 1
        aborted := none }
    error := none
    events := [.reset e.name (e.runs + 1) starts.length] }

/-- A new engine, reset once. -/
def start (program : Program) : Outcome :=
  reset
    { program, pistons := [], shared := .fresh program.input, cycles := 0, runs := 0, aborted := none }

/-- An engine has ended when no piston is active and none is waiting to be. -/
def isEnded (e : Engine) : Bool := e.pistons.isEmpty && e.shared.queue.isEmpty

/-- The stage an engine is at. -/
def status (e : Engine) : Status :=
  match e.aborted with
  | some cause => .aborted cause
  | none => if e.isEnded then .ended else if e.cycles = 0 then .ready else .running

/-- Drop all pistons and all queued requests. -/
def kill (e : Engine) : Engine := { e with pistons := [], shared := { e.shared with queue := [] } }

/-- Apply the queued requests, let ended pistons leave, and count the cycle. -/
def close (e : Engine) : Engine :=
  { e with
    pistons := (drain e.shared.queue e.pistons).filter (!·.ended)
    shared := { e.shared with queue := [] }
    cycles := e.cycles + 1 }

/-- One cycle of an engine that is neither aborted nor ended. -/
def advance (e : Engine) : Outcome :=
  let pass := stepAll e.program e.shared e.pistons
  let after := { e with pistons := pass.pistons, shared := pass.shared }
  match pass.halt with
  | some (.fault p cause) =>
    { engine := { after with aborted := some cause }
      error := some (.decode p.id p.x p.y cause)
      events := pass.events ++ [.aborted e.name p.id p.x p.y cause] }
  | some .kill =>
    { engine := after.kill.close
      error := none
      events := pass.events ++ [.killed e.name e.cycles] }
  | none =>
    { engine := after.close
      error := none
      events := pass.events ++ (placements pass.shared.queue pass.pistons).map .placed }

/-- One cycle. An aborted engine refuses; an ended one has nothing to do. -/
def cycle (e : Engine) : Outcome :=
  match e.aborted with
  | some cause => ⟨e, some (.aborted cause), []⟩
  | none => if e.isEnded then ⟨e, none, []⟩ else e.advance

/-- Cycles until the engine ends or fails, at most `budget` of them; `seen` are the events so far. Where the
budget ends the bound of the configuration is reported, also if no limit is configured. -/
def runWithin (budget : Nat) (e : Engine) (seen : Array Event) : Outcome :=
  match e.aborted with
  | some cause => ⟨e, some (.aborted cause), seen.toList⟩
  | none =>
    if e.isEnded then ⟨e, none, seen.toList⟩
    else
      match budget with
      | 0 => ⟨e, some (.cycleLimit e.program.config.cycleBound), seen.toList⟩
      | budget + 1 =>
        let next := e.advance
        match next.error with
        | some error => ⟨next.engine, some error, (seen ++ next.events).toList⟩
        | none => runWithin budget next.engine (seen ++ next.events)

/-- Cycles until the engine ends, fails, or has run as many cycles as its configuration allows. Without a
limit, a run that would go on for ever gives up after `2 ^ 64` cycles with `cycleLimit (2 ^ 64)`; a run
that returns before is not affected. -/
def run (e : Engine) : Outcome := runWithin (e.program.config.cycleBound - e.cycles) e #[]

/-- Up to `n` cycles, stopping at the first error; `seen` are the events so far. -/
def cycleUpTo (n : Nat) (e : Engine) (seen : Array Event) : Outcome :=
  match n with
  | 0 => ⟨e, none, seen.toList⟩
  | n + 1 =>
    let next := e.cycle
    match next.error with
    | some error => ⟨next.engine, some error, (seen ++ next.events).toList⟩
    | none => cycleUpTo n next.engine (seen ++ next.events)

/-- `n` cycles, or as many as there are before the first error. -/
def cycleTimes (e : Engine) (n : Nat) : Outcome := cycleUpTo n e #[]

/-- One line about an engine. -/
def describe (e : Engine) : String :=
  "Engine \x7b name: " ++ Quoted.quote e.name ++ ", cycles: " ++ Numeral.decimal e.cycles
    ++ ", runs: " ++ Numeral.decimal e.runs ++ ", pistons: " ++ Numeral.decimal e.pistons.length
    ++ ", merges: " ++ Numeral.decimal e.shared.queue.length ++ ", state: " ++ e.status.describe
    ++ " \x7d"

end Engine

end PistonGrid
