import PistonGrid.Event
import PistonGrid.Memory

/-!
# Scripts

What an instruction does is a script: a finite tree of effects on the piston that executes it and on
the state that all pistons share. A script can look at its context and branch on what it finds, so
scripts range over every behaviour an instruction can have that keeps to the effects below; none of
them can touch the list of active pistons or another piston.

* `Action` — the effects without a reply, `Action.apply` and `Action.events` their meaning.
* `Script` — actions, reads with a reply, and inspection, ending in a `Verdict`.
* `Script.run` — the meaning of a script, by recursion on it.
* `Script.andThen` — one script after another.
-/

set_option autoImplicit false

namespace PistonGrid

/-- The state shared by all pistons of an engine. The next identity stands for a 64-bit counter that does
not overflow. -/
structure Shared where
  memory : Memory
  channel : Channel
  queue : List MergeRequest
  nextId : Nat
deriving DecidableEq, Repr

namespace Shared

/-- The shared state before any piston exists. -/
def fresh (input : List Char) : Shared :=
  { memory := .empty, channel := .ofInput input, queue := [], nextId := 0 }

/-- Add a request to the merge queue. -/
def enqueue (s : Shared) (r : MergeRequest) : Shared := { s with queue := s.queue ++ [r] }

/-- Give out an identity and queue a turned copy of `p` beside it. -/
def fork (s : Shared) (p : Piston) (t : Turn) : Shared :=
  { s with nextId := s.nextId + 1 }.enqueue (.fork p.id (p.forked s.nextId t) (.ofTurn t))

end Shared

/-- What a script works on: the executing piston and the shared state. -/
structure Context where
  piston : Piston
  shared : Shared
deriving DecidableEq, Repr

/-- What becomes of the executing piston, or of the whole engine, when a script is done. -/
inductive Verdict where
  | proceed
  | retire
  | kill
deriving DecidableEq, Repr

/-- An effect that gives no reply. -/
inductive Action where
  | move (n : Int)
  | turn (t : Turn)
  | face (h : Heading)
  | goTo (x y : Int)
  | setRegister (r : Register) (value : Int) (o : RegisterOptions)
  | retire
  | fork (t : Turn)
  | setPriority (priority : Int)
  | store (address : Nat) (value : Int)
  | clearMemory
  | write (item : OutputItem)
deriving DecidableEq, Repr

namespace Action

/-- The context after an action. -/
def apply (c : Context) : Action → Context
  | .move n => { c with piston := c.piston.moveBy n }
  | .turn t => { c with piston := c.piston.turn t }
  | .face h => { c with piston := c.piston.face h }
  | .goTo x y => { c with piston := c.piston.goTo x y }
  | .setRegister r value o => { c with piston := c.piston.setRegister r value o }
  | .retire => { c with piston := c.piston.retire }
  | .fork t => { c with shared := c.shared.fork c.piston t }
  | .setPriority priority =>
    { piston := { c.piston with priority }
      shared := c.shared.enqueue (.reprioritize c.piston.id priority) }
  | .store address value =>
    { c with shared := { c.shared with memory := c.shared.memory.set address value } }
  | .clearMemory => { c with shared := { c.shared with memory := .empty } }
  | .write item =>
    { c with shared := { c.shared with channel := c.shared.channel.write item } }

/-- What an action leaves in the list of events. -/
def events (c : Context) : Action → List Event
  | .fork t => [.forked c.piston c.shared.nextId t]
  | .setPriority priority => [.prioritized c.piston.id priority]
  | .store address value => [.stored c.piston.id address (wrap value)]
  | .clearMemory => [.cleared c.piston.id]
  | .write item => [.wrote c.piston.id item]
  | _ => []

end Action

/-- A finite tree of effects. -/
inductive Script where
  | finish (verdict : Verdict)
  | perform (action : Action) (next : Script)
  | load (address : Nat) (next : Nat → Script)
  | grabNumber (next : Nat → Script)
  | grabChar (next : Nat → Script)
  | inspect (next : Context → Script)

/-- What a script leaves behind. -/
structure ScriptResult where
  context : Context
  verdict : Verdict
  events : List Event

namespace Script

/-- Run a script in a context. -/
def run : Script → Context → ScriptResult
  | .finish verdict, c => ⟨c, verdict, []⟩
  | .perform action next, c =>
    let r := next.run (action.apply c)
    { r with events := action.events c ++ r.events }
  | .load address next, c =>
    let value := c.shared.memory.get address
    let r := (next value).run c
    { r with events := .loaded c.piston.id address value :: r.events }
  | .grabNumber next, c =>
    let grabbed := c.shared.channel.grabNumber
    let r := (next grabbed.1).run { c with shared := { c.shared with channel := grabbed.2 } }
    { r with events := .grabbedNumber c.piston.id c.shared.channel.numberPiece :: r.events }
  | .grabChar next, c =>
    let grabbed := c.shared.channel.grabChar
    let r := (next grabbed.1).run { c with shared := { c.shared with channel := grabbed.2 } }
    { r with events := .grabbedChar c.piston.id c.shared.channel.charPiece :: r.events }
  | .inspect next, c => (next c).run c

/-- Run a script and go on with what its verdict selects. -/
def andThen : Script → (Verdict → Script) → Script
  | .finish verdict, k => k verdict
  | .perform action next, k => .perform action (next.andThen k)
  | .load address next, k => .load address fun v => (next v).andThen k
  | .grabNumber next, k => .grabNumber fun v => (next v).andThen k
  | .grabChar next, k => .grabChar fun v => (next v).andThen k
  | .inspect next, k => .inspect fun c => (next c).andThen k

/-- A list of actions, then a verdict. -/
def ofActions (actions : List Action) (verdict : Verdict) : Script :=
  actions.foldr .perform (.finish verdict)

end Script

end PistonGrid
