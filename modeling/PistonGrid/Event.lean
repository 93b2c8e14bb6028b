import PistonGrid.Channel
import PistonGrid.DecodeError
import PistonGrid.Merge

/-!
# Events

Everything that happens while an engine runs is an event, and every engine operation returns its
events in the order in which they happened: steps of pistons, their dealings with memory and channel,
forks, placements of merge requests, and changes in the life of the engine.

* `Event` — what can happen.
* `Event.record?` — the log record of an event. Dealings with memory and channel leave none.
* `logOf` — the log of a list of events.
-/

set_option autoImplicit false

namespace PistonGrid

/-- How much a log record matters. -/
inductive Level where
  | trace
  | debug
  | info
  | warn
deriving DecidableEq, Repr

/-- The name of a level. -/
def Level.name : Level → String
  | .trace => "TRACE"
  | .debug => "DEBUG"
  | .info => "INFO"
  | .warn => "WARN"

/-- A line of the log. -/
structure Record where
  level : Level
  text : String
deriving DecidableEq, Repr

/-- A record with its level in front. -/
def Record.line (r : Record) : String := r.level.name ++ " " ++ r.text

/-- Something that happened in an engine. -/
inductive Event where
  /-- The engine was reset for the given time, with so many pistons. -/
  | reset (engine : String) (runs pistons : Nat)
  /-- A piston stood outside the plane. -/
  | leftPlane (piston x y : Nat)
  /-- A piston fetched a word and began to execute it. -/
  | executed (piston x y : Nat) (word : Word) (mnemonic : String)
  /-- A piston, as it was then, sent off a copy with the given identity. -/
  | forked (parent : Piston) (entrant : Nat) (turn : Turn)
  /-- A piston changed its priority. -/
  | prioritized (piston : Nat) (priority : Int)
  /-- A piston read a memory cell. -/
  | loaded (piston address value : Nat)
  /-- A piston wrote a memory cell. -/
  | stored (piston address value : Nat)
  /-- A piston emptied the memory. -/
  | cleared (piston : Nat)
  /-- A piston took a run of digits from the input. -/
  | grabbedNumber (piston : Nat) (piece : List Char)
  /-- A piston took a character, or found none. -/
  | grabbedChar (piston : Nat) (piece : List Char)
  /-- A piston wrote to the output. -/
  | wrote (piston : Nat) (item : OutputItem)
  /-- A merge request was applied. -/
  | placed (placement : Placement)
  /-- A piston stopped the engine in the given cycle. -/
  | killed (engine : String) (cycle : Nat)
  /-- A piston met a word that means nothing. -/
  | aborted (engine : String) (piston x y : Nat) (cause : DecodeError)
deriving DecidableEq, Repr

/-- A position as reports write it. -/
def positionText (x y : Nat) : String :=
  "(" ++ Numeral.decimal x ++ ", " ++ Numeral.decimal y ++ ")"

namespace Placement

/-- The log record of a placement; a missing target is worth a warning. -/
def record : Placement → Record
  | .beside entrant side anchor =>
    ⟨.debug, "merge: piston " ++ Numeral.decimal entrant ++ " " ++ side.name ++ " of "
      ++ Numeral.decimal anchor⟩
  | .anchorMissing anchor entrant =>
    ⟨.warn, "merge: anchor " ++ Numeral.decimal anchor ++ " not found for piston "
      ++ Numeral.decimal entrant ++ ", appending"⟩
  | .before piston priority next =>
    ⟨.debug, "merge: piston " ++ Numeral.decimal piston ++ " (p=" ++ Numeral.signed priority
      ++ ") before " ++ Numeral.decimal next⟩
  | .last piston priority =>
    ⟨.debug, "merge: piston " ++ Numeral.decimal piston ++ " (p=" ++ Numeral.signed priority
      ++ ") has no anchor, appending"⟩
  | .pistonMissing piston =>
    ⟨.warn, "merge: reprioritized piston " ++ Numeral.decimal piston ++ " is gone"⟩

end Placement

namespace Event

/-- The log record of an event, if it leaves one. -/
def record? : Event → Option Record
  | .reset engine runs pistons =>
    some ⟨.info, engine ++ " has reset! Runs: " ++ Numeral.decimal runs ++ " ("
      ++ Numeral.decimal pistons ++ " pistons)"⟩
  | .leftPlane piston x y =>
    some ⟨.trace, "piston " ++ Numeral.decimal piston ++ " left the grid at " ++ positionText x y⟩
  | .executed piston x y word mnemonic =>
    some ⟨.trace, "piston " ++ Numeral.decimal piston ++ " at " ++ positionText x y ++ " "
      ++ word.text ++ " -> " ++ mnemonic⟩
  | .forked parent entrant turn =>
    some ⟨.debug, "^  piston forked! Id: " ++ Numeral.decimal entrant ++ " from "
      ++ Numeral.decimal parent.id ++ " (" ++ turn.name ++ ")"⟩
  | .prioritized _ _ => none
  | .loaded _ _ _ => none
  | .stored _ _ _ => none
  | .cleared _ => none
  | .grabbedNumber _ _ => none
  | .grabbedChar _ _ => none
  | .wrote _ _ => none
  | .placed placement => some placement.record
  | .killed engine cycle => some ⟨.debug, engine ++ ": killed in cycle " ++ Numeral.decimal cycle⟩
  | .aborted engine piston x y cause =>
    some ⟨.warn, engine ++ ": piston " ++ Numeral.decimal piston ++ " aborted the run at "
      ++ positionText x y ++ ": " ++ cause.message⟩

end Event

/-- The log records of a list of events. -/
def logOf (events : List Event) : List Record := events.filterMap Event.record?

end PistonGrid
