import PistonGrid.Proofs.Lifecycle
import PistonGrid.Snapshot

/-!
# A reset is a fresh start

A reset leaves nothing behind of what an engine has done but the count of its runs, and nothing that an
engine does afterwards depends on that count.

* `Engine.ahead`, `Event.ahead`, `Outcome.ahead` — the same with some runs more on the count.
* `Engine.call_ahead` — an engine that has counted more runs does the same at every call; from it
  `Engine.results_ahead`, `Engine.callAll_ahead` and `Engine.history_ahead` for sequences of calls.
* `Engine.runs_callAll` — every reset is counted, and nothing else is.
* `Engine.reset_eq_start` — an engine after a reset is a new engine that is ahead by the runs before it.
-/

set_option autoImplicit false

namespace PistonGrid

/-- The same event, told by an engine that has counted `d` runs more: only a reset tells the count. -/
def Event.ahead (d : Nat) : Event → Event
  | .reset engine runs pistons => .reset engine (runs + d) pistons
  | ev => ev

/-- The same engine with `d` runs more on its count. -/
def Engine.ahead (e : Engine) (d : Nat) : Engine := { e with runs := e.runs + d }

/-- The same outcome, of an engine that has counted `d` runs more. -/
def Outcome.ahead (o : Outcome) (d : Nat) : Outcome :=
  ⟨o.engine.ahead d, o.error, o.events.map (Event.ahead d)⟩

/-! ## Nothing looks at the count -/

theorem Event.ahead_of_isDeed (d : Nat) {ev : Event} (h : ev.isDeed = true) : ev.ahead d = ev := by
  cases ev with
  | reset => cases h
  | _ => rfl

namespace Engine

variable (e : Engine) (d : Nat)

@[simp] theorem ahead_program : (e.ahead d).program = e.program := rfl
@[simp] theorem ahead_aborted : (e.ahead d).aborted = e.aborted := rfl
@[simp] theorem ahead_isEnded : (e.ahead d).isEnded = e.isEnded := rfl

/-- A cycle does not tell the count. -/
theorem advance_events_ahead : e.advance.events.map (Event.ahead d) = e.advance.events := by
  have hpass : (stepAll e.program e.shared e.pistons).events.map (Event.ahead d) =
      (stepAll e.program e.shared e.pistons).events := by
    refine (List.map_congr_left fun ev hev => ?_).trans (List.map_id _)
    exact Event.ahead_of_isDeed d (stepAll_deeds _ _ _ ev hev)
  unfold advance
  simp only
  split
  · rw [List.map_append, hpass]
    rfl
  · rw [List.map_append, hpass]
    rfl
  · rw [List.map_append, hpass, List.map_map]
    rfl

theorem advance_ahead : (e.ahead d).advance = e.advance.ahead d := by
  have hpass : stepAll (e.ahead d).program (e.ahead d).shared (e.ahead d).pistons =
      stepAll e.program e.shared e.pistons := rfl
  have hadvance : (e.ahead d).advance = ⟨e.advance.engine.ahead d, e.advance.error, e.advance.events⟩ := by
    unfold advance
    rw [hpass]
    simp only
    split <;> rfl
  rw [hadvance, Outcome.ahead, e.advance_events_ahead d]

theorem cycle_ahead : (e.ahead d).cycle = e.cycle.ahead d := by
  unfold cycle
  rw [ahead_aborted, ahead_isEnded]
  split
  · rfl
  · split
    · rfl
    · exact e.advance_ahead d

/-- The loop of a run: what was told so far is told with the other count, too. -/
theorem runWithin_ahead :
    ∀ (budget : Nat) (e : Engine) (seen : Array Event),
      (e.ahead d).runWithin budget (seen.map (Event.ahead d)) = (e.runWithin budget seen).ahead d := by
  intro budget
  induction budget with
  | zero =>
    intro e seen
    unfold runWithin
    rw [ahead_aborted, ahead_isEnded]
    split
    · simp [Outcome.ahead]
    · split <;> simp [Outcome.ahead]
  | succ budget ih =>
    intro e seen
    unfold runWithin
    rw [ahead_aborted, ahead_isEnded]
    split
    · simp [Outcome.ahead]
    · split
      · simp [Outcome.ahead]
      · have hseen : seen.map (Event.ahead d) ++ (e.advance.ahead d).events =
            (seen ++ e.advance.events).map (Event.ahead d) := by
          apply Array.ext'
          simp [Outcome.ahead]
        simp only [advance_ahead, hseen]
        split
        · rename_i error herr
          rw [show e.advance.error = some error from herr]
          simp [Outcome.ahead]
        · rename_i herr
          rw [show e.advance.error = none from herr]
          exact ih _ _

/-- **No call looks at the count of runs.** -/
theorem call_ahead (c : Call) : (e.ahead d).call c = (e.call c).ahead d := by
  cases c with
  | cycle => exact e.cycle_ahead d
  | run =>
    have hloop := runWithin_ahead d (e.program.config.cycleBound - e.cycles) e #[]
    rwa [Array.map_empty] at hloop
  | kill => rfl
  | reset =>
    simp only [call, reset, Outcome.ahead, ahead, List.map_cons, List.map_nil, Event.ahead, name]
    rw [Nat.add_right_comm]

theorem results_ahead :
    ∀ (calls : List Call) (e : Engine), (e.ahead d).results calls = e.results calls
  | [], _ => rfl
  | c :: calls, e => by
    rw [results, results, call_ahead]
    exact congrArg _ (results_ahead calls (e.call c).engine)

theorem callAll_ahead :
    ∀ (calls : List Call) (e : Engine), (e.ahead d).callAll calls = (e.callAll calls).ahead d
  | [], _ => rfl
  | c :: calls, e => by
    show ((e.ahead d).call c).engine.callAll calls = ((e.call c).engine.callAll calls).ahead d
    rw [call_ahead]
    exact callAll_ahead calls (e.call c).engine

theorem history_ahead :
    ∀ (calls : List Call) (e : Engine),
      (e.ahead d).history calls = (e.history calls).map (Event.ahead d)
  | [], _ => rfl
  | c :: calls, e => by
    rw [history, history, call_ahead, List.map_append]
    exact congrArg _ (history_ahead calls (e.call c).engine)

end Engine

/-! ## Counting runs -/

theorem Engine.runs_onward : Onward fun e e' => e'.runs = e.runs where
  refl _ := rfl
  trans hab hbc := hbc.trans hab
  kill _ := rfl
  advance := by
    intro e _ _
    unfold advance
    simp only
    split <;> rfl

/-- Every reset is counted, and nothing else is. -/
theorem Engine.runs_callAll :
    ∀ (calls : List Call) (e : Engine), (e.callAll calls).runs = e.runs + calls.count .reset
  | [], _ => rfl
  | c :: calls, e => by
    have hcalls := runs_callAll calls (e.call c).engine
    have hcall : (e.call c).engine.runs = e.runs + [c].count .reset := by
      by_cases hc : c = .reset
      · subst hc
        rfl
      · have hnot : .reset ∉ [c] := by simpa using Ne.symm hc
        rw [List.count_eq_zero.mpr hnot]
        exact runs_onward.callAll [c] e hnot
    rw [← List.singleton_append, List.count_append, ← Nat.add_assoc, ← hcall]
    exact hcalls

theorem Program.runs_after (program : Program) (calls : List Call) :
    (program.after calls).runs = 1 + calls.count .reset :=
  Engine.runs_callAll calls (Engine.start program).engine

/-- **A reset is a fresh start**: an engine after it is a new engine that is ahead by the runs before. -/
theorem Engine.reset_eq_start (e : Engine) :
    e.reset.engine = (Engine.start e.program).engine.ahead e.runs := by
  simp [start, reset, ahead, Nat.add_comm]

/-- **A reset cannot be told from a new engine.** Whatever calls came before it, after a reset every
sequence of calls returns the same as on a new engine and leads to the same engine, but for the count of
runs; all that is told is the same too, but for that count.  The count is one more than the number of
resets. -/
theorem reset_indistinguishable (program : Program) (before later : List Call) :
    let old := (program.after before).reset.engine
    let new := (Engine.start program).engine
    old.results later = new.results later ∧
    old.callAll later =
      { new.callAll later with runs := 1 + (before ++ .reset :: later).count .reset } ∧
    (new.callAll later).runs = 1 + later.count .reset ∧
    (old.callAll later).status = (new.callAll later).status ∧
    (old.callAll later).pistons.map Piston.snapshot = (new.callAll later).pistons.map Piston.snapshot ∧
    old.history later = (new.history later).map (Event.ahead (1 + before.count .reset)) := by
  intro old new
  have hold : old = new.ahead (1 + before.count .reset) := by
    have hstart := (program.after before).reset_eq_start
    rwa [program.after_program, program.runs_after] at hstart
  have hcalls : old.callAll later = (new.callAll later).ahead (1 + before.count .reset) := by
    rw [hold, Engine.callAll_ahead]
  have hruns : (new.callAll later).runs = 1 + later.count .reset := program.runs_after later
  refine ⟨?_, ?_, hruns, ?_, ?_, ?_⟩
  · rw [hold, Engine.results_ahead]
  · rw [hcalls, Engine.ahead, hruns, List.count_append, List.count_cons_self]
    congr 1
    omega
  · rw [hcalls]
    rfl
  · rw [hcalls]
    rfl
  · rw [hold, Engine.history_ahead]

end PistonGrid
