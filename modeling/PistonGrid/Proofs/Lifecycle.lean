import PistonGrid.Proofs.Runs
import PistonGrid.Proofs.Standard
import PistonGrid.Proofs.Steps

/-!
# The life of an engine

The status of an engine is not stored; it is read off its list, its queue, its counter and its abort
mark.  This module says how these hang together between two calls, and which way the status can go
while the engine is not reset.

* `Settled` — nothing is queued and nobody in the list has ended.  `Settled.maintained` — so it is
  between any two calls, unless the engine is aborted.
* `Status.Forward` — ready, running, and then ended or aborted for good.
* `Onward` — what has to be shown of a relation between an engine and what becomes of it.
  `Onward.callAll` — such a relation holds across every sequence of calls without a reset.
-/

set_option autoImplicit false

namespace PistonGrid

/-! ## Between two calls -/

/-- Nothing is queued, and nobody in the list has ended. -/
structure Settled (e : Engine) : Prop where
  queue : e.shared.queue = []
  active : ∀ p ∈ e.pistons, p.ended = false

namespace Settled

variable {e : Engine}

theorem of_no_pistons (hp : e.pistons = []) (hq : e.shared.queue = []) : Settled e :=
  ⟨hq, by simp [hp]⟩

theorem reset (e : Engine) : Settled e.reset.engine := by
  refine ⟨rfl, ?_⟩
  intro p hp
  obtain ⟨i, _, rfl⟩ := List.mem_mapIdx.mp hp
  rfl

theorem isEnded_iff (h : Settled e) : e.isEnded = true ↔ e.pistons = [] := by
  simp [Engine.isEnded, h.queue]

/-- **Engines settle.** Every reset, kill and cycle leaves the engine settled, or aborted. -/
theorem maintained (program : Program) :
    Maintained program fun _ e => e.aborted = none → Settled e where
  reset _ e _ _ := reset e
  kill _ _ _ _ _ := of_no_pistons rfl rfl
  advance _ e _ _ _ _ hab := by
    rcases e.advance_cases with ⟨sts, s', _, heq⟩ | ⟨_, _, _, _, _, _, _, _, _, heq⟩ |
      ⟨_, _, _, _, _, _, _, _, _, _, heq⟩
    · rw [heq]
      refine ⟨rfl, fun p hp => ?_⟩
      simpa using (List.mem_filter.mp hp).2
    · rw [heq] at hab
      cases hab
    · rw [heq]
      exact of_no_pistons rfl rfl

end Settled

/-! ## The order of the stages -/

/-- Where an engine can be later: anywhere if it is ready, anywhere but back at the start if it is
running, and nowhere else once it has ended or is aborted. -/
inductive Status.Forward : Status → Status → Prop where
  | stay (s : Status) : Forward s s
  | ofReady (s : Status) : Forward .ready s
  | ofRunning {s : Status} (h : s ≠ .ready) : Forward .running s

namespace Status.Forward

theorem trans {a b c : Status} (hab : Forward a b) (hbc : Forward b c) : Forward a c := by
  cases hab with
  | stay => exact hbc
  | ofReady => exact .ofReady c
  | ofRunning hb =>
    cases hbc with
    | stay => exact .ofRunning hb
    | ofReady => exact absurd rfl hb
    | ofRunning hc => exact .ofRunning hc

theorem eq_of_aborted {cause : DecodeError} {s : Status} (h : Forward (.aborted cause) s) :
    s = .aborted cause := by
  cases h
  rfl

end Status.Forward

namespace Engine

variable {e : Engine} {cause : DecodeError}

/-- The status, read off the abort mark first, then the list and the queue, then the counter. -/
theorem status_cases (e : Engine) :
    (∃ cause, e.aborted = some cause ∧ e.status = .aborted cause) ∨
    (e.aborted = none ∧ e.isEnded = true ∧ e.status = .ended) ∨
    (e.aborted = none ∧ e.isEnded = false ∧
      e.status = if e.cycles = 0 then .ready else .running) := by
  cases hab : e.aborted with
  | some cause => exact .inl ⟨cause, rfl, by simp [status, hab]⟩
  | none =>
    cases hend : e.isEnded with
    | true => exact .inr (.inl ⟨rfl, rfl, by simp [status, hab, hend]⟩)
    | false => exact .inr (.inr ⟨rfl, rfl, by simp [status, hab, hend]⟩)

theorem status_eq_aborted_iff : e.status = .aborted cause ↔ e.aborted = some cause := by
  rcases e.status_cases with ⟨c, hab, hst⟩ | ⟨hab, _, hst⟩ | ⟨hab, _, hst⟩
  · simp [hab, hst]
  · simp [hab, hst]
  · rw [hab, hst]
    split <;> simp

theorem status_eq_ended_iff : e.status = .ended ↔ e.aborted = none ∧ e.isEnded = true := by
  rcases e.status_cases with ⟨c, hab, hst⟩ | ⟨hab, hend, hst⟩ | ⟨hab, hend, hst⟩
  · simp [hab, hst]
  · simp [hab, hend, hst]
  · rw [hend, hst]
    split <;> simp

theorem active_of_running (h : e.status = .running) : e.aborted = none ∧ e.isEnded = false := by
  rcases e.status_cases with ⟨c, _, hst⟩ | ⟨_, _, hst⟩ | ⟨hab, hend, _⟩
  · rw [hst] at h
    cases h
  · rw [hst] at h
    cases h
  · exact ⟨hab, hend⟩

/-- A cycle that returns without an error is counted; one that fails leaves the count and marks the
engine. -/
theorem advance_counted (e : Engine) :
    (e.advance.error = none ∧ e.advance.engine.aborted = e.aborted ∧
      e.advance.engine.cycles = e.cycles + 1) ∨
    (∃ cause, e.advance.error ≠ none ∧ e.advance.engine.aborted = some cause ∧
      e.advance.engine.cycles = e.cycles) := by
  rcases e.advance_cases with ⟨_, _, _, heq⟩ | ⟨_, _, _, _, _, cause, _, _, _, heq⟩ |
    ⟨_, _, _, _, _, _, _, _, _, _, heq⟩
  · rw [heq]
    exact .inl ⟨rfl, rfl, rfl⟩
  · rw [heq]
    exact .inr ⟨cause, by simp, rfl, rfl⟩
  · rw [heq]
    exact .inl ⟨rfl, rfl, rfl⟩

/-- A cycle is counted if it had something to do and did it. -/
theorem cycle_counted (e : Engine) :
    e.cycle.engine.cycles = e.cycles + (if e.isEnded = false ∧ e.cycle.error = none then 1 else 0) := by
  cases hab : e.aborted with
  | some c => simp [cycle, hab]
  | none =>
    cases hend : e.isEnded with
    | true => simp [cycle, hab, hend]
    | false =>
      rw [cycle_of_active hab hend]
      rcases e.advance_counted with ⟨hok, _, hcount⟩ | ⟨_, herr, _, hcount⟩
      · simp [hok, hcount]
      · simp [herr, hcount]

/-- From an engine that can go on, the way leads anywhere but to its start. -/
theorem forward_of_active {s : Status} (hst : e.status = if e.cycles = 0 then .ready else .running)
    (hs : s ≠ .ready) : e.status.Forward s := by
  rw [hst]
  split
  · exact .ofReady s
  · exact .ofRunning hs

theorem kill_forward (e : Engine) : e.status.Forward e.kill.status := by
  rcases e.status_cases with ⟨c, hab, hst⟩ | ⟨hab, _, hst⟩ | ⟨hab, _, hst⟩
  · have hkill : e.kill.status = .aborted c := status_eq_aborted_iff.mpr hab
    rw [hst, hkill]
    exact .stay _
  · have hkill : e.kill.status = .ended := status_eq_ended_iff.mpr ⟨hab, rfl⟩
    rw [hst, hkill]
    exact .stay _
  · have hkill : e.kill.status = .ended := status_eq_ended_iff.mpr ⟨hab, rfl⟩
    exact forward_of_active hst (by simp [hkill])

theorem advance_forward (hab : e.aborted = none) (hend : e.isEnded = false) :
    e.status.Forward e.advance.engine.status := by
  have hst : e.status = if e.cycles = 0 then .ready else .running := by simp [status, hab, hend]
  refine forward_of_active hst ?_
  rcases e.advance_counted with ⟨_, _, hcount⟩ | ⟨c, _, hab', _⟩
  · -- the cycle was counted, so the engine is past its start
    rcases e.advance.engine.status_cases with ⟨_, _, hst'⟩ | ⟨_, _, hst'⟩ | ⟨_, _, hst'⟩
    · simp [hst']
    · simp [hst']
    · rw [hst', hcount, if_neg (Nat.succ_ne_zero _)]
      simp
  · simp [status_eq_aborted_iff.mpr hab']

end Engine

/-! ## Calls without a reset -/

/-- A relation between an engine and what becomes of it: kept by doing nothing and by one thing after
another, by a kill and by every cycle that is carried out. -/
structure Onward (R : Engine → Engine → Prop) : Prop where
  refl : ∀ e, R e e
  trans : ∀ {a b c : Engine}, R a b → R b c → R a c
  kill : ∀ e, R e e.kill
  advance : ∀ {e : Engine}, e.aborted = none → e.isEnded = false → R e e.advance.engine

namespace Onward

variable {R : Engine → Engine → Prop}

theorem cycle (hR : Onward R) (e : Engine) : R e e.cycle.engine := by
  unfold Engine.cycle
  split
  · exact hR.refl e
  · rename_i hab
    split
    · exact hR.refl e
    · rename_i hend
      exact hR.advance hab (by simpa using hend)

theorem cycles (hR : Onward R) :
    ∀ (n : Nat) (e : Engine), R e (e.callAll (List.replicate n .cycle))
  | 0, e => hR.refl e
  | n + 1, e => hR.trans (hR.cycle e) (hR.cycles n e.cycle.engine)

/-- **Across calls.** What every kill and every cycle keeps is kept by every sequence of calls in which
the engine is not reset. -/
theorem callAll (hR : Onward R) :
    ∀ (calls : List Call) (e : Engine), .reset ∉ calls → R e (e.callAll calls)
  | [], e, _ => hR.refl e
  | c :: calls, e, h => by
    have hc := List.ne_of_not_mem_cons h
    have hcalls := List.not_mem_of_not_mem_cons h
    have hcall : R e (e.call c).engine := by
      cases c with
      | cycle => exact hR.cycle e
      | run =>
        obtain ⟨n, hrun, _⟩ := e.run_cycles
        show R e e.run.engine
        rw [hrun]
        exact hR.cycles n e
      | kill => exact hR.kill e
      | reset => exact absurd rfl hc
    exact hR.trans hcall (hR.callAll calls _ hcalls)

end Onward

theorem Engine.status_onward : Onward fun e e' => e.status.Forward e'.status where
  refl _ := .stay _
  trans := Status.Forward.trans
  kill := Engine.kill_forward
  advance := Engine.advance_forward

theorem Engine.cycles_onward : Onward fun e e' => e.cycles ≤ e'.cycles where
  refl _ := Nat.le_refl _
  trans := Nat.le_trans
  kill _ := Nat.le_refl _
  advance := by
    intro e _ _
    rcases e.advance_counted with ⟨_, _, hcount⟩ | ⟨_, _, _, hcount⟩ <;> omega

namespace Engine

variable {e : Engine}

/-- Nothing but a reset does anything to an engine that has ended. -/
theorem call_of_ended (h : e.status = .ended) {c : Call} (hc : c ≠ .reset) :
    e.call c = ⟨e, none, []⟩ := by
  obtain ⟨hab, hend⟩ := status_eq_ended_iff.mp h
  cases c with
  | cycle => simp [call, cycle, hab, hend]
  | run =>
    unfold call run runWithin
    simp [hab, hend]
  | kill =>
    simp only [isEnded, Bool.and_eq_true, List.isEmpty_iff] at hend
    simp [call, kill, ← hend.1, ← hend.2]
  | reset => exact absurd rfl hc

theorem callAll_of_ended (h : e.status = .ended) :
    ∀ calls : List Call, .reset ∉ calls →
      e.callAll calls = e ∧ ∀ r ∈ e.results calls, r = none
  | [], _ => ⟨rfl, by simp [results]⟩
  | c :: calls, hcalls => by
    obtain ⟨hsame, hok⟩ := callAll_of_ended h calls (List.not_mem_of_not_mem_cons hcalls)
    have hcall := call_of_ended h (List.ne_of_not_mem_cons hcalls).symm
    constructor
    · show (e.call c).engine.callAll calls = e
      rw [hcall, hsame]
    · rw [results, hcall]
      exact List.forall_mem_cons.mpr ⟨rfl, hok⟩

end Engine

/-- **Lifecycle**, between two moments without a reset in between.  Unless an engine is aborted, nothing
is queued and nobody in its list has ended.  Its status only moves forward: once it has ended every call
succeeds and changes nothing, and once it is aborted it stays so for the same cause.  Only a cycle that
succeeds adds to its cycles, and a run is a number of cycles. -/
theorem lifecycle_moves_forward (e : Engine) (calls later : List Call) (hlater : .reset ∉ later) :
    let now := e.reset.engine.callAll calls
    (now.aborted = none →
      now.shared.queue = [] ∧ (∀ p ∈ now.pistons, p.ended = false) ∧
        (now.isEnded = true ↔ now.pistons = [])) ∧
    (now.status = .running → now.pistons ≠ [] ∧ ∀ p ∈ now.pistons, p.ended = false) ∧
    now.status.Forward (now.callAll later).status ∧
    (now.status = .ended → now.callAll later = now ∧ ∀ r ∈ now.results later, r = none) ∧
    (∀ cause, now.status = .aborted cause → (now.callAll later).status = .aborted cause) ∧
    now.cycles ≤ (now.callAll later).cycles ∧
    now.cycle.engine.cycles =
      now.cycles + (if now.isEnded = false ∧ now.cycle.error = none then 1 else 0) ∧
    now.kill.cycles = now.cycles ∧
    ∃ n, now.run.engine = now.callAll (List.replicate n .cycle) := by
  intro now
  have hsettled : now.aborted = none → Settled now :=
    ((Settled.maintained e.program).callAll calls [] e.reset.engine rfl fun _ => .reset e).2
  have hforward := Engine.status_onward.callAll later now hlater
  obtain ⟨n, hrun, _⟩ := now.run_cycles
  refine ⟨?_, ?_, hforward, ?_, ?_, Engine.cycles_onward.callAll later now hlater,
    now.cycle_counted, rfl, n, hrun⟩
  · intro hab
    exact ⟨(hsettled hab).queue, (hsettled hab).active, (hsettled hab).isEnded_iff⟩
  · intro hrun
    obtain ⟨hab, hend⟩ := Engine.active_of_running hrun
    refine ⟨fun hnil => ?_, (hsettled hab).active⟩
    rw [(hsettled hab).isEnded_iff.mpr hnil] at hend
    cases hend
  · intro hended
    exact Engine.callAll_of_ended hended later hlater
  · intro cause hab
    rw [hab] at hforward
    exact hforward.eq_of_aborted

/-- One piston walks onto an `END`, the other onto a `KILL` behind it. -/
def lastSteps : Program :=
  .onBlank [((1, 0), .plain 0xF 0), ((2, 1), .genericMeta 0xE 0 0)] [⟨0, 0, .right⟩, ⟨0, 1, .right⟩]

/-- After two cycles one of them is left; the third kills the engine, and then nothing happens. -/
theorem lifecycle_moves_forward_lastSteps :
    (lastSteps.after [.reset, .cycle, .cycle]).status = .running ∧
      (lastSteps.after [.reset, .cycle, .cycle]).pistons.map (·.id) = [1] ∧
      ((lastSteps.after [.reset, .cycle, .cycle]).callAll [.cycle, .cycle, .kill]).status = .ended ∧
      Status.Forward .running .ended ∧
      (lastSteps.after [.reset, .cycle, .cycle]).pistons ≠ [] :=
  have h := lifecycle_moves_forward (Engine.start lastSteps).engine [.cycle, .cycle]
    [.cycle, .cycle, .kill] (by decide)
  ⟨rfl, rfl, rfl, h.2.2.1, (h.2.1 rfl).1⟩

end PistonGrid
