import PistonGrid.Proofs.Lifecycle

/-!
# A run is a bounded number of cycles

A run is a loop that makes one cycle after the other and looks before each of them whether to go on.
This module states that loop as a relation, without any bound on its length, and shows that under a
limit it always returns, with what a run returns.

* `Engine.stop?` — what the loop returns before it makes another cycle: it looks for an abort, then for
  the end, then for the limit.
* `Engine.Loop` — the loop from an engine makes so many cycles and returns an outcome.  `Loop.unique` —
  it does so in one way only.
* `Engine.run_loop` — under a limit the loop returns, within the cycles that the limit leaves, and a run
  is what it returns.
* `Loop.calls` — the loop leads where its cycles lead.  `Loop.ends` — the four ways in which it ends.
* `Loop.run_unlimited` — without a limit a run is what the loop returns, if the loop returns while cycles
  can be counted in 64 bits.
* `Loop.ended_of_succeeds`, `ended_of_runWithin_succeeds` — with any limit, or none, success means that the
  engine has ended.
* `Loop.configured` — a loop that ends before its limit ends in the same way under a higher one.
-/

set_option autoImplicit false

namespace PistonGrid

namespace Engine

variable {e : Engine}

/-! ## The loop -/

/-- What a run returns before it makes another cycle, if it returns. -/
def stop? (e : Engine) : Option (Option EngineError) :=
  match e.aborted with
  | some cause => some (some (.aborted cause))
  | none =>
    if e.isEnded then some none
    else
      match e.program.config.maxCycles with
      | some m => if m.toNat ≤ e.cycles then some (some (.cycleLimit m.toNat)) else none
      | none => none

/-- The loop of a run: started with an engine it makes so many cycles and returns an outcome. -/
inductive Loop : Engine → Nat → Outcome → Prop where
  | stop {e : Engine} {result : Option EngineError} (rests : e.stop? = some result) :
      Loop e 0 ⟨e, result, []⟩
  | fail {e : Engine} {error : EngineError} (goes : e.stop? = none)
      (fails : e.cycle.error = some error) :
      Loop e 1 ⟨e.cycle.engine, some error, e.cycle.events⟩
  | next {e : Engine} {k : Nat} {o : Outcome} (goes : e.stop? = none)
      (completes : e.cycle.error = none) (rest : Loop e.cycle.engine k o) :
      Loop e (k + 1) { o with events := e.cycle.events ++ o.events }

/-- The loop leaves no choice. -/
theorem Loop.unique {k k' : Nat} {o o' : Outcome} (h : e.Loop k o) (h' : e.Loop k' o') :
    k' = k ∧ o' = o := by
  induction h generalizing k' o' with
  | stop rests =>
    cases h' with
    | stop rests' =>
      rw [rests] at rests'
      cases rests'
      exact ⟨rfl, rfl⟩
    | fail goes _ => rw [rests] at goes; cases goes
    | next goes _ _ => rw [rests] at goes; cases goes
  | fail goes fails =>
    cases h' with
    | stop rests => rw [goes] at rests; cases rests
    | fail _ fails' =>
      rw [fails] at fails'
      cases fails'
      exact ⟨rfl, rfl⟩
    | next _ completes _ => rw [fails] at completes; cases completes
  | next goes completes _ ih =>
    cases h' with
    | stop rests => rw [goes] at rests; cases rests
    | fail _ fails => rw [completes] at fails; cases fails
    | next _ _ rest =>
      obtain ⟨rfl, rfl⟩ := ih rest
      exact ⟨rfl, rfl⟩

/-- The four answers of the checks. -/
theorem stop?_cases (e : Engine) :
    (∃ cause, e.aborted = some cause ∧ e.stop? = some (some (.aborted cause))) ∨
    (e.aborted = none ∧ e.isEnded = true ∧ e.stop? = some none) ∨
    (∃ m, e.program.config.maxCycles = some m ∧ e.aborted = none ∧ e.isEnded = false ∧
      m.toNat ≤ e.cycles ∧ e.stop? = some (some (.cycleLimit m.toNat))) ∨
    (e.aborted = none ∧ e.isEnded = false ∧
      (∀ m, e.program.config.maxCycles = some m → e.cycles < m.toNat) ∧ e.stop? = none) := by
  unfold stop?
  cases hab : e.aborted with
  | some cause => exact .inl ⟨cause, rfl, rfl⟩
  | none =>
    cases hend : e.isEnded with
    | true => exact .inr (.inl ⟨rfl, rfl, rfl⟩)
    | false =>
      cases hm : e.program.config.maxCycles with
      | none => exact .inr (.inr (.inr ⟨rfl, rfl, nofun, rfl⟩))
      | some m =>
        by_cases hcycles : m.toNat ≤ e.cycles
        · exact .inr (.inr (.inl ⟨m, rfl, rfl, rfl, hcycles, by simp [hcycles]⟩))
        · refine .inr (.inr (.inr ⟨rfl, rfl, ?_, by simp [hcycles]⟩))
          intro m' hm'
          cases hm'
          omega

/-- An engine that goes on is neither aborted nor ended, and has not reached its limit. -/
theorem active_of_stop?_none (h : e.stop? = none) :
    e.aborted = none ∧ e.isEnded = false ∧
      ∀ m, e.program.config.maxCycles = some m → e.cycles < m.toNat := by
  rcases e.stop?_cases with ⟨_, _, hstop⟩ | ⟨_, _, hstop⟩ | ⟨_, _, _, _, _, hstop⟩ | ⟨hab, hend, hlt, _⟩
  · rw [h] at hstop; cases hstop
  · rw [h] at hstop; cases hstop
  · rw [h] at hstop; cases hstop
  · exact ⟨hab, hend, hlt⟩

section

variable {m : UInt64}

theorem stop?_limited (hm : e.program.config.maxCycles = some m) :
    (∃ cause, e.aborted = some cause ∧ e.stop? = some (some (.aborted cause))) ∨
    (e.aborted = none ∧ e.isEnded = true ∧ e.stop? = some none) ∨
    (e.aborted = none ∧ e.isEnded = false ∧ m.toNat ≤ e.cycles ∧
      e.stop? = some (some (.cycleLimit m.toNat))) ∨
    (e.aborted = none ∧ e.isEnded = false ∧ e.cycles < m.toNat ∧ e.stop? = none) := by
  rcases e.stop?_cases with haborted | hended | ⟨m', hm', hreached⟩ | ⟨hab, hend, hlt, hstop⟩
  · exact .inl haborted
  · exact .inr (.inl hended)
  · rw [hm] at hm'
    cases hm'
    exact .inr (.inr (.inl hreached))
  · exact .inr (.inr (.inr ⟨hab, hend, hlt m hm, hstop⟩))

theorem cycle_limit {limit : Option UInt64} (hm : e.program.config.maxCycles = limit) :
    e.cycle.engine.program.config.maxCycles = limit := by
  rw [show e.cycle.engine.program = e.program from e.call_program .cycle, hm]

/-- A cycle that completes leaves one less to go. -/
theorem cycle_completed (hab : e.aborted = none) (hend : e.isEnded = false)
    (hok : e.cycle.error = none) :
    e.cycle.engine.aborted = none ∧ e.cycle.engine.cycles = e.cycles + 1 := by
  rw [cycle_of_active hab hend] at hok ⊢
  rcases e.advance_counted with ⟨_, hab', hcount⟩ | ⟨_, herr, _⟩
  · exact ⟨hab'.trans hab, hcount⟩
  · exact absurd hok herr

/-- **The loop returns.** The budget of the run is what the limit leaves, since every cycle that completes
is counted. -/
theorem runWithin_loop :
    ∀ (budget : Nat) (e : Engine) (seen : Array Event), e.program.config.maxCycles = some m →
      m.toNat - e.cycles = budget →
      ∃ k o, k ≤ budget ∧ e.Loop k o ∧
        e.runWithin budget seen = ⟨o.engine, o.error, seen.toList ++ o.events⟩ := by
  intro budget
  induction budget with
  | zero =>
    intro e seen hm hbudget
    rcases stop?_limited hm with ⟨cause, hab, hstop⟩ | ⟨hab, hend, hstop⟩ | ⟨hab, hend, _, hstop⟩ |
      ⟨_, _, hlt, _⟩
    · exact ⟨0, _, Nat.le_refl 0, .stop hstop, by simp [runWithin, hab]⟩
    · exact ⟨0, _, Nat.le_refl 0, .stop hstop, by simp [runWithin, hab, hend]⟩
    · refine ⟨0, _, Nat.le_refl 0, .stop hstop, ?_⟩
      simp [runWithin, hab, hend, Config.cycleBound, hm]
    · omega
  | succ budget ih =>
    intro e seen hm hbudget
    rcases stop?_limited hm with ⟨cause, hab, hstop⟩ | ⟨hab, hend, hstop⟩ | ⟨_, _, hle, _⟩ |
      ⟨hab, hend, _, hstop⟩
    · exact ⟨0, _, Nat.zero_le _, .stop hstop, by simp [runWithin, hab]⟩
    · exact ⟨0, _, Nat.zero_le _, .stop hstop, by simp [runWithin, hab, hend]⟩
    · omega
    · have hcycle := cycle_of_active hab hend
      cases herr : e.cycle.error with
      | some error =>
        refine ⟨1, _, by omega, .fail hstop herr, ?_⟩
        rw [hcycle] at herr ⊢
        simp [runWithin, hab, hend, herr]
      | none =>
        have hcount := (cycle_completed hab hend herr).2
        obtain ⟨k, o, hk, hloop, hrun⟩ :=
          ih e.cycle.engine (seen ++ e.cycle.events) (cycle_limit hm) (by omega)
        refine ⟨k + 1, _, by omega, .next hstop herr hloop, ?_⟩
        rw [hcycle] at herr hrun ⊢
        simp [runWithin, hab, hend, herr, hrun]

/-- **A run is what the loop returns**, within the cycles that the limit leaves. -/
theorem run_loop (hm : e.program.config.maxCycles = some m) :
    ∃ k, k ≤ m.toNat - e.cycles ∧ e.Loop k e.run := by
  have hbound : e.program.config.cycleBound = m.toNat := by simp [Config.cycleBound, hm]
  obtain ⟨k, o, hk, hloop, hrun⟩ := runWithin_loop _ e #[] hm rfl
  refine ⟨k, hk, ?_⟩
  rw [run, hbound, hrun]
  simpa using hloop

end

/-! ## Where the loop leads -/

/-- The loop leads where its cycles lead, and tells what they tell. -/
theorem Loop.calls {k : Nat} {o : Outcome} (h : e.Loop k o) :
    o.engine = e.callAll (List.replicate k .cycle) ∧
      o.events = e.history (List.replicate k .cycle) := by
  induction h with
  | stop _ => exact ⟨rfl, rfl⟩
  | fail _ _ => exact ⟨rfl, (List.append_nil _).symm⟩
  | next _ _ _ ih =>
    obtain ⟨hengine, hevents⟩ := ih
    refine ⟨hengine, ?_⟩
    rw [hevents]
    rfl

/-- Only a cycle that meets a word that means nothing fails. -/
theorem cycle_failed (hab : e.aborted = none) {error : EngineError} (h : e.cycle.error = some error) :
    ∃ id x y cause, error = .decode id x y cause ∧ e.cycle.engine.aborted = some cause := by
  cases hend : e.isEnded with
  | true => simp [cycle, hab, hend] at h
  | false =>
    rw [cycle_of_active hab hend] at h ⊢
    rcases e.advance_cases with ⟨_, _, _, heq⟩ | ⟨_, p, _, _, _, cause, _, _, _, heq⟩ |
      ⟨_, _, _, _, _, _, _, _, _, _, heq⟩
    · rw [heq] at h
      cases h
    · rw [heq] at h ⊢
      cases h
      exact ⟨_, _, _, cause, rfl, rfl⟩
    · rw [heq] at h
      cases h

/-- **The four ways in which the loop ends**, under a limit: at the end of the program; at the limit, after
all the cycles that it left; at a word that means nothing, in the last cycle; or at once, because the
engine was aborted before. -/
theorem Loop.ends {m : UInt64} {k : Nat} {o : Outcome} (h : e.Loop k o)
    (hm : e.program.config.maxCycles = some m) :
    (o.error = none ∧ o.engine.aborted = none ∧ o.engine.isEnded = true) ∨
    (o.error = some (.cycleLimit m.toNat) ∧ o.engine.aborted = none ∧ o.engine.isEnded = false ∧
      o.engine.cycles = max m.toNat e.cycles ∧ k = m.toNat - e.cycles) ∨
    (∃ id x y cause, o.error = some (.decode id x y cause) ∧ o.engine.aborted = some cause ∧
      e.aborted = none ∧ 0 < k ∧
      (e.callAll (List.replicate (k - 1) .cycle)).cycle.error = o.error) ∨
    (∃ cause, o.error = some (.aborted cause) ∧ o.engine = e ∧ e.aborted = some cause ∧ k = 0) := by
  induction h with
  | stop rests =>
    rcases stop?_limited hm with ⟨cause, hab, hstop⟩ | ⟨hab, hend, hstop⟩ | ⟨hab, hend, hle, hstop⟩ |
      ⟨_, _, _, hstop⟩
    · rw [rests] at hstop
      cases hstop
      exact .inr (.inr (.inr ⟨cause, rfl, rfl, hab, rfl⟩))
    · rw [rests] at hstop
      cases hstop
      exact .inl ⟨rfl, hab, hend⟩
    · rw [rests] at hstop
      cases hstop
      exact .inr (.inl ⟨rfl, hab, hend, by simp only; omega, by omega⟩)
    · rw [rests] at hstop
      cases hstop
  | fail goes fails =>
    obtain ⟨hab, _, _⟩ := active_of_stop?_none goes
    obtain ⟨id, x, y, cause, rfl, hab'⟩ := cycle_failed hab fails
    exact .inr (.inr (.inl ⟨id, x, y, cause, rfl, hab', hab, Nat.one_pos, fails⟩))
  | @next e k o goes completes rest ih =>
    obtain ⟨hab, hend, hlimit⟩ := active_of_stop?_none goes
    have hlt := hlimit m hm
    obtain ⟨hab', hcount⟩ := cycle_completed hab hend completes
    rcases ih (cycle_limit hm) with hended | ⟨herr, halive, hgoing, hcycles, hk⟩ |
      ⟨id, x, y, cause, herr, hcause, _, hk, hlast⟩ | ⟨cause, _, _, hcause, _⟩
    · exact .inl hended
    · exact .inr (.inl ⟨herr, halive, hgoing, by simp only; omega, by omega⟩)
    · refine .inr (.inr (.inl ⟨id, x, y, cause, herr, hcause, hab, Nat.succ_pos k, ?_⟩))
      obtain ⟨j, rfl⟩ : ∃ j, k = j + 1 := ⟨k - 1, by omega⟩
      exact hlast
    · rw [hab'] at hcause
      cases hcause

section

variable {m : UInt64} {k : Nat} {o : Outcome}

theorem Loop.succeeds_iff (h : e.Loop k o) (hm : e.program.config.maxCycles = some m) :
    o.error = none ↔ o.engine.aborted = none ∧ o.engine.isEnded = true := by
  rcases h.ends hm with ⟨herr, hab, hend⟩ | ⟨herr, _, hend, _⟩ | ⟨_, _, _, _, herr, hab, _⟩ |
    ⟨_, herr, heq, hab, _⟩
  · simp [herr, hab, hend]
  · simp [herr, hend]
  · simp [herr, hab]
  · simp [herr, heq, hab]

/-- A loop that reports the limit has made all the cycles that the limit left. -/
theorem Loop.exhausted (h : e.Loop k o) (hm : e.program.config.maxCycles = some m)
    (herr : o.error = some (.cycleLimit m.toNat)) :
    o.engine.aborted = none ∧ o.engine.isEnded = false ∧
      o.engine.cycles = max m.toNat e.cycles ∧ k = m.toNat - e.cycles := by
  rcases h.ends hm with ⟨herr', _⟩ | ⟨_, hexhausted⟩ | ⟨_, _, _, _, herr', _⟩ | ⟨_, herr', _⟩
  · rw [herr] at herr'; cases herr'
  · exact hexhausted
  · rw [herr] at herr'; cases herr'
  · rw [herr] at herr'; cases herr'

theorem Loop.exhausted_iff (h : e.Loop k o) (hm : e.program.config.maxCycles = some m) :
    o.error = some (.cycleLimit m.toNat) ↔
      o.engine.aborted = none ∧ o.engine.isEnded = false ∧ m.toNat ≤ o.engine.cycles := by
  constructor
  · intro herr
    obtain ⟨hab, hend, hcycles, _⟩ := h.exhausted hm herr
    exact ⟨hab, hend, by omega⟩
  · rintro ⟨hab, hend, _⟩
    rcases h.ends hm with ⟨_, _, hend'⟩ | ⟨herr, _⟩ | ⟨_, _, _, _, _, hab', _⟩ | ⟨_, _, heq, hab', _⟩
    · rw [hend] at hend'; cases hend'
    · exact herr
    · rw [hab] at hab'; cases hab'
    · rw [heq, hab'] at hab; cases hab

/-- A loop that fails otherwise, and did not start with an aborted engine, fails in its last cycle. -/
theorem Loop.failed (h : e.Loop k o) (hm : e.program.config.maxCycles = some m)
    (hab : e.aborted = none) (herr : o.error ≠ none)
    (hlimit : o.error ≠ some (.cycleLimit m.toNat)) :
    0 < k ∧ (∃ id x y cause, o.error = some (.decode id x y cause)) ∧
      (e.callAll (List.replicate (k - 1) .cycle)).cycle.error = o.error := by
  rcases h.ends hm with ⟨hok, _⟩ | ⟨hreached, _⟩ | ⟨id, x, y, cause, hdecode, _, _, hpos, hlast⟩ |
    ⟨_, _, _, hab', _⟩
  · exact absurd hok herr
  · exact absurd hreached hlimit
  · exact ⟨hpos, ⟨id, x, y, cause, hdecode⟩, hlast⟩
  · rw [hab] at hab'; cases hab'

end

/-! ## Without a limit -/

/-- The checks look for an abort and for the end alone. -/
theorem stop?_unlimited (hm : e.program.config.maxCycles = none) {result : Option EngineError}
    (h : e.stop? = some result) :
    (∃ cause, e.aborted = some cause ∧ result = some (.aborted cause)) ∨
      (e.aborted = none ∧ e.isEnded = true ∧ result = none) := by
  rcases e.stop?_cases with ⟨cause, hab, hstop⟩ | ⟨hab, hend, hstop⟩ | ⟨m, hm', _⟩ | ⟨_, _, _, hstop⟩
  · exact .inl ⟨cause, hab, Option.some.inj (h.symm.trans hstop)⟩
  · exact .inr ⟨hab, hend, Option.some.inj (h.symm.trans hstop)⟩
  · rw [hm] at hm'; cases hm'
  · rw [h] at hstop; cases hstop

/-- A budget that is long enough for the loop does not matter. -/
theorem Loop.runWithin_unlimited {k : Nat} {o : Outcome} (h : e.Loop k o)
    (hm : e.program.config.maxCycles = none) {budget : Nat} (hbudget : k ≤ budget) (seen : Array Event) :
    e.runWithin budget seen = ⟨o.engine, o.error, seen.toList ++ o.events⟩ := by
  induction h generalizing budget seen with
  | stop rests =>
    rcases stop?_unlimited hm rests with ⟨cause, hab, rfl⟩ | ⟨hab, hend, rfl⟩
    · cases budget <;> simp [runWithin, hab]
    · cases budget <;> simp [runWithin, hab, hend]
  | fail goes fails =>
    obtain ⟨hab, hend, _⟩ := active_of_stop?_none goes
    obtain ⟨budget, rfl⟩ : ∃ b, budget = b + 1 := ⟨budget - 1, by omega⟩
    rw [cycle_of_active hab hend] at fails ⊢
    simp [runWithin, hab, hend, fails]
  | @next e k o goes completes rest ih =>
    obtain ⟨hab, hend, _⟩ := active_of_stop?_none goes
    obtain ⟨budget, rfl⟩ : ∃ b, budget = b + 1 := ⟨budget - 1, by omega⟩
    have hrest := fun seen => ih (cycle_limit hm) (show k ≤ budget by omega) seen
    rw [cycle_of_active hab hend] at completes hrest ⊢
    simp [runWithin, hab, hend, completes, hrest]

/-- **A run without a limit is what the loop returns**, if the loop returns while cycles can be counted in
64 bits. -/
theorem Loop.run_unlimited {k : Nat} {o : Outcome} (h : e.Loop k o)
    (hm : e.program.config.maxCycles = none) (hk : e.cycles + k ≤ UInt64.size) : e.run = o := by
  have hbudget : k ≤ e.program.config.cycleBound - e.cycles := by
    rw [Config.cycleBound, hm]
    exact Nat.le_sub_of_add_le (Nat.add_comm k e.cycles ▸ hk)
  rw [run, h.runWithin_unlimited hm hbudget]
  simp

/-! ## With any limit, or none -/

theorem ended_of_stop? (h : e.stop? = some none) : e.aborted = none ∧ e.isEnded = true := by
  rcases e.stop?_cases with ⟨_, _, hstop⟩ | ⟨hab, hend, _⟩ | ⟨_, _, _, _, _, hstop⟩ | ⟨_, _, _, hstop⟩
  · rw [h] at hstop; cases hstop
  · exact ⟨hab, hend⟩
  · rw [h] at hstop; cases hstop
  · rw [h] at hstop; cases hstop

/-- A loop that succeeds has come to the end of the program. -/
theorem Loop.ended_of_succeeds {k : Nat} {o : Outcome} (h : e.Loop k o) (herr : o.error = none) :
    o.engine.aborted = none ∧ o.engine.isEnded = true := by
  induction h with
  | stop rests =>
    cases herr
    exact ended_of_stop? rests
  | fail _ _ => cases herr
  | next _ _ _ ih => exact ih herr

/-- So has a run, whatever budget it has. -/
theorem ended_of_runWithin_succeeds :
    ∀ (budget : Nat) (e : Engine) (seen : Array Event), (e.runWithin budget seen).error = none →
      (e.runWithin budget seen).engine.aborted = none ∧
        (e.runWithin budget seen).engine.isEnded = true := by
  intro budget
  induction budget with
  | zero =>
    intro e seen herr
    unfold runWithin at herr ⊢
    split at herr
    · cases herr
    · rename_i hab
      split at herr
      · rename_i hend
        simp [hab, hend]
      · cases herr
  | succ budget ih =>
    intro e seen herr
    unfold runWithin at herr ⊢
    split at herr
    · cases herr
    · rename_i hab
      split at herr
      · rename_i hend
        simp [hab, hend]
      · rename_i hend
        simp only at herr
        split at herr
        · cases herr
        · rename_i hok
          simp only [hend, hok]
          exact ih _ _ herr

/-! ## Another limit -/

/-- The same engine under another configuration. -/
def configured (e : Engine) (config : Config) : Engine :=
  { e with program := { e.program with config } }

section

variable (e : Engine) (config : Config)

@[simp] theorem configured_config : (e.configured config).program.config = config := rfl
@[simp] theorem configured_aborted : (e.configured config).aborted = e.aborted := rfl
@[simp] theorem configured_isEnded : (e.configured config).isEnded = e.isEnded := rfl
@[simp] theorem configured_cycles : (e.configured config).cycles = e.cycles := rfl

theorem advance_configured :
    (e.configured config).advance.error = e.advance.error ∧
      (e.configured config).advance.engine = e.advance.engine.configured config := by
  have hpass : stepAll (e.configured config).program (e.configured config).shared
      (e.configured config).pistons = stepAll e.program e.shared e.pistons := by
    refine stepAll_congr (fun p _ s => ?_) e.shared
    rfl
  unfold advance
  rw [hpass]
  simp only
  split <;> exact ⟨rfl, rfl⟩

/-- A cycle does not look at the configuration. -/
theorem cycle_configured :
    (e.configured config).cycle.error = e.cycle.error ∧
      (e.configured config).cycle.engine = e.cycle.engine.configured config := by
  unfold cycle
  rw [configured_aborted, configured_isEnded]
  split
  · exact ⟨rfl, rfl⟩
  · split
    · exact ⟨rfl, rfl⟩
    · exact e.advance_configured config

end

theorem cycles_configured (config : Config) :
    ∀ (k : Nat) (e : Engine), (e.configured config).callAll (List.replicate k .cycle) =
      (e.callAll (List.replicate k .cycle)).configured config
  | 0, _ => rfl
  | k + 1, e => by
    show (e.configured config).cycle.engine.callAll (List.replicate k .cycle) =
      (e.cycle.engine.callAll (List.replicate k .cycle)).configured config
    rw [(cycle_configured e config).2, cycles_configured config k]

section

variable {m n : UInt64} {config : Config}

/-- Unless it finds the lower limit reached, the check finds the same under a higher one. -/
theorem stop?_configured (hm : e.program.config.maxCycles = some m) (hn : config.maxCycles = some n)
    (hle : m ≤ n) (h : e.stop? ≠ some (some (.cycleLimit m.toNat))) :
    (e.configured config).stop? = e.stop? := by
  have hle' : m.toNat ≤ n.toNat := UInt64.le_iff_toNat_le.mp hle
  rcases stop?_limited hm with ⟨cause, hab, hstop⟩ | ⟨hab, hend, hstop⟩ | ⟨_, _, _, hstop⟩ |
    ⟨hab, hend, hlt, hstop⟩
  · rw [hstop]
    simp [stop?, hab]
  · rw [hstop]
    simp [stop?, hab, hend]
  · exact absurd hstop h
  · have hnot : ¬n.toNat ≤ e.cycles := by omega
    rw [hstop]
    simp [stop?, hab, hend, hn, hnot]

/-- **A loop that ends before its limit ends in the same way under a higher one.** -/
theorem Loop.configured {k : Nat} {o : Outcome} (h : e.Loop k o)
    (hm : e.program.config.maxCycles = some m) (hn : config.maxCycles = some n) (hle : m ≤ n)
    (herr : o.error ≠ some (.cycleLimit m.toNat)) :
    ∃ o', (e.configured config).Loop k o' ∧ o'.error = o.error ∧
      o'.engine = o.engine.configured config := by
  induction h with
  | @stop e result rests =>
    have hsame := stop?_configured hm hn hle (by rw [rests]; exact fun heq => herr (Option.some.inj heq))
    exact ⟨_, .stop (hsame.trans rests), rfl, rfl⟩
  | @fail e error goes fails =>
    have hsame := stop?_configured hm hn hle (by rw [goes]; exact nofun)
    obtain ⟨herror, hengine⟩ := e.cycle_configured config
    exact ⟨_, .fail (hsame.trans goes) (herror.trans fails), rfl, hengine⟩
  | @next e k o goes completes rest ih =>
    have hsame := stop?_configured hm hn hle (by rw [goes]; exact nofun)
    obtain ⟨herror, hengine⟩ := e.cycle_configured config
    obtain ⟨o', hloop, herr', hengine'⟩ := ih (cycle_limit hm) herr
    rw [← hengine] at hloop
    exact ⟨_, .next (hsame.trans goes) (herror.trans completes) hloop, herr', hengine'⟩

/-- So does a run. -/
theorem run_configured (hm : e.program.config.maxCycles = some m) (hn : config.maxCycles = some n)
    (hle : m ≤ n) (herr : e.run.error ≠ some (.cycleLimit m.toNat)) :
    (e.configured config).run.error = e.run.error ∧
      (e.configured config).run.engine = e.run.engine.configured config := by
  obtain ⟨k, _, hloop⟩ := run_loop hm
  obtain ⟨o, hloop', herror, hengine⟩ := hloop.configured hm hn hle herr
  obtain ⟨k', _, hrun⟩ := run_loop (e := e.configured config) hn
  obtain ⟨_, heq⟩ := hloop'.unique hrun
  rw [heq]
  exact ⟨herror, hengine⟩

end

end Engine

/-- **A run is a bounded iteration of single cycles.** Under a limit the loop of a run returns, in one way
only, after `k` cycles that the limit leaves room for, with the engine and the events of these cycles; the
end, the limit, a decode error in the last cycle and an earlier abort are told apart exactly.  Without a
limit a run is what the loop returns, if it does.  For a new engine, a run that ends below a limit is the
same under every higher one. -/
theorem run_bounded_iteration :
    (∀ (e : Engine) (m : UInt64), e.program.config.maxCycles = some m →
      ∃ k, k ≤ m.toNat - e.cycles ∧
        (∀ k' o, e.Loop k' o ↔ k' = k ∧ o = e.run) ∧
        e.run.engine = e.callAll (List.replicate k .cycle) ∧
        e.run.events = e.history (List.replicate k .cycle) ∧
        (e.run.error = none ↔ e.run.engine.aborted = none ∧ e.run.engine.isEnded = true) ∧
        (e.run.error = some (.cycleLimit m.toNat) ↔
          e.run.engine.aborted = none ∧ e.run.engine.isEnded = false ∧
            m.toNat ≤ e.run.engine.cycles) ∧
        (e.run.error = some (.cycleLimit m.toNat) → e.run.engine.cycles = max m.toNat e.cycles) ∧
        (∀ cause, e.aborted = some cause → k = 0 ∧ e.run.error = some (.aborted cause)) ∧
        (e.aborted = none → e.run.error ≠ none → e.run.error ≠ some (.cycleLimit m.toNat) →
          0 < k ∧ (∃ id x y cause, e.run.error = some (.decode id x y cause)) ∧
            (e.callAll (List.replicate (k - 1) .cycle)).cycle.error = e.run.error)) ∧
    (∀ (e : Engine) (k : Nat) (o : Outcome), e.program.config.maxCycles = none → e.Loop k o →
      e.cycles + k ≤ UInt64.size → e.run = o) ∧
    ∀ (program : Program) (low high : Config) (m n : UInt64), low.maxCycles = some m →
      high.maxCycles = some n → m ≤ n →
      let short := (Engine.start { program with config := low }).engine.run
      let long := (Engine.start { program with config := high }).engine
      ((short.error = none ∨ ∃ id x y cause, short.error = some (.decode id x y cause)) →
        long.run.error = short.error ∧ long.run.engine = short.engine.configured high) ∧
      (short.error = some (.cycleLimit m.toNat) →
        long.callAll (List.replicate m.toNat .cycle) = short.engine.configured high) := by
  refine ⟨?_, fun _ _ _ hm hloop hk => hloop.run_unlimited hm hk, ?_⟩
  · intro e m hm
    obtain ⟨k, hk, hloop⟩ := Engine.run_loop hm
    refine ⟨k, hk, fun k' o => ⟨hloop.unique, ?_⟩, hloop.calls.1, hloop.calls.2, hloop.succeeds_iff hm,
      hloop.exhausted_iff hm, fun herr => (hloop.exhausted hm herr).2.2.1, ?_, hloop.failed hm⟩
    · rintro ⟨rfl, rfl⟩
      exact hloop
    · intro cause hab
      have hstop : e.Loop 0 ⟨e, some (.aborted cause), []⟩ := .stop (by simp [Engine.stop?, hab])
      obtain ⟨rfl, hrun⟩ := hstop.unique hloop
      exact ⟨rfl, by rw [hrun]⟩
  · intro program low high m n hlow hhigh hle short long
    have hlong : long = (Engine.start { program with config := low }).engine.configured high := rfl
    constructor
    · intro hended
      have hbelow : short.error ≠ some (.cycleLimit m.toNat) := by
        rcases hended with herr | ⟨_, _, _, _, herr⟩ <;> simp [herr]
      rw [hlong]
      exact Engine.run_configured hlow hhigh hle hbelow
    · intro hlimit
      obtain ⟨k, _, hloop⟩ :=
        Engine.run_loop (e := (Engine.start { program with config := low }).engine) hlow
      obtain ⟨_, _, _, hk⟩ := hloop.exhausted hlow hlimit
      -- a new engine has made no cycle yet, so the limit left all of them
      have hk : k = m.toNat := hk
      rw [hlong, Engine.cycles_configured, ← hk, ← hloop.calls.1]

/-- A piston that walks to an `END` and ends in its fourth cycle. -/
def fourCycles : Program := .onBlank [((3, 0), .plain 0xF 0)] [⟨0, 0, .right⟩]

/-- Under a limit of two cycles it is stopped on its way, in the state that it has under a limit of nine
after two cycles; a limit of four is high enough, and so is none. -/
theorem run_bounded_iteration_fourCycles :
    let under := fun m : UInt64 =>
      (Engine.start { fourCycles with config := ⟨"walk", some m⟩ }).engine
    (under 2).run.error = some (.cycleLimit 2) ∧
      (under 9).callAll (List.replicate 2 .cycle) = (under 2).run.engine.configured ⟨"walk", some 9⟩ ∧
      (under 4).run.error = none ∧
      (under 9).run.error = (under 4).run.error ∧
      (under 9).run.engine = (under 4).run.engine.configured ⟨"walk", some 9⟩ ∧
      (∃ k ≤ 9, (under 9).run.engine = (under 9).callAll (List.replicate k .cycle)) ∧
      ∃ o, (Engine.start fourCycles).engine.Loop 4 o ∧ (Engine.start fourCycles).engine.run = o := by
  intro under
  have hshort : (under 2).run.error = some (.cycleLimit 2) := by decide +kernel
  have hlong : (under 4).run.error = none := by decide +kernel
  obtain ⟨hrun, hunlimited, hlimits⟩ := run_bounded_iteration
  have hstopped := (hlimits fourCycles ⟨"walk", some 2⟩ ⟨"walk", some 9⟩ 2 9 rfl rfl (by decide)).2 hshort
  have hended :=
    (hlimits fourCycles ⟨"walk", some 4⟩ ⟨"walk", some 9⟩ 4 9 rfl rfl (by decide)).1 (.inl hlong)
  obtain ⟨k, hk, _, hengine, _⟩ := hrun (under 9) 9 rfl
  have hloop : ∃ o, (Engine.start fourCycles).engine.Loop 4 o :=
    ⟨_, .next (by decide +kernel) (by decide +kernel) (.next (by decide +kernel) (by decide +kernel)
      (.next (by decide +kernel) (by decide +kernel) (.next (by decide +kernel) (by decide +kernel)
        (.stop (show _ = some none by decide +kernel)))))⟩
  obtain ⟨o, hloop⟩ := hloop
  exact ⟨hshort, hstopped, hlong, hended.1, hended.2, ⟨k, hk, hengine⟩, o, hloop,
    hunlimited _ 4 o rfl hloop (by decide)⟩

end PistonGrid
