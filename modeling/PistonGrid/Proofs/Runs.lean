import PistonGrid.Engine.Call

/-!
# From one cycle to every run

An engine is driven by calls, and a `run` is itself a loop of cycles. What this module provides lets
every later proof look at a reset, a kill and a single cycle only.

* `Program.after`, `Program.chronicle` — the engine of a program after a sequence of calls, and all
  that has happened in it since it was made.
* `Engine.run_cycles` — a run is a number of cycles.  `Engine.exists_without_run` — whatever can happen
  to an engine can happen to it without a run.
* `Maintained` — what has to be shown of a property of an engine and its past.
  `Maintained.after` — such a property holds after every sequence of calls.
* `Told` — what has to be shown of a property of events.  `Maintained.chronicle` — then all that ever
  happens has it.
* `Simulation` — what has to be shown of a relation between two engines.
  `Simulation.callAll` — engines so related return the same results, and stay related.
-/

set_option autoImplicit false

namespace PistonGrid

namespace Program

/-- The engine of a program after a sequence of calls. -/
def after (program : Program) (calls : List Call) : Engine :=
  (Engine.start program).engine.callAll calls

/-- All events of that engine, from its first reset on. -/
def chronicle (program : Program) (calls : List Call) : List Event :=
  (Engine.start program).events ++ (Engine.start program).engine.history calls

end Program

namespace Engine

/-- What the calls of a sequence return, in order. -/
def results : Engine → List Call → List (Option EngineError)
  | _, [] => []
  | e, c :: calls => (e.call c).error :: results (e.call c).engine calls

theorem advance_program (e : Engine) : e.advance.engine.program = e.program := by
  unfold advance
  simp only
  split <;> rfl

end Engine

/-! ## Runs are cycles -/

namespace Engine

theorem cycle_of_active {e : Engine} (hab : e.aborted = none) (hend : e.isEnded = false) :
    e.cycle = e.advance := by
  simp [cycle, hab, hend]

theorem isEnded_of_mem {e : Engine} {p : Piston} (hp : p ∈ e.pistons) : e.isEnded = false := by
  simp [isEnded, List.ne_nil_of_mem hp]

theorem callAll_append (e : Engine) (first second : List Call) :
    e.callAll (first ++ second) = (e.callAll first).callAll second := List.foldl_append

theorem history_append :
    ∀ (first second : List Call) (e : Engine),
      e.history (first ++ second) = e.history first ++ (e.callAll first).history second
  | [], _, _ => rfl
  | c :: first, second, e => by
    rw [List.cons_append, history, history_append first second, history, List.append_assoc]
    rfl

/-- The loop of a run makes one cycle after the other, and tells what these tell. -/
theorem runWithin_cycles :
    ∀ (budget : Nat) (e : Engine) (seen : Array Event),
      ∃ n, (e.runWithin budget seen).engine = e.callAll (List.replicate n .cycle) ∧
        (e.runWithin budget seen).events = seen.toList ++ e.history (List.replicate n .cycle) := by
  intro budget
  induction budget with
  | zero =>
    intro e seen
    refine ⟨0, ?_⟩
    unfold runWithin
    split
    · exact ⟨rfl, (List.append_nil _).symm⟩
    · split <;> exact ⟨rfl, (List.append_nil _).symm⟩
  | succ budget ih =>
    intro e seen
    unfold runWithin
    split
    · exact ⟨0, rfl, (List.append_nil _).symm⟩
    · rename_i hab
      split
      · exact ⟨0, rfl, (List.append_nil _).symm⟩
      · rename_i hend
        have hcycle : e.call .cycle = e.advance := cycle_of_active hab (by simpa using hend)
        simp only
        split
        · refine ⟨1, ?_, ?_⟩
          · rw [← hcycle]
            rfl
          · rw [List.replicate_one, history, hcycle, history]
            simp
        · obtain ⟨n, hengine, hevents⟩ := ih e.advance.engine (seen ++ e.advance.events)
          refine ⟨n + 1, ?_, ?_⟩
          · rw [hengine, ← hcycle]
            rfl
          · rw [hevents, List.replicate_succ, history, hcycle]
            simp

theorem run_cycles (e : Engine) :
    ∃ n, e.run.engine = e.callAll (List.replicate n .cycle) ∧
      e.run.events = e.history (List.replicate n .cycle) :=
  runWithin_cycles _ e #[]

/-- For every sequence of calls there is one without a run that leads to the same engine and tells the
same events. -/
theorem exists_without_run :
    ∀ (calls : List Call) (e : Engine), ∃ calls' : List Call, .run ∉ calls' ∧
      e.callAll calls' = e.callAll calls ∧ e.history calls' = e.history calls
  | [], _ => ⟨[], by simp, rfl, rfl⟩
  | c :: calls, e => by
    obtain ⟨calls', hrun, hengine, hevents⟩ := exists_without_run calls (e.call c).engine
    by_cases hc : c = .run
    · subst hc
      obtain ⟨n, hn, hn'⟩ := e.run_cycles
      have hfirst : e.callAll (List.replicate n .cycle) = (e.call .run).engine := hn.symm
      refine ⟨List.replicate n .cycle ++ calls', by simp [hrun], ?_, ?_⟩
      · rw [callAll_append, hfirst, hengine]
        rfl
      · rw [history_append, hfirst, hevents, ← hn']
        rfl
    · refine ⟨c :: calls', by simp [hrun, Ne.symm hc], hengine, ?_⟩
      rw [history, hevents, history]

end Engine

/-! ## Invariants -/

/-- A property of an engine and of what has happened in it so far, kept by a reset, by a kill and by
every cycle that is carried out. -/
structure Maintained (program : Program) (I : List Event → Engine → Prop) : Prop where
  reset : ∀ (past : List Event) (e : Engine), e.program = program → I (past ++ e.reset.events) e.reset.engine
  kill : ∀ (past : List Event) (e : Engine), e.program = program → I past e → I past e.kill
  advance : ∀ (past : List Event) (e : Engine), e.program = program → e.aborted = none →
    e.isEnded = false → I past e → I (past ++ e.advance.events) e.advance.engine

/-- A property of single events, which those of every reset and of every cycle that is carried out
have. -/
structure Told (program : Program) (I : List Event → Engine → Prop) (P : Event → Prop) : Prop where
  reset : ∀ e : Engine, ∀ ev ∈ e.reset.events, P ev
  advance : ∀ (past : List Event) (e : Engine), e.program = program → e.aborted = none →
    e.isEnded = false → I past e → ∀ ev ∈ e.advance.events, P ev

namespace Maintained

variable {program : Program} {I : List Event → Engine → Prop}

theorem cycle (hI : Maintained program I) {past : List Event} {e : Engine}
    (hp : e.program = program) (h : I past e) :
    e.cycle.engine.program = program ∧ I (past ++ e.cycle.events) e.cycle.engine := by
  unfold Engine.cycle
  split
  · simpa using ⟨hp, h⟩
  · rename_i hab
    split
    · simpa using ⟨hp, h⟩
    · rename_i hend
      exact ⟨by rw [Engine.advance_program, hp], hI.advance past e hp hab (by simpa using hend) h⟩

/-- The loop of a run: `seen` holds the events of the cycles that are done. -/
theorem runWithin (hI : Maintained program I) (past : List Event) :
    ∀ (budget : Nat) (e : Engine) (seen : Array Event), e.program = program →
      I (past ++ seen.toList) e →
      (e.runWithin budget seen).engine.program = program ∧
        I (past ++ (e.runWithin budget seen).events) (e.runWithin budget seen).engine := by
  intro budget
  induction budget with
  | zero =>
    intro e seen hp h
    unfold Engine.runWithin
    split
    · exact ⟨hp, h⟩
    · split <;> exact ⟨hp, h⟩
  | succ budget ih =>
    intro e seen hp h
    unfold Engine.runWithin
    split
    · exact ⟨hp, h⟩
    · rename_i hab
      split
      · exact ⟨hp, h⟩
      · rename_i hend
        have hp' : e.advance.engine.program = program := by rw [Engine.advance_program, hp]
        have h' := hI.advance _ e hp hab (by simpa using hend) h
        have hseen : (seen ++ e.advance.events).toList = seen.toList ++ e.advance.events := by simp
        rw [List.append_assoc, ← hseen] at h'
        simp only
        split
        · exact ⟨hp', h'⟩
        · exact ih _ _ hp' h'

theorem call (hI : Maintained program I) {past : List Event} {e : Engine} (c : Call)
    (hp : e.program = program) (h : I past e) :
    (e.call c).engine.program = program ∧ I (past ++ (e.call c).events) (e.call c).engine := by
  cases c with
  | cycle => exact hI.cycle hp h
  | run => exact hI.runWithin past _ e #[] hp (by simpa using h)
  | kill => exact ⟨hp, by simpa [Engine.call] using hI.kill past e hp h⟩
  | reset => exact ⟨hp, hI.reset past e hp⟩

theorem callAll (hI : Maintained program I) :
    ∀ (calls : List Call) (past : List Event) (e : Engine), e.program = program → I past e →
      (e.callAll calls).program = program ∧ I (past ++ e.history calls) (e.callAll calls)
  | [], past, e, hp, h => by simpa [Engine.callAll, Engine.history] using ⟨hp, h⟩
  | c :: calls, past, e, hp, h => by
    obtain ⟨hp', h'⟩ := hI.call c hp h
    have := hI.callAll calls _ _ hp' h'
    rwa [List.append_assoc] at this

/-- **Invariants of engines.** A maintained property holds after every sequence of calls. -/
theorem after (hI : Maintained program I) (calls : List Call) :
    I (program.chronicle calls) (program.after calls) := by
  have hstart : I (Engine.start program).events (Engine.start program).engine :=
    hI.reset [] _ rfl
  exact (hI.callAll calls _ _ rfl hstart).2

theorem history (hI : Maintained program I) {P : Event → Prop} (hP : Told program I P) :
    ∀ (calls : List Call) (past : List Event) (e : Engine), .run ∉ calls → e.program = program →
      I past e → ∀ ev ∈ e.history calls, P ev
  | [], _, _, _, _, _ => by simp [Engine.history]
  | c :: calls, past, e, hrun, hp, h => by
    obtain ⟨hp', h'⟩ := hI.call c hp h
    have hcalls := hI.history hP calls _ _ (List.not_mem_of_not_mem_cons hrun) hp' h'
    rw [Engine.history]
    refine List.forall_mem_append.mpr ⟨?_, hcalls⟩
    cases c with
    | run => exact absurd rfl (List.ne_of_not_mem_cons hrun)
    | kill => simp [Engine.call]
    | reset => exact hP.reset e
    | cycle =>
      show ∀ ev ∈ e.cycle.events, P ev
      unfold Engine.cycle
      split
      · simp
      · rename_i hab
        split
        · simp
        · rename_i hend
          exact hP.advance past e hp hab (by simpa using hend) h

/-- **What is ever told.** A property of the events of every reset and of every cycle, under a
maintained invariant, is one of everything that happens. -/
theorem chronicle (hI : Maintained program I) {P : Event → Prop} (hP : Told program I P)
    (calls : List Call) : ∀ ev ∈ program.chronicle calls, P ev := by
  have hstart : I (Engine.start program).events (Engine.start program).engine :=
    hI.reset [] _ rfl
  obtain ⟨calls', hrun, _, hevents⟩ :=
    Engine.exists_without_run calls (Engine.start program).engine
  refine List.forall_mem_append.mpr ⟨hP.reset _, ?_⟩
  rw [← hevents]
  exact hI.history hP calls' _ _ hrun rfl hstart

end Maintained

theorem Maintained.nothing (program : Program) : Maintained program fun _ _ => True :=
  ⟨fun _ _ _ => trivial, fun _ _ _ _ => trivial, fun _ _ _ _ _ _ => trivial⟩

theorem Engine.call_program (e : Engine) (c : Call) : (e.call c).engine.program = e.program :=
  ((Maintained.nothing e.program).callAll [c] [] e rfl trivial).1

theorem Program.after_program (program : Program) (calls : List Call) :
    (program.after calls).program = program :=
  ((Maintained.nothing program).callAll calls [] _ rfl trivial).1

/-- A second property may be shown to be maintained with the help of the first. -/
theorem Maintained.and {program : Program} {I J : List Event → Engine → Prop}
    (hI : Maintained program I)
    (hreset : ∀ (past : List Event) (e : Engine), e.program = program →
      J (past ++ e.reset.events) e.reset.engine)
    (hkill : ∀ (past : List Event) (e : Engine), e.program = program → I past e → J past e →
      J past e.kill)
    (hadvance : ∀ (past : List Event) (e : Engine), e.program = program → e.aborted = none →
      e.isEnded = false → I past e → J past e → J (past ++ e.advance.events) e.advance.engine) :
    Maintained program fun past e => I past e ∧ J past e where
  reset past e hp := ⟨hI.reset past e hp, hreset past e hp⟩
  kill past e hp h := ⟨hI.kill past e hp h.1, hkill past e hp h.1 h.2⟩
  advance past e hp hab hend h :=
    ⟨hI.advance past e hp hab hend h.1, hadvance past e hp hab hend h.1 h.2⟩

/-! ## Relations between two engines -/

/-- A relation between engines under which no call can tell them apart: both see the same bound, the
same number of cycles, the same abort and the same end, and the relation survives whatever they do. -/
structure Simulation (R : Engine → Engine → Prop) : Prop where
  bound : ∀ {e₁ e₂ : Engine}, R e₁ e₂ → e₁.program.config.cycleBound = e₂.program.config.cycleBound
  cycles : ∀ {e₁ e₂ : Engine}, R e₁ e₂ → e₁.cycles = e₂.cycles
  aborted : ∀ {e₁ e₂ : Engine}, R e₁ e₂ → e₁.aborted = e₂.aborted
  ended : ∀ {e₁ e₂ : Engine}, R e₁ e₂ → e₁.isEnded = e₂.isEnded
  reset : ∀ {e₁ e₂ : Engine}, R e₁ e₂ → R e₁.reset.engine e₂.reset.engine
  kill : ∀ {e₁ e₂ : Engine}, R e₁ e₂ → R e₁.kill e₂.kill
  advance : ∀ {e₁ e₂ : Engine}, R e₁ e₂ → e₁.aborted = none → e₁.isEnded = false →
    e₁.advance.error = e₂.advance.error ∧ R e₁.advance.engine e₂.advance.engine

namespace Simulation

variable {R : Engine → Engine → Prop}

theorem cycle (hR : Simulation R) {e₁ e₂ : Engine} (h : R e₁ e₂) :
    e₁.cycle.error = e₂.cycle.error ∧ R e₁.cycle.engine e₂.cycle.engine := by
  unfold Engine.cycle
  rw [← hR.aborted h, ← hR.ended h]
  split
  · exact ⟨rfl, h⟩
  · rename_i hab
    split
    · exact ⟨rfl, h⟩
    · rename_i hend
      exact hR.advance h hab (by simpa using hend)

theorem runWithin (hR : Simulation R) :
    ∀ (budget : Nat) (e₁ e₂ : Engine) (seen₁ seen₂ : Array Event), R e₁ e₂ →
      (e₁.runWithin budget seen₁).error = (e₂.runWithin budget seen₂).error ∧
        R (e₁.runWithin budget seen₁).engine (e₂.runWithin budget seen₂).engine := by
  intro budget
  induction budget with
  | zero =>
    intro e₁ e₂ seen₁ seen₂ h
    unfold Engine.runWithin
    rw [← hR.aborted h, ← hR.ended h, ← hR.bound h]
    split
    · exact ⟨rfl, h⟩
    · split <;> exact ⟨rfl, h⟩
  | succ budget ih =>
    intro e₁ e₂ seen₁ seen₂ h
    unfold Engine.runWithin
    rw [← hR.aborted h, ← hR.ended h]
    split
    · exact ⟨rfl, h⟩
    · rename_i hab
      split
      · exact ⟨rfl, h⟩
      · rename_i hend
        obtain ⟨herr, h'⟩ := hR.advance h hab (by simpa using hend)
        simp only
        rw [← herr]
        split
        · exact ⟨rfl, h'⟩
        · exact ih _ _ _ _ h'

theorem call (hR : Simulation R) {e₁ e₂ : Engine} (h : R e₁ e₂) (c : Call) :
    (e₁.call c).error = (e₂.call c).error ∧ R (e₁.call c).engine (e₂.call c).engine := by
  cases c with
  | cycle => exact hR.cycle h
  | run =>
    simp only [Engine.call, Engine.run]
    rw [← hR.bound h, ← hR.cycles h]
    exact hR.runWithin _ _ _ _ _ h
  | kill => exact ⟨rfl, hR.kill h⟩
  | reset => exact ⟨rfl, hR.reset h⟩

/-- **Two runs in step.** Related engines return the same results to every sequence of calls and are
related after it. -/
theorem callAll (hR : Simulation R) :
    ∀ (calls : List Call) (e₁ e₂ : Engine), R e₁ e₂ →
      e₁.results calls = e₂.results calls ∧ R (e₁.callAll calls) (e₂.callAll calls)
  | [], _, _, h => ⟨rfl, h⟩
  | c :: calls, _, _, h => by
    obtain ⟨herr, h'⟩ := hR.call h c
    obtain ⟨hres, hend⟩ := hR.callAll calls _ _ h'
    exact ⟨by rw [Engine.results, Engine.results, herr, hres], hend⟩

end Simulation

end PistonGrid
