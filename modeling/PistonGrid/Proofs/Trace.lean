import PistonGrid.Proofs.Requests
import PistonGrid.Proofs.Runs

/-!
# Traces

What an engine has done since its last reset is a list of moves: the single steps of its pistons, in the
order in which they were taken.  That order goes by cycle, and within a cycle by place in the list; a
cycle that is killed or aborted counts with the steps that were completed.

* `Move` — one step, with the piston and the shared state as it found them.
* `moves`, `Engine.cycleMoves`, `Engine.movesOf` — those of a pass, of a cycle and of a call.
* `Program.trace` — those since the last reset.  `Program.trace_deeds` — they tell exactly what the
  chronicle tells of the pistons since then.
* `Recorded` — what has to be shown of a property of an engine, its past and its trace.
* `Kept` — what has to be shown of a property of pistons, and of one of the shared state and the trace:
  that one step keeps them.  `Kept.after` — then they hold after every sequence of calls.
* `Throughout` — a property of each member of a list and of those in front of it.
-/

set_option autoImplicit false

namespace PistonGrid

/-- One step that was taken: the piston and the shared state before it, and what it left behind. -/
structure Move where
  piston : Piston
  shared : Shared
  step : Step

/-- The steps of a pass, in list order, up to the one that stops it. -/
def moves (program : Program) : Shared → List Piston → List Move
  | _, [] => []
  | s, p :: ps =>
    match p.step program s with
    | .error _ => []
    | .ok st => ⟨p, s, st⟩ :: if st.verdict = .kill then [] else moves program st.shared ps

namespace Engine

/-- The moves of one cycle.  An engine that is aborted or has ended makes none. -/
def cycleMoves (e : Engine) : List Move :=
  if e.aborted.isSome || e.isEnded then [] else moves e.program e.shared e.pistons

/-- The moves of a number of cycles, one after the other. -/
def movesWithin : Nat → Engine → List Move
  | 0, _ => []
  | n + 1, e => e.cycleMoves ++ movesWithin n e.cycle.engine

/-- The moves of one call.  A run makes the cycles that its bound leaves; those after an end or an abort
have no moves. -/
def movesOf (e : Engine) : Call → List Move
  | .cycle => e.cycleMoves
  | .run => movesWithin (e.program.config.cycleBound - e.cycles) e
  | .kill => []
  | .reset => []

/-- The moves since the last reset, if a sequence of calls follows on those `before`. -/
def record (e : Engine) (before : List Move) : List Call → List Move
  | [] => before
  | c :: calls => record (e.call c).engine (if c = .reset then [] else before ++ e.movesOf c) calls

end Engine

/-- The moves since the last reset, after a sequence of calls. -/
def Program.trace (program : Program) (calls : List Call) : List Move :=
  (Engine.start program).engine.record [] calls

/-- What pistons did, one event later; a reset starts afresh. -/
def Event.retell (deeds : List Event) : Event → List Event
  | .reset _ _ _ => []
  | ev => if ev.isDeed then deeds ++ [ev] else deeds

/-- What pistons did since the last reset, in order. -/
def deedsSinceReset (events : List Event) : List Event := events.foldl Event.retell []

/-! ## Passes -/

/-- The moves of a pass tell what the pass tells. -/
theorem moves_events (program : Program) (s : Shared) (ps : List Piston) :
    (moves program s ps).flatMap (·.step.events) = (stepAll program s ps).events := by
  induction ps generalizing s with
  | nil => rfl
  | cons p ps ih =>
    unfold moves stepAll
    cases p.step program s with
    | error cause => rfl
    | ok st =>
      by_cases hk : st.verdict = .kill
      · simp [hk]
      · simp [hk, ih]

/-! ## Cycles and runs -/

namespace Engine

variable {e : Engine}

theorem cycleMoves_of_active (hab : e.aborted = none) (hend : e.isEnded = false) :
    e.cycleMoves = moves e.program e.shared e.pistons := by
  simp [cycleMoves, hab, hend]

/-- An engine that is aborted or has ended makes no moves, however often it is asked to. -/
theorem movesWithin_idle (h : e.aborted.isSome = true ∨ e.isEnded = true) (n : Nat) :
    movesWithin n e = [] := by
  have hcycle : e.cycle.engine = e := by
    unfold cycle
    split
    · rfl
    · rename_i hab
      rcases h with h | h
      · simp [hab] at h
      · simp [h]
  induction n with
  | zero => rfl
  | succ n ih =>
    have hnone : e.cycleMoves = [] := by
      rcases h with h | h <;> simp [cycleMoves, h]
    rw [movesWithin, hcycle, ih, hnone]
    rfl

/-- A cycle that returns an error leaves the engine aborted. -/
theorem aborted_of_advance_error (h : e.advance.error ≠ none) :
    e.advance.engine.aborted.isSome = true := by
  rcases e.advance_cases with ⟨_, _, _, heq⟩ | ⟨_, _, _, _, _, _, _, _, _, heq⟩ |
    ⟨_, _, _, _, _, _, _, _, _, _, heq⟩
  · simp [heq] at h
  · simp [heq]
  · simp [heq] at h

end Engine

/-! ## Properties of an engine, its past and its trace -/

/-- A property of an engine, of what has happened in it and of the moves since its last reset, kept by a
reset, by a kill and by every cycle that is carried out. -/
structure Recorded (program : Program) (I : List Event → List Move → Engine → Prop) : Prop where
  reset : ∀ (past : List Event) (e : Engine), e.program = program →
    I (past ++ e.reset.events) [] e.reset.engine
  kill : ∀ (past : List Event) (trace : List Move) (e : Engine), e.program = program →
    I past trace e → I past trace e.kill
  advance : ∀ (past : List Event) (trace : List Move) (e : Engine), e.program = program →
    e.aborted = none → e.isEnded = false → I past trace e →
    I (past ++ e.advance.events) (trace ++ moves e.program e.shared e.pistons) e.advance.engine

namespace Recorded

variable {program : Program} {I : List Event → List Move → Engine → Prop}

theorem cycle (hI : Recorded program I) {past : List Event} {trace : List Move} {e : Engine}
    (hp : e.program = program) (h : I past trace e) :
    I (past ++ e.cycle.events) (trace ++ e.cycleMoves) e.cycle.engine := by
  cases hab : e.aborted with
  | some cause => simpa [Engine.cycle, Engine.cycleMoves, hab] using h
  | none =>
    cases hend : e.isEnded with
    | true => simpa [Engine.cycle, Engine.cycleMoves, hab, hend] using h
    | false =>
      rw [Engine.cycle_of_active hab hend, Engine.cycleMoves_of_active hab hend]
      exact hI.advance past trace e hp hab hend h

/-- The loop of a run: `seen` holds the events of the cycles that are done. -/
theorem runWithin (hI : Recorded program I) (past : List Event) :
    ∀ (budget : Nat) (e : Engine) (trace : List Move) (seen : Array Event), e.program = program →
      I (past ++ seen.toList) trace e →
      I (past ++ (e.runWithin budget seen).events) (trace ++ e.movesWithin budget)
        (e.runWithin budget seen).engine := by
  intro budget
  induction budget with
  | zero =>
    intro e trace seen hp h
    rw [Engine.movesWithin, List.append_nil]
    unfold Engine.runWithin
    split
    · exact h
    · split <;> exact h
  | succ budget ih =>
    intro e trace seen hp h
    unfold Engine.runWithin
    split
    · rename_i hab
      rw [Engine.movesWithin_idle (.inl (by simp [hab])), List.append_nil]
      exact h
    · rename_i hab
      split
      · rename_i hend
        rw [Engine.movesWithin_idle (.inr hend), List.append_nil]
        exact h
      · rename_i hend
        have hend' : e.isEnded = false := by simpa using hend
        have hp' : e.advance.engine.program = program := by rw [Engine.advance_program, hp]
        have h' := hI.advance _ trace e hp hab hend' h
        have hseen : (seen ++ e.advance.events).toList = seen.toList ++ e.advance.events := by simp
        rw [List.append_assoc, ← hseen] at h'
        rw [Engine.movesWithin, Engine.cycleMoves_of_active hab hend',
          Engine.cycle_of_active hab hend', ← List.append_assoc]
        simp only
        split
        · -- the engine is aborted, so the cycles that are left have no moves
          rename_i error herror
          rw [Engine.movesWithin_idle (.inl (Engine.aborted_of_advance_error (by simp [herror]))),
            List.append_nil]
          exact h'
        · exact ih _ _ _ hp' h'

theorem callAll (hI : Recorded program I) :
    ∀ (calls : List Call) (past : List Event) (trace : List Move) (e : Engine),
      e.program = program → I past trace e →
      I (past ++ e.history calls) (e.record trace calls) (e.callAll calls)
  | [], past, trace, e, _, h => by simpa [Engine.callAll, Engine.history, Engine.record] using h
  | c :: calls, past, trace, e, hp, h => by
    have hp' : (e.call c).engine.program = program := (e.call_program c).trans hp
    have h' : I (past ++ (e.call c).events) (if c = .reset then [] else trace ++ e.movesOf c)
        (e.call c).engine := by
      cases c with
      | cycle => exact hI.cycle hp h
      | run => exact hI.runWithin past _ e trace #[] hp (by simpa using h)
      | kill => simpa [Engine.call, Engine.movesOf] using hI.kill past trace e hp h
      | reset => exact hI.reset past e hp
    have := hI.callAll calls _ _ _ hp' h'
    rwa [List.append_assoc] at this

/-- **Traces.** A recorded property holds after every sequence of calls. -/
theorem after (hI : Recorded program I) (calls : List Call) :
    I (program.chronicle calls) (program.trace calls) (program.after calls) :=
  hI.callAll calls _ _ _ rfl (hI.reset [] _ rfl)

end Recorded

/-! ## The trace and the chronicle -/

theorem deedsSinceReset_append (past events : List Event) :
    deedsSinceReset (past ++ events) = events.foldl Event.retell (deedsSinceReset past) := by
  simp [deedsSinceReset, List.foldl_append]

theorem foldl_retell_deeds {events : List Event} (h : ∀ ev ∈ events, ev.isDeed = true)
    (deeds : List Event) : events.foldl Event.retell deeds = deeds ++ events := by
  induction events generalizing deeds with
  | nil => simp
  | cons ev events ih =>
    obtain ⟨hev, hevents⟩ := List.forall_mem_cons.mp h
    have hretell : ev.retell deeds = deeds ++ [ev] := by
      cases ev with
      | reset => cases hev
      | _ => simp [Event.retell, hev]
    rw [List.foldl_cons, hretell, ih hevents, List.append_assoc]
    rfl

theorem foldl_retell_quiet {events : List Event} (h : ∀ ev ∈ events, ∀ deeds, ev.retell deeds = deeds)
    (deeds : List Event) : events.foldl Event.retell deeds = deeds := by
  induction events generalizing deeds with
  | nil => rfl
  | cons ev events ih =>
    obtain ⟨hev, hevents⟩ := List.forall_mem_cons.mp h
    rw [List.foldl_cons, hev, ih hevents]

/-- What a cycle tells of pistons is what its pass tells. -/
theorem Engine.retell_advance (e : Engine) (deeds : List Event) :
    e.advance.events.foldl Event.retell deeds =
      deeds ++ (stepAll e.program e.shared e.pistons).events := by
  have hpass := foldl_retell_deeds (stepAll_deeds e.program e.shared e.pistons) deeds
  unfold Engine.advance
  simp only
  split
  · rw [List.foldl_append, hpass]
    rfl
  · rw [List.foldl_append, hpass]
    rfl
  · rw [List.foldl_append, hpass]
    exact foldl_retell_quiet (by simp [Event.retell, Event.isDeed]) _

/-- **The trace leaves nothing out.** The moves since the last reset tell, in order, all that the chronicle
tells of what pistons did since then. -/
theorem Program.trace_deeds (program : Program) (calls : List Call) :
    (program.trace calls).flatMap (·.step.events) = deedsSinceReset (program.chronicle calls) := by
  have h : Recorded program fun past trace _ =>
      trace.flatMap (·.step.events) = deedsSinceReset past := by
    refine ⟨?_, fun _ _ _ _ h => h, ?_⟩
    · intro past e _
      rw [deedsSinceReset_append]
      rfl
    · intro past trace e _ _ _ h
      rw [List.flatMap_append, h, moves_events, deedsSinceReset_append, Engine.retell_advance]
  exact h.after calls

/-! ## What one step keeps -/

/-- A property of pistons and one of the trace and the shared state, which hold at the start and are kept
by every single step; entrants that wait in the queue have the first, and the second does not hang on the
queue. -/
structure Kept (program : Program) (P : Piston → Prop) (K : List Move → Shared → Prop) : Prop where
  spawn : ∀ (id : Nat) (s : StartPoint), P (.spawn id s.x.toNat s.y.toNat s.heading)
  fresh : ∀ n : Nat, K [] { Shared.fresh program.input with nextId := n }
  step : ∀ {trace : List Move} {s : Shared} {p : Piston} {st : Step}, P p → K trace s →
    p.step program s = .ok st → P st.piston ∧ K (trace ++ [⟨p, s, st⟩]) st.shared
  waiting : ∀ {trace : List Move} {s : Shared}, K trace s → ∀ p ∈ entrants s.queue, P p
  dequeue : ∀ {trace : List Move} {s : Shared}, K trace s → K trace { s with queue := [] }

namespace Kept

variable {program : Program} {P : Piston → Prop} {K : List Move → Shared → Prop}

/-- What every step keeps, every pass keeps, also one that is stopped. -/
theorem pass (hK : Kept program P K) (ps : List Piston) (trace : List Move) (s : Shared)
    (hps : ∀ p ∈ ps, P p) (h : K trace s) :
    (∀ p ∈ (stepAll program s ps).pistons, P p) ∧
      K (trace ++ moves program s ps) (stepAll program s ps).shared := by
  induction ps generalizing trace s with
  | nil => simpa [stepAll, moves] using h
  | cons p ps ih =>
    obtain ⟨hp, hrest⟩ := List.forall_mem_cons.mp hps
    unfold stepAll moves
    cases hst : p.step program s with
    | error cause => simpa using ⟨⟨hp, hrest⟩, h⟩
    | ok st =>
      obtain ⟨hp', h'⟩ := hK.step hp h hst
      by_cases hk : st.verdict = .kill
      · simpa [hk] using ⟨⟨hp', hrest⟩, h'⟩
      · obtain ⟨hps', h''⟩ := ih (trace ++ [⟨p, s, st⟩]) st.shared hrest h'
        rw [List.append_assoc] at h''
        simpa [hk] using ⟨⟨hp', hps'⟩, h''⟩

/-- Draining brings in nobody but those who waited, and pruning nobody at all. -/
theorem close (hK : Kept program P K) {trace : List Move} {e : Engine} (hps : ∀ p ∈ e.pistons, P p)
    (h : K trace e.shared) : (∀ p ∈ e.close.pistons, P p) ∧ K trace e.close.shared := by
  refine ⟨?_, hK.dequeue h⟩
  intro p hp
  have hmem := (drain_perm _ _).mem_iff.mp (List.mem_filter.mp hp).1
  rcases List.mem_append.mp hmem with hmem | hmem
  · exact hps p hmem
  · exact hK.waiting h p hmem

theorem recorded (hK : Kept program P K) :
    Recorded program fun _ trace e => (∀ p ∈ e.pistons, P p) ∧ K trace e.shared where
  reset _ e hp := by
    refine ⟨?_, ?_⟩
    · intro p hmem
      obtain ⟨i, _, rfl⟩ := List.mem_mapIdx.mp hmem
      exact hK.spawn _ _
    · have hfresh := hK.fresh e.program.plane.starts.length
      rwa [← hp] at hfresh
  kill _ _ e _ h := ⟨by simp [Engine.kill], hK.dequeue h.2⟩
  advance _ trace e hp _ _ h := by
    have hpass := hK.pass e.pistons trace e.shared h.1 h.2
    rw [← hp] at hpass
    unfold Engine.advance
    simp only
    split
    · exact hpass
    · exact hK.close (by simp [Engine.kill]) (hK.dequeue hpass.2)
    · exact hK.close hpass.1 hpass.2

/-- **From one step to every run.** What a single step keeps holds after every sequence of calls. -/
theorem after (hK : Kept program P K) (calls : List Call) :
    (∀ p ∈ (program.after calls).pistons, P p) ∧
      K (program.trace calls) (program.after calls).shared :=
  hK.recorded.after calls

end Kept

/-! ## Each member and what came before it -/

/-- The property holds of each member of a list, together with the members in front of it. -/
def Throughout {α : Type} (Q : List α → α → Prop) (l : List α) : Prop :=
  ∀ before a after, l = before ++ a :: after → Q before a

namespace Throughout

variable {α : Type} {Q : List α → α → Prop} {l : List α}

theorem nil : Throughout Q [] := by
  intro before a after h
  simp at h

/-- A list that grows at its end: only the new member is new, and the old ones have what they had in
front of them. -/
theorem concat (h : Throughout Q l) {a : α} (ha : Q l a) : Throughout Q (l ++ [a]) := by
  intro before b after heq
  rcases List.eq_nil_or_concat after with rfl | ⟨rest, c, rfl⟩
  · obtain ⟨rfl, hb⟩ := List.append_inj' heq rfl
    cases hb
    exact ha
  · rw [List.concat_eq_append, ← List.cons_append, ← List.append_assoc] at heq
    obtain ⟨hl, _⟩ := List.append_inj' heq rfl
    exact h before b rest hl

end Throughout

end PistonGrid
