import PistonGrid.Proofs.Runs
import PistonGrid.Proofs.Standard
import PistonGrid.Proofs.Steps

/-!
# The first to stop a cycle decides it

A pass goes down the list until a piston kills the engine or meets a word that means nothing.  What the
call returns and what it leaves in the memory and in the channel is settled by then: those behind could
be anyone, or nobody.

* `Steps.stepAll_append` — a pass over a list begins with the steps of its front and goes on with a pass
  over the rest.
* `Piston.Halts` — the step of a piston stops the pass.  `Engine.HaltsAt` — in the cycle to come the
  piston at some place of the list is the first to do so.
* `Engine.HaltsAt.unique` — there is one such place at most.
* `Engine.HaltsAt.cycle_fault`, `Engine.HaltsAt.cycle_kill` — what such a cycle leaves behind.
* `Engine.replaceBehind`, `Engine.HaltsAt.replaceBehind` — with other pistons behind that place, the same
  piston is the first to stop the pass, in the same shared state.
-/

set_option autoImplicit false

namespace PistonGrid

/-- A list, cut before and behind one of its places. -/
theorem eq_take_cons_drop {α : Type} {l : List α} {k : Nat} {a : α} (h : l[k]? = some a) :
    l = l.take k ++ a :: l.drop (k + 1) := by
  obtain ⟨hk, ha⟩ := List.getElem?_eq_some_iff.mp h
  rw [← ha, ← List.drop_eq_getElem_cons hk, List.take_append_drop]

section

variable {program : Program} {s s' : Shared} {p : Piston} {pre : List Piston} {sts : List Step}

/-- **A pass over a list is a pass over the rest of it**, after the steps of its front. -/
theorem Steps.stepAll_append (h : Steps program s pre sts s') (rest : List Piston) :
    stepAll program s (pre ++ rest) =
      let after := stepAll program s' rest
      ⟨sts.map (·.piston) ++ after.pistons, after.shared, after.halt,
        sts.flatMap (·.events) ++ after.events⟩ := by
  induction h with
  | nil s => rfl
  | cons step goes _ ih => simp [stepAll, step, goes, ih]

theorem Steps.stepAll_eq (h : Steps program s pre sts s') :
    stepAll program s pre = ⟨sts.map (·.piston), s', none, sts.flatMap (·.events)⟩ := by
  simpa [stepAll] using h.stepAll_append []

/-- The step of a piston stops the pass: either there is none, because the piston stands on a word that
means nothing, or it kills the engine. -/
def Piston.Halts (program : Program) (s : Shared) (p : Piston) : Prop :=
  ∀ st, p.step program s = .ok st → st.verdict = .kill

theorem Piston.Halts.cases (h : p.Halts program s) :
    (∃ cause, p.step program s = .error cause) ∨
      ∃ st, p.step program s = .ok st ∧ st.verdict = .kill := by
  cases hst : p.step program s with
  | error cause => exact .inl ⟨cause, rfl⟩
  | ok st => exact .inr ⟨st, rfl, h st hst⟩

theorem Piston.Halts.stepAll_halt (h : p.Halts program s) (post : List Piston) :
    (stepAll program s (p :: post)).halt ≠ none := by
  rcases h.cases with ⟨cause, hst⟩ | ⟨st, hst, hkill⟩
  · simp [stepAll, hst]
  · simp [stepAll, hst, hkill]

end

namespace Engine

/-- In the cycle to come the piston `p` at place `k` is the first whose step stops the pass.  Those in
front of it take the steps `sts`, none of which does, and leave it the shared state `s`. -/
structure HaltsAt (e : Engine) (k : Nat) (p : Piston) (sts : List Step) (s : Shared) : Prop where
  place : e.pistons[k]? = some p
  front : Steps e.program e.shared (e.pistons.take k) sts s
  halts : p.Halts e.program s

/-- The same engine with other pistons behind place `k` of its list. -/
def replaceBehind (e : Engine) (k : Nat) (others : List Piston) : Engine :=
  { e with pistons := e.pistons.take (k + 1) ++ others }

namespace HaltsAt

variable {e : Engine} {k k' : Nat} {p p' : Piston} {sts sts' : List Step} {s s' : Shared}

theorem lt_length (h : e.HaltsAt k p sts s) : k < e.pistons.length :=
  (List.getElem?_eq_some_iff.mp h.place).1

theorem isEnded (h : e.HaltsAt k p sts s) : e.isEnded = false :=
  isEnded_of_mem (List.mem_of_getElem? h.place)

/-- Behind the piston that stops the pass nobody steps, so nobody behind it is the first to stop it. -/
theorem not_lt (h : e.HaltsAt k p sts s) (h' : e.HaltsAt k' p' sts' s') : ¬ k < k' := by
  intro hlt
  have hfront : e.pistons.take k' = e.pistons.take k ++ p :: (e.pistons.take k').drop (k + 1) := by
    have hplace : (e.pistons.take k')[k]? = some p := by rw [List.getElem?_take_of_lt hlt, h.place]
    have hcut := eq_take_cons_drop hplace
    rwa [List.take_take, Nat.min_eq_left (Nat.le_of_lt hlt)] at hcut
  have hnone : (stepAll e.program e.shared (e.pistons.take k')).halt = none := by rw [h'.front.stepAll_eq]
  rw [hfront, h.front.stepAll_append] at hnone
  exact h.halts.stepAll_halt _ hnone

/-- **There is one place at most** at which a pass is stopped first. -/
theorem unique (h : e.HaltsAt k p sts s) (h' : e.HaltsAt k' p' sts' s') :
    k' = k ∧ p' = p ∧ s' = s := by
  have hplace : k' = k := by
    have hge := h.not_lt h'
    have hle := h'.not_lt h
    omega
  subst hplace
  refine ⟨rfl, ?_, ?_⟩
  · exact Option.some.inj (h'.place.symm.trans h.place)
  · have hpass := h'.front.stepAll_eq.symm.trans h.front.stepAll_eq
    exact congrArg Pass.shared hpass

/-- The pass that is stopped there. -/
theorem pass (h : e.HaltsAt k p sts s) :
    stepAll e.program e.shared e.pistons =
      let after := stepAll e.program s (p :: e.pistons.drop (k + 1))
      ⟨sts.map (·.piston) ++ after.pistons, after.shared, after.halt,
        sts.flatMap (·.events) ++ after.events⟩ := by
  rw [← h.front.stepAll_append, ← eq_take_cons_drop h.place]

/-- The cycle of a piston that meets a word that means nothing. -/
theorem cycle_fault (h : e.HaltsAt k p sts s) (halive : e.aborted = none) {cause : DecodeError}
    (hst : p.step e.program s = .error cause) :
    e.cycle =
      ⟨{ e with
          pistons := sts.map (·.piston) ++ p :: e.pistons.drop (k + 1)
          shared := s
          aborted := some cause }, some (.decode p.id p.x p.y cause),
        sts.flatMap (·.events) ++ [.aborted e.name p.id p.x p.y cause]⟩ := by
  rw [cycle_of_active halive h.isEnded]
  unfold advance
  rw [h.pass]
  simp [stepAll, hst]

/-- The cycle of a piston that kills the engine. -/
theorem cycle_kill (h : e.HaltsAt k p sts s) (halive : e.aborted = none) {st : Step}
    (hst : p.step e.program s = .ok st) :
    e.cycle =
      ⟨{ e with
          pistons := []
          shared := { st.shared with queue := [] }
          cycles := e.cycles + 1 }, none,
        sts.flatMap (·.events) ++ st.events ++ [.killed e.name e.cycles]⟩ := by
  rw [cycle_of_active halive h.isEnded]
  unfold advance
  rw [h.pass]
  simp [stepAll, hst, h.halts st hst, Engine.kill, close, drain_nil]

/-- Who stands behind does not matter to who is the first to stop the pass. -/
theorem replaceBehind (h : e.HaltsAt k p sts s) (others : List Piston) :
    (e.replaceBehind k others).HaltsAt k p sts s := by
  have hk := h.lt_length
  refine ⟨?_, ?_, h.halts⟩
  · show (e.pistons.take (k + 1) ++ others)[k]? = some p
    rw [List.getElem?_append_left (by rw [List.length_take]; omega),
      List.getElem?_take_of_lt (Nat.lt_succ_self k), h.place]
  · have htake : (e.replaceBehind k others).pistons.take k = e.pistons.take k := by
      show (e.pistons.take (k + 1) ++ others).take k = e.pistons.take k
      rw [List.take_append_of_le_length (by rw [List.length_take]; omega), List.take_take,
        Nat.min_eq_left (Nat.le_succ k)]
    rw [htake]
    exact h.front

end HaltsAt

end Engine

/-- **The first to stop a cycle decides it.** There is one first place in list order at which a step
kills the engine or meets a word that means nothing, and whoever stands behind it makes no difference to
what the call returns, tells and leaves in what is shared.  A kill empties list and queue and counts the
cycle; a word that means nothing leaves all as the steps in front of it did. -/
theorem first_halt_decides_cycle (e : Engine) (halive : e.aborted = none) {k : Nat} {p : Piston}
    {sts : List Step} {s : Shared} (hhalts : e.HaltsAt k p sts s) :
    (∀ k' p' sts' s', e.HaltsAt k' p' sts' s' → k' = k ∧ p' = p ∧ s' = s) ∧
    (∀ others : List Piston,
      (e.replaceBehind k others).cycle.error = e.cycle.error ∧
      (e.replaceBehind k others).cycle.events = e.cycle.events ∧
      (e.replaceBehind k others).cycle.engine.shared = e.cycle.engine.shared ∧
      (e.replaceBehind k others).cycle.engine.aborted = e.cycle.engine.aborted ∧
      (e.replaceBehind k others).cycle.engine.cycles = e.cycle.engine.cycles) ∧
    (∀ cause, p.step e.program s = .error cause →
      e.cycle.error = some (.decode p.id p.x p.y cause) ∧ e.cycle.engine.shared = s) ∧
    (∀ st, p.step e.program s = .ok st → ∀ others : List Piston,
      (e.replaceBehind k others).cycle.error = none ∧
      (e.replaceBehind k others).cycle.engine =
        { e with
          pistons := []
          shared := { st.shared with queue := [] }
          cycles := e.cycles + 1 }) := by
  refine ⟨fun _ _ _ _ h' => hhalts.unique h', ?_, ?_, ?_⟩
  · intro others
    have hsame := hhalts.replaceBehind others
    rcases hhalts.halts.cases with ⟨cause, hst⟩ | ⟨st, hst, _⟩
    · rw [hhalts.cycle_fault halive hst, hsame.cycle_fault halive hst]
      exact ⟨rfl, rfl, rfl, rfl, rfl⟩
    · rw [hhalts.cycle_kill halive hst, hsame.cycle_kill halive hst]
      exact ⟨rfl, rfl, rfl, rfl, rfl⟩
  · intro cause hst
    rw [hhalts.cycle_fault halive hst]
    exact ⟨rfl, rfl⟩
  · intro st hst others
    rw [(hhalts.replaceBehind others).cycle_kill halive hst]
    exact ⟨rfl, rfl⟩

/-- One piston forks, one stores, one writes a number, one changes its priority, one kills the engine, and
the last stands on a word that means nothing. -/
def killedInTime : Program :=
  .onBlank [((0, 0), .plain 0x4 0), ((0, 1), .registerMeta 0xB 1 (.ofBits 0) .none 5),
      ((0, 2), .registerMeta 0xC 2 (.ofBits 0) .none 0), ((0, 3), .registerMeta 0xD 6 (.ofBits 0) .none 9),
      ((0, 4), .genericMeta 0xE 0 0), ((0, 5), .plain 0x2 0)]
    [⟨0, 0, .right⟩, ⟨0, 1, .right⟩, ⟨0, 2, .right⟩, ⟨0, 3, .right⟩, ⟨0, 4, .right⟩, ⟨0, 5, .right⟩]

/-- The kill comes first: the copy and the move are dropped, the stored cell and the written number are
kept, and it makes no difference if nobody stands behind it, or twice as many. -/
theorem first_halt_decides_cycle_killedInTime :
    let e := killedInTime.after []
    ∃ p sts s st, e.HaltsAt 4 p sts s ∧ p.step e.program s = .ok st ∧ st.shared.queue.length = 2 ∧
      ∀ others, (e.replaceBehind 4 others).cycle.error = none ∧
        (e.replaceBehind 4 others).cycle.engine.pistons = [] ∧
        (e.replaceBehind 4 others).cycle.engine.shared =
          ⟨⟨[(5, 0)]⟩, ⟨[], "0", 0⟩, [], 7⟩ := by
  intro e
  have hhalts : e.HaltsAt 4 _ _ _ :=
    ⟨rfl, .cons rfl (by decide) (.cons rfl (by decide) (.cons rfl (by decide) (.cons rfl (by decide)
      (.nil _)))), fun st hst => by cases hst; rfl⟩
  obtain ⟨_, _, _, hkill⟩ := first_halt_decides_cycle e rfl hhalts
  refine ⟨_, _, _, _, hhalts, rfl, rfl, fun others => ?_⟩
  obtain ⟨herror, hengine⟩ := hkill _ rfl others
  rw [hengine]
  exact ⟨herror, rfl, by decide +kernel⟩

end PistonGrid
