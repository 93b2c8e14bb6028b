import PistonGrid.Proofs.BoundedRun
import PistonGrid.Proofs.Identity
import PistonGrid.Proofs.KeyedLists
import PistonGrid.Proofs.StandardWords

/-!
# Pistons that stay where they are

`POS_X`, `POS_Y` and `PRIORITY` do something to the piston that executes them and do not move it, so it
finds the same word under it in the next cycle, and in every other.

* `Event.Executes` — the event tells that a word was executed which stands for an instruction.
  `Piston.step_killed` — under the standard registry only a `KILL` kills the engine.
* `Piston.Stationed` — a piston stands on such a word.  `Piston.Stays` — what it keeps over a number of
  cycles.
* `Stationed.cycle` — one cycle keeps a stationed piston, through merging and pruning.
  `Stationed.cycles` — and so do any number of them.
-/

set_option autoImplicit false

namespace PistonGrid

/-! ## Kills -/

/-- The word whose execution an event tells of. -/
def Event.word? : Event → Option Word
  | .executed _ _ _ w _ => some w
  | _ => none

/-- A piston executed a word that stands for the instruction. -/
def Event.Executes (ev : Event) (i : Instruction) : Prop := ∃ w, ev.word? = some w ∧ w.StandsFor i

/-- `KILL` is the one standard instruction that kills the engine. -/
theorem Catalog.eq_kill {i : Instruction} (hi : i ∈ Catalog.instructions) {args : Args} {c : Context}
    (h : ((i.script args).run c).verdict = .kill) : i = Catalog.kill := by
  cases i, hi using Catalog.cases with
  | kill => rfl
  | blank | start | fork | priority | stop => cases h
  | direction =>
    simp only [direction] at h
    split at h <;> cases h
  | load | store | inNumber | inChar | outNumber | outChar | posX | posY => cases args <;> cases h

/-- A piston whose step kills the engine has executed a `KILL`. -/
theorem Piston.step_killed {program : Program} (hreg : program.registry = .standard) {s : Shared}
    {p : Piston} {st : Step} (hst : p.step program s = .ok st) (hk : st.verdict = .kill) :
    ∃ ev ∈ st.events, ev.Executes Catalog.kill := by
  rcases Piston.step_cases hst with ⟨_, rfl⟩ | ⟨w, d, _, hd, rfl⟩
  · cases hk
  · refine ⟨_, List.mem_cons_self, w, rfl, ?_⟩
    have hkill : d.instruction = Catalog.kill := Catalog.eq_kill (Catalog.mem_of_decode hreg hd) hk
    rw [← hkill]
    exact .of_decode hreg hd

/-! ## Staying in place -/

/-- The instructions about the piston itself, which do not move it. -/
def Catalog.stationary : List Instruction := [posX, posY, priority]

/-- The piston stands on a word of such an instruction. -/
def Piston.Stationed (program : Program) (p : Piston) : Prop :=
  ∃ w, program.plane.wordAt? p.x p.y = some w ∧ ∃ i ∈ Catalog.stationary, w.StandsFor i

/-- What a piston keeps that stays in place for so many cycles. -/
structure Piston.Stays (cycles : Nat) (p q : Piston) : Prop where
  id : q.id = p.id
  x : q.x = p.x
  y : q.y = p.y
  heading : q.heading = p.heading
  ended : q.ended = false
  executed : q.executed = p.executed + cycles

namespace Piston

variable {program : Program} {p q r : Piston} {m n : Nat}

theorem Stays.refl (h : p.ended = false) : Stays 0 p p := ⟨rfl, rfl, rfl, rfl, h, rfl⟩

theorem Stays.trans (h : Stays m p q) (h' : Stays n q r) : Stays (m + n) p r where
  id := h'.id.trans h.id
  x := h'.x.trans h.x
  y := h'.y.trans h.y
  heading := h'.heading.trans h.heading
  ended := h'.ended
  executed := by rw [h'.executed, h.executed, Nat.add_assoc]

theorem Stays.stationed (h : Stays n p q) (hp : p.Stationed program) : q.Stationed program := by
  unfold Stationed
  rw [h.x, h.y]
  exact hp

/-- An instruction about the piston itself is carried out in place. -/
theorem Stays.execute {i : Instruction} (hi : i ∈ Catalog.stationary) (hend : p.ended = false)
    (s : Shared) (w : Word) (args : Args) : Stays 1 p (p.execute s w ⟨w, i, args⟩).piston := by
  simp only [Catalog.stationary, List.mem_cons, List.not_mem_nil, or_false] at hi
  rcases hi with rfl | rfl | rfl
  · cases args <;> exact ⟨rfl, rfl, rfl, rfl, hend, rfl⟩
  · cases args <;> exact ⟨rfl, rfl, rfl, rfl, hend, rfl⟩
  · exact ⟨rfl, rfl, rfl, rfl, hend, rfl⟩

/-- In its step a stationed piston stays. -/
theorem Stationed.step (h : p.Stationed program) (hreg : program.registry = .standard)
    (hend : p.ended = false) {s : Shared} {st : Step} (hst : p.step program s = .ok st) :
    Stays 1 p st.piston := by
  obtain ⟨w, hw, i, hi, hstands⟩ := h
  rw [hstands.step hreg hw] at hst
  cases hst
  exact .execute hi hend s w _

end Piston

/-- In a completed pass every piston of the list takes a step. -/
theorem Steps.exists_step {program : Program} {s s' : Shared} {ps : List Piston} {sts : List Step}
    (h : Steps program s ps sts s') {p : Piston} (hp : p ∈ ps) :
    ∃ st ∈ sts, ∃ s₁, p.step program s₁ = .ok st := by
  induction h with
  | nil => cases hp
  | cons step _ _ ih =>
    rcases List.mem_cons.mp hp with rfl | hp
    · exact ⟨_, List.mem_cons_self, _, step⟩
    · obtain ⟨st, hst, s₁, hstep⟩ := ih hp
      exact ⟨st, List.mem_cons_of_mem _ hst, s₁, hstep⟩

/-- A piston that took its step and has not ended is in the next list. -/
theorem mem_drain_of_active {queue : List MergeRequest} {ps : List Piston} {p : Piston} (hp : p ∈ ps)
    (hend : p.ended = false) : p ∈ (drain queue ps).filter (!·.ended) := by
  rw [List.mem_filter, (drain_perm queue ps).mem_iff]
  exact ⟨List.mem_append_left _ hp, by simp [hend]⟩

namespace Piston.Stationed

variable {e : Engine} {p : Piston}

/-- **One cycle keeps a stationed piston**, unless it fails or somebody executes a `KILL`: the piston may
be moved in the list, but neither lost nor pruned. -/
theorem cycle (h : p.Stationed e.program) (hreg : e.program.registry = .standard)
    (halive : e.aborted = none) (hp : p ∈ e.pistons) (hend : p.ended = false)
    (hok : e.cycle.error = none) (hkill : ∀ ev ∈ e.cycle.events, ¬ ev.Executes Catalog.kill) :
    ∃ q ∈ e.cycle.engine.pistons, p.Stays 1 q := by
  rw [Engine.cycle_of_active halive (Engine.isEnded_of_mem hp)] at hok hkill ⊢
  rcases e.advance_cases with ⟨sts, s', hs, heq⟩ | ⟨_, _, _, _, _, _, _, _, _, heq⟩ |
    ⟨_, _, _, sts, _, st, _, _, hst, hk, heq⟩
  · obtain ⟨st, hmem, s₁, hst⟩ := hs.exists_step hp
    have hstays := h.step hreg hend hst
    rw [heq]
    exact ⟨st.piston, mem_drain_of_active (List.mem_map_of_mem hmem) hstays.ended, hstays⟩
  · rw [heq] at hok
    cases hok
  · obtain ⟨ev, hev, hexecutes⟩ := Piston.step_killed hreg hst hk
    rw [heq] at hkill
    exact absurd hexecutes (hkill ev (by simp [hev]))

/-- **Any number of cycles keep a stationed piston**, as long as they succeed and nobody executes a
`KILL`. -/
theorem cycles :
    ∀ (n : Nat) {e : Engine} {p : Piston}, p.Stationed e.program → e.program.registry = .standard →
      e.aborted = none → p ∈ e.pistons → p.ended = false →
      e.results (List.replicate n .cycle) = List.replicate n none →
      (∀ ev ∈ e.history (List.replicate n .cycle), ¬ ev.Executes Catalog.kill) →
      ∃ q ∈ (e.callAll (List.replicate n .cycle)).pistons, p.Stays n q
  | 0, _, p, _, _, _, hp, hend, _, _ => ⟨p, hp, .refl hend⟩
  | n + 1, e, p, h, hreg, halive, hp, hend, hok, hkill => by
    simp only [List.replicate_succ, Engine.results, Engine.history, Engine.call, List.cons.injEq,
      List.forall_mem_append] at hok hkill
    have hprogram : e.cycle.engine.program = e.program := e.call_program .cycle
    obtain ⟨q, hq, hstays⟩ := h.cycle hreg halive hp hend hok.1 hkill.1
    have hq' : q.Stationed e.cycle.engine.program := by
      rw [hprogram]
      exact hstays.stationed h
    obtain ⟨r, hr, hstays'⟩ := cycles n hq' (by rw [hprogram, hreg])
      (Engine.cycle_completed halive (Engine.isEnded_of_mem hp) hok.1).1 hq hstays.ended hok.2 hkill.2
    refine ⟨r, hr, ?_⟩
    rw [Nat.add_comm]
    exact hstays.trans hstays'

end Piston.Stationed

namespace Engine

variable {e : Engine}

/-- What is aborted stays so. -/
theorem cycles_aborted {cause : DecodeError} (h : e.aborted = some cause) (n : Nat) :
    (e.callAll (List.replicate n .cycle)).aborted = some cause := by
  have hforward := status_onward.cycles n e
  rw [status_eq_aborted_iff.mpr h] at hforward
  exact status_eq_aborted_iff.mp hforward.eq_of_aborted

/-- Cycles after which the engine is not aborted have all succeeded. -/
theorem results_of_alive :
    ∀ (n : Nat) {e : Engine}, (e.callAll (List.replicate n .cycle)).aborted = none →
      e.results (List.replicate n .cycle) = List.replicate n none
  | 0, _, _ => rfl
  | n + 1, e, hlast => by
    have hrest : (e.cycle.engine.callAll (List.replicate n .cycle)).aborted = none := hlast
    have hfirst : e.aborted = none := by
      cases hab : e.aborted with
      | none => rfl
      | some cause =>
        rw [cycles_aborted hab] at hlast
        cases hlast
    have hok : e.cycle.error = none := by
      cases herr : e.cycle.error with
      | none => rfl
      | some error =>
        obtain ⟨_, _, _, cause, _, hab⟩ := cycle_failed hfirst herr
        rw [cycles_aborted hab] at hrest
        cases hrest
    rw [List.replicate_succ, results, List.replicate_succ]
    exact congrArg₂ _ hok (results_of_alive n hrest)

end Engine

/-- With a stationed piston in the list, the engine comes to its end only after a `KILL`. -/
theorem Piston.Stationed.killed {e : Engine} {p : Piston} (h : p.Stationed e.program)
    (hreg : e.program.registry = .standard) (halive : e.aborted = none) (hp : p ∈ e.pistons)
    (hend : p.ended = false) {n : Nat} (hlast : (e.callAll (List.replicate n .cycle)).aborted = none)
    (hended : (e.callAll (List.replicate n .cycle)).isEnded = true) :
    ∃ ev ∈ e.history (List.replicate n .cycle), ev.Executes Catalog.kill := by
  by_contra hkill
  have hkill : ∀ ev ∈ e.history (List.replicate n .cycle), ¬ ev.Executes Catalog.kill :=
    fun ev hev hexecutes => hkill ⟨ev, hev, hexecutes⟩
  obtain ⟨q, hq, _⟩ := h.cycles n hreg halive hp hend (Engine.results_of_alive n hlast) hkill
  rw [Engine.isEnded_of_mem hq] at hended
  cases hended

/-- **A stationed piston never leaves.** A piston that stands on a `POS_X`, a `POS_Y` or a `PRIORITY`
stays in the list as long as cycles succeed and nobody executes a `KILL`: in the same place, with the
same heading, and with one more instruction executed in each cycle.  Hence a run, or the loop of a run
without any bound, can succeed only if somebody executes a `KILL` in it. -/
theorem stationed_piston_never_leaves (program : Program) (hreg : program.registry = .standard)
    (calls : List Call) (halive : (program.after calls).aborted = none) {p : Piston}
    (hp : p ∈ (program.after calls).pistons) (hstationed : p.Stationed program) :
    let e := program.after calls
    (∀ n, e.results (List.replicate n .cycle) = List.replicate n none →
      (∀ ev ∈ e.history (List.replicate n .cycle), ¬ ev.Executes Catalog.kill) →
      ∃ q, (e.callAll (List.replicate n .cycle)).pistons.filter (·.id == p.id) = [q] ∧
        q.x = p.x ∧ q.y = p.y ∧ q.heading = p.heading ∧ q.ended = false ∧
        q.executed = p.executed + n) ∧
    (e.run.error = none → ∃ ev ∈ e.run.events, ev.Executes Catalog.kill) ∧
    (∀ k o, e.Loop k o → o.error = none → ∃ ev ∈ o.events, ev.Executes Catalog.kill) := by
  intro e
  have hprogram : e.program = program := program.after_program calls
  have hend : p.ended = false := (((Settled.maintained program).after calls) halive).active p hp
  rw [← hprogram] at hreg hstationed
  refine ⟨?_, ?_, ?_⟩
  · intro n hok hkill
    obtain ⟨q, hq, hstays⟩ := hstationed.cycles n hreg halive hp hend hok hkill
    have hids := ((Identified.maintained program).after (calls ++ List.replicate n .cycle)).nodup
    have hafter : program.after (calls ++ List.replicate n .cycle) =
        e.callAll (List.replicate n .cycle) := Engine.callAll_append _ _ _
    rw [hafter] at hids
    refine ⟨q, ?_, hstays.x, hstays.y, hstays.heading, hstays.ended, hstays.executed⟩
    rw [← hstays.id]
    exact filter_key_eq (List.nodup_append.mp hids).1 hq
  · intro herr
    obtain ⟨hlast, hended⟩ := Engine.ended_of_runWithin_succeeds _ _ _ herr
    obtain ⟨n, hengine, hevents⟩ := e.run_cycles
    rw [hevents]
    exact hstationed.killed hreg halive hp hend (by rw [← hengine]; exact hlast)
      (by rw [← hengine]; exact hended)
  · intro k o hloop herr
    obtain ⟨hlast, hended⟩ := hloop.ended_of_succeeds herr
    obtain ⟨hengine, hevents⟩ := hloop.calls
    rw [hevents]
    rw [hengine] at hlast hended
    exact hstationed.killed hreg halive hp hend hlast hended

/-- A piston takes a priority forever.  Another sends a copy onto the same word and ends; a third walks to
a `KILL`. -/
def sentry : Program :=
  .onBlank [((0, 0), .registerMeta 0xD 6 (.ofBits 0) .none 9), ((0, 1), .plain 0x4 0), ((1, 1), .plain 0xF 0),
      ((3, 2), .genericMeta 0xE 0 0)]
    [⟨0, 1, .right⟩, ⟨0, 0, .right⟩, ⟨0, 2, .right⟩]

/-- After one cycle the piston has come to the head of the list, and it is still there after two more, with
three instructions executed.  The run from there succeeds, and not without a `KILL`. -/
theorem stationed_piston_never_leaves_sentry :
    let e := sentry.after [.cycle]
    ∃ p, e.pistons.head? = some p ∧ p.id = 1 ∧ p.Stationed sentry ∧
      (∃ q, (e.callAll (List.replicate 2 .cycle)).pistons.filter (·.id == 1) = [q] ∧
        q.x = 0 ∧ q.y = 0 ∧ q.ended = false ∧ q.executed = 3) ∧
      e.run.error = none ∧ ∃ ev ∈ e.run.events, ev.Executes Catalog.kill := by
  intro e
  obtain ⟨p, hhead, hp⟩ : ∃ p, e.pistons.head? = some p ∧
      p = { Piston.spawn 1 0 0 .right with priority := 9, executed := 1 } := ⟨_, rfl, by decide⟩
  have hstationed : p.Stationed sentry := by
    rw [hp]
    exact ⟨_, rfl, Catalog.priority, by simp [Catalog.stationary], _, rfl, rfl⟩
  have hrun : e.run.error = none := by decide +kernel
  have hquiet : ∀ ev ∈ e.history (List.replicate 2 .cycle), ¬ ev.Executes Catalog.kill := by
    rintro ev hev ⟨w, hw, hkill⟩
    have hcodes : ∀ w ∈ (e.history (List.replicate 2 .cycle)).filterMap Event.word?,
        w.controlCode ≠ Catalog.kill.code := by decide +kernel
    exact hcodes w (List.mem_filterMap.mpr ⟨ev, hev, hw⟩) (congrArg Key.code hkill.key).symm
  obtain ⟨hcycles, hkill, _⟩ :=
    stationed_piston_never_leaves sentry rfl [.cycle] rfl (List.mem_of_head? hhead) hstationed
  obtain ⟨q, hq, hx, hy, _, hended, hexecuted⟩ := hcycles 2 rfl hquiet
  rw [hp] at hq hx hy hexecuted
  exact ⟨p, hhead, by rw [hp]; rfl, hstationed, ⟨q, hq, hx, hy, hended, hexecuted⟩, hrun, hkill hrun⟩

end PistonGrid
