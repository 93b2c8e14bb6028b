import PistonGrid.Proofs.Identity

/-!
# Lock-step

In a cycle that completes, every piston of the list steps exactly once and in list order, and the next
list consists of those that did not end and of the copies sent off meanwhile.  Over a whole run that
fixes how much each piston has executed: a founder (a piston of a start point) has executed one
instruction in every cycle, a latecomer fewer, and an older piston at least as many as a younger one.

* `Engine.conservation` — the members of the next list.
* `InStep` — the invariant on the counters; `InStep.maintained` — it is kept by every call.
-/

set_option autoImplicit false

namespace PistonGrid

/-- The piston whose step an event begins. -/
def Event.stepper? : Event → Option Nat
  | .leftPlane piston _ _ => some piston
  | .executed piston _ _ _ _ => some piston
  | _ => none

/-- A piston stopped the engine. -/
def Event.isKill : Event → Bool
  | .killed _ _ => true
  | _ => false

/-! ## One cycle -/

/-- Nothing that a script does begins another step. -/
theorem Script.steppers (script : Script) (c : Context) :
    (script.run c).events.filterMap Event.stepper? = [] := by
  have h : Composable fun _ events _ => events.filterMap Event.stepper? = [] := by
    refine ⟨fun _ => rfl, ?_, ?_, fun _ _ => rfl, fun _ => rfl, fun _ => rfl⟩
    · intro _ _ _ first second h₁ h₂
      rw [List.filterMap_append, h₁, h₂]
      rfl
    · intro c a
      cases a <;> rfl
  exact h.run script c

section

variable {program : Program} {s s' : Shared} {p : Piston} {ps : List Piston} {st : Step}
  {sts : List Step}

theorem Piston.step_steppers (h : p.step program s = .ok st) :
    st.events.filterMap Event.stepper? = [p.id] := by
  rcases Piston.step_cases h with ⟨_, rfl⟩ | ⟨w, d, _, _, rfl⟩
  · rfl
  · simp only [Piston.execute, List.filterMap_cons, Event.stepper?, Script.steppers]

theorem Steps.steppers (h : Steps program s ps sts s') :
    (sts.flatMap (·.events)).filterMap Event.stepper? = ps.map (·.id) := by
  induction h with
  | nil => rfl
  | cons step _ _ ih =>
    rw [List.flatMap_cons, List.filterMap_append, Piston.step_steppers step, ih]
    rfl

/-- A piston that stepped and did not end was in the list, and has executed one instruction more. -/
theorem Steps.survivor (h : Steps program s ps sts s') {q : Piston}
    (hq : q ∈ sts.map (·.piston)) (hend : q.ended = false) :
    ∃ p ∈ ps, q.id = p.id ∧ q.executed = p.executed + 1 := by
  induction h with
  | nil => cases hq
  | @cons _ _ p ps st sts step _ _ ih =>
    rw [List.map_cons] at hq
    rcases List.mem_cons.mp hq with rfl | hq
    · obtain ⟨hid, hex, _⟩ := Piston.step_effect step
      refine ⟨p, List.mem_cons_self, hid, ?_⟩
      rcases hex with hex | hex
      · rw [hex] at hend
        cases hend
      · exact hex
    · obtain ⟨p', hp', hfacts⟩ := ih hq
      exact ⟨p', List.mem_cons_of_mem _ hp', hfacts⟩

end

/-- Entrants are not ended, so pruning the drained list takes pistons that stepped only. -/
theorem drain_filter_perm {queue : List MergeRequest} {ps : List Piston}
    (h : ∀ p ∈ entrants queue, p.ended = false) :
    ((drain queue ps).filter (!·.ended)).Perm (ps.filter (!·.ended) ++ entrants queue) := by
  have hperm := (drain_perm queue ps).filter (!·.ended)
  rw [List.filter_append] at hperm
  have hall : (entrants queue).filter (!·.ended) = entrants queue := by
    rw [List.filter_eq_self]
    intro p hp
    simp [h p hp]
  rwa [hall] at hperm

/-- The notes on where pistons were placed tell nothing of steps or copies. -/
theorem filterMap_placed {α : Type} {f : Event → Option α} (hf : ∀ p, f (.placed p) = none)
    (places : List Placement) : (places.map Event.placed).filterMap f = [] := by
  simp [hf]

/-- **One cycle loses and invents nothing.** If the queue was empty and the cycle was neither aborted
nor killed, every piston has stepped once and in order, and the next list holds those that did not end
and the copies queued in this cycle. -/
theorem Engine.conservation {e : Engine} (hq : e.shared.queue = [])
    (herr : e.advance.error = none) (hkill : e.advance.events.any Event.isKill = false) :
    ∃ sts s', Steps e.program e.shared e.pistons sts s' ∧
      e.advance.events.filterMap Event.stepper? = e.pistons.map (·.id) ∧
      e.advance.engine.pistons.Perm
        ((sts.map (·.piston)).filter (!·.ended) ++ entrants s'.queue) ∧
      entrants s'.queue = copies e.advance.events := by
  rcases e.advance_cases with ⟨sts, s', hs, heq⟩ | ⟨_, _, _, _, _, _, _, _, _, heq⟩ |
    ⟨_, _, _, _, _, _, _, _, _, _, heq⟩
  · obtain ⟨added, hadd⟩ := hs.queued
    have hs' : s'.queue = added := by rw [hadd.queue, hq, List.nil_append]
    rw [heq]
    refine ⟨sts, s', hs, ?_, ?_, ?_⟩
    · simp only
      rw [List.filterMap_append, hs.steppers, filterMap_placed fun _ => rfl, List.append_nil]
    · refine drain_filter_perm ?_
      rw [hs']
      exact fun p hp => (hadd.newborn p hp).1
    · rw [hs', hadd.entrants_eq]
      simp only [copies]
      rw [← hs', List.filterMap_append, filterMap_placed fun _ => rfl, List.append_nil]
  · rw [heq] at herr
    cases herr
  · rw [heq] at hkill
    simp [Event.isKill] at hkill

/-! ## The counters over a run -/

/-- Between cycles nothing is queued, and the counters follow the identities. -/
structure InStep (starts : Nat) (e : Engine) : Prop where
  queue : e.shared.queue = []
  starts_le : starts ≤ e.shared.nextId
  founder : ∀ p ∈ e.pistons, p.id < starts → p.executed = e.cycles
  latecomer : ∀ p ∈ e.pistons, starts ≤ p.id → p.executed < e.cycles
  older : ∀ p ∈ e.pistons, ∀ q ∈ e.pistons, p.id < q.id → q.executed ≤ p.executed

namespace InStep

variable {starts : Nat} {e : Engine}

theorem of_no_pistons (hp : e.pistons = []) (hq : e.shared.queue = [])
    (hs : starts ≤ e.shared.nextId) : InStep starts e := by
  refine ⟨hq, hs, ?_, ?_, ?_⟩ <;> simp [hp]

theorem reset (e : Engine) : InStep e.program.plane.starts.length e.reset.engine := by
  have hids : ∀ p ∈ e.reset.engine.pistons, p.id < e.program.plane.starts.length ∧ p.executed = 0 := by
    intro p hp
    constructor
    · have hmem := List.mem_map_of_mem (f := (·.id)) hp
      rw [show e.reset.engine.pistons = Engine.spawnAll e.program.plane.starts from rfl,
        spawnAll_ids] at hmem
      exact List.mem_range.mp hmem
    · obtain ⟨i, hi, rfl⟩ := List.mem_mapIdx.mp hp
      rfl
  refine ⟨rfl, Nat.le_refl _, ?_, ?_, ?_⟩
  · intro p hp _
    rw [(hids p hp).2]
    rfl
  · intro p hp hge
    have := (hids p hp).1
    omega
  · intro p hp q hq _
    exact Nat.le_of_eq ((hids q hq).2.trans (hids p hp).2.symm)

/-- A member of the next list stepped in this cycle, or was sent off in it. -/
theorem member (hI : InStep starts e) {sts : List Step} {s' : Shared}
    (hs : Steps e.program e.shared e.pistons sts s') {q : Piston}
    (hq : q ∈ (drain s'.queue (sts.map (·.piston))).filter (!·.ended)) :
    (∃ p ∈ e.pistons, q.id = p.id ∧ q.executed = p.executed + 1) ∨
      (e.shared.nextId ≤ q.id ∧ q.executed = 0) := by
  obtain ⟨added, hadd⟩ := hs.queued
  rw [hadd.queue, hI.queue, List.nil_append] at hq
  obtain ⟨hmem, hend⟩ := List.mem_filter.mp hq
  rw [(drain_perm _ _).mem_iff] at hmem
  rcases List.mem_append.mp hmem with hmem | hmem
  · exact .inl (hs.survivor hmem (by simpa using hend))
  · have hid := List.mem_map_of_mem (f := (·.id)) hmem
    rw [hadd.ids, List.mem_range'_1] at hid
    exact .inr ⟨hid.1, (hadd.newborn q hmem).2⟩

/-- A cycle that completes counts one more for every founder, and puts the new ones behind all. -/
theorem completed (hI : InStep starts e) {past : List Event} (hids : Identified past e)
    {sts : List Step} {s' : Shared} (hs : Steps e.program e.shared e.pistons sts s') :
    InStep starts { e with
      pistons := (drain s'.queue (sts.map (·.piston))).filter (!·.ended)
      shared := { s' with queue := [] }
      cycles := e.cycles + 1 } := by
  have hbelow : ∀ p ∈ e.pistons, p.id < e.shared.nextId := fun p hp =>
    hids.below p.id (List.mem_append_left _ (List.mem_map_of_mem hp))
  have hstarts := hI.starts_le
  obtain ⟨added, hadd⟩ := hs.queued
  refine ⟨rfl, ?_, ?_, ?_, ?_⟩
  · simp only [hadd.nextId]
    omega
  · intro q hq hlt
    rcases hI.member hs hq with ⟨p, hp, hid, hex⟩ | ⟨hnew, _⟩
    · have := hI.founder p hp (by omega)
      simp only
      omega
    · omega
  · intro q hq hge
    rcases hI.member hs hq with ⟨p, hp, hid, hex⟩ | ⟨_, hex⟩
    · have := hI.latecomer p hp (by omega)
      simp only
      omega
    · simp only
      omega
  · intro p hp q hq hlt
    rcases hI.member hs hp with ⟨p₀, hp₀, hid, hex⟩ | ⟨hnew, _⟩
    · rcases hI.member hs hq with ⟨q₀, hq₀, hid', hex'⟩ | ⟨_, hex'⟩
      · have := hI.older p₀ hp₀ q₀ hq₀ (by omega)
        omega
      · omega
    · rcases hI.member hs hq with ⟨q₀, hq₀, hid', _⟩ | ⟨_, hex'⟩
      · have := hbelow q₀ hq₀
        omega
      · omega

/-- **The counters stay in step** in every engine that is not aborted. -/
theorem maintained (program : Program) :
    Maintained program fun past e =>
      Identified past e ∧ (e.aborted = none → InStep program.plane.starts.length e) := by
  refine (Identified.maintained program).and ?_ ?_ ?_
  · intro past e hp _
    rw [← hp]
    exact reset e
  · intro past e _ _ h hab
    exact of_no_pistons rfl rfl (h hab).starts_le
  · intro past e _ hab _ hids h hab'
    have hI := h hab
    rcases e.advance_cases with ⟨sts, s', hs, heq⟩ | ⟨_, _, _, _, _, _, _, _, _, heq⟩ |
      ⟨pre, p, post, sts, s', st, _, hs, hst, _, heq⟩
    · rw [heq]
      exact hI.completed hids hs
    · rw [heq] at hab'
      cases hab'
    · rw [heq]
      obtain ⟨added, hadd⟩ := hs.queued
      obtain ⟨_, _, added', hadd'⟩ := Piston.step_effect hst
      refine of_no_pistons rfl rfl ?_
      have := hI.starts_le
      simp only [hadd'.nextId, hadd.nextId]
      omega

end InStep

/-- **Lock-step and conservation.** Take any engine that is not aborted, over any registry.  In a cycle
that completes without a kill every piston of the list steps exactly once, in list order, and the next
list is, up to order, the stepped pistons that did not end together with every copy queued in that
cycle.  Hence every founder has executed one instruction in each cycle, every other piston fewer, and
of two pistons the one with the smaller identity has executed at least as many. -/
theorem lock_step_conservation (program : Program) (calls : List Call)
    (halive : (program.after calls).aborted = none) :
    ((program.after calls).isEnded = false → (program.after calls).cycle.error = none →
      (program.after calls).cycle.events.any Event.isKill = false →
      ∃ steps s', Steps program (program.after calls).shared (program.after calls).pistons steps s' ∧
        (program.after calls).cycle.events.filterMap Event.stepper? =
          (program.after calls).pistons.map (·.id) ∧
        (program.after calls).cycle.engine.pistons.Perm
          ((steps.map (·.piston)).filter (!·.ended) ++ entrants s'.queue) ∧
        entrants s'.queue = copies (program.after calls).cycle.events) ∧
    (∀ p ∈ (program.after calls).pistons, p.id < program.plane.starts.length →
      p.executed = (program.after calls).cycles) ∧
    (∀ p ∈ (program.after calls).pistons, program.plane.starts.length ≤ p.id →
      p.executed < (program.after calls).cycles) ∧
    (∀ p ∈ (program.after calls).pistons, ∀ q ∈ (program.after calls).pistons, p.id < q.id →
      q.executed ≤ p.executed) := by
  have hI := ((InStep.maintained program).after calls).2 halive
  refine ⟨?_, hI.founder, hI.latecomer, hI.older⟩
  intro hend herr hkill
  have hcycle : (program.after calls).cycle = (program.after calls).advance := by
    simp [Engine.cycle, halive, hend]
  rw [hcycle] at herr hkill ⊢
  have hcons := Engine.conservation hI.queue herr hkill
  rwa [program.after_program calls] at hcons

/-- One piston that forks in each of its first two cycles. -/
def twoForks : Program :=
  .onBlank [((0, 0), .plain 0x4 0), ((1, 0), .plain 0x4 1)] [⟨0, 0, .right⟩]

/-- In the second cycle the founder and its first copy step, and a second copy joins them. -/
theorem lock_step_conservation_twoForks :
    (twoForks.after [.cycle]).aborted = none ∧
      (twoForks.after [.cycle]).cycle.engine.pistons.map (·.id) = [1, 0, 2] ∧
      ∃ steps s', Steps twoForks (twoForks.after [.cycle]).shared (twoForks.after [.cycle]).pistons
          steps s' ∧
        (twoForks.after [.cycle]).cycle.events.filterMap Event.stepper? = [1, 0] ∧
        (twoForks.after [.cycle]).cycle.engine.pistons.Perm
          ((steps.map (·.piston)).filter (!·.ended) ++ entrants s'.queue) ∧
        entrants s'.queue = copies (twoForks.after [.cycle]).cycle.events :=
  ⟨rfl, rfl, (lock_step_conservation twoForks [.cycle] rfl).1 rfl rfl rfl⟩

end PistonGrid
