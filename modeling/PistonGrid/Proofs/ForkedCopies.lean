import PistonGrid.Proofs.KeyedLists
import PistonGrid.Proofs.LockStep

/-!
# What becomes of a copy

A script may fork at any point, any number of times, before or after it ends its piston, writes
registers or changes the priority.  The copy is taken on the spot, waits in the queue until the whole
list has stepped, and is then a member of the list as it was when it was taken.

* `Script.Reaches` — what is left of a script, and in which context, at some point of its run.
  `Script.Reaches.before` — what every effect does, the part of a script before that point does.
* `Engine.Forks` — in the cycle that an engine is about to make, some script gets to a fork.
* `Engine.Forks.told`, `Engine.Forks.fresh` — the cycle tells of that fork, and the identity that the
  copy gets is above all that were ever given out.
-/

set_option autoImplicit false

namespace PistonGrid

/-! ## A point in the run of a script -/

/-- A script that runs in a context gets to the point where another script is left to be run, in a
context of its own. -/
inductive Script.Reaches : Script → Context → Script → Context → Prop where
  | here (script : Script) (c : Context) : Reaches script c script c
  | perform {action : Action} {next rest : Script} {c c' : Context}
      (later : Reaches next (action.apply c) rest c') : Reaches (.perform action next) c rest c'
  | load {address : Nat} {next : Nat → Script} {rest : Script} {c c' : Context}
      (later : Reaches (next (c.shared.memory.get address)) c rest c') :
      Reaches (.load address next) c rest c'
  | grabNumber {next : Nat → Script} {rest : Script} {c c' : Context}
      (later : Reaches (next c.shared.channel.grabNumber.1)
        { c with shared := { c.shared with channel := c.shared.channel.grabNumber.2 } } rest c') :
      Reaches (.grabNumber next) c rest c'
  | grabChar {next : Nat → Script} {rest : Script} {c c' : Context}
      (later : Reaches (next c.shared.channel.grabChar.1)
        { c with shared := { c.shared with channel := c.shared.channel.grabChar.2 } } rest c') :
      Reaches (.grabChar next) c rest c'
  | inspect {next : Context → Script} {rest : Script} {c c' : Context}
      (later : Reaches (next c) c rest c') : Reaches (.inspect next) c rest c'

/-- **Up to every point of its run** a script does what every effect does, and from there on it tells
what the rest of it tells. -/
theorem Script.Reaches.before {R : Context → List Event → Context → Prop} (hR : Composable R)
    {script rest : Script} {c c' : Context} (h : script.Reaches c rest c') :
    ∃ events, R c events c' ∧ (script.run c).events = events ++ (rest.run c').events := by
  induction h with
  | here script c => exact ⟨[], hR.refl c, rfl⟩
  | @perform action _ _ c _ _ ih =>
    obtain ⟨events, hdone, htold⟩ := ih
    refine ⟨action.events c ++ events, hR.trans (hR.action c action) hdone, ?_⟩
    rw [List.append_assoc, ← htold]
    rfl
  | @load address _ _ c _ _ ih =>
    obtain ⟨events, hdone, htold⟩ := ih
    refine ⟨_ :: events, hR.trans (hR.load c address) hdone, ?_⟩
    rw [List.cons_append, ← htold]
    rfl
  | @grabNumber _ _ c _ _ ih =>
    obtain ⟨events, hdone, htold⟩ := ih
    refine ⟨_ :: events, hR.trans (hR.grabNumber c) hdone, ?_⟩
    rw [List.cons_append, ← htold]
    rfl
  | @grabChar _ _ c _ _ ih =>
    obtain ⟨events, hdone, htold⟩ := ih
    refine ⟨_ :: events, hR.trans (hR.grabChar c) hdone, ?_⟩
    rw [List.cons_append, ← htold]
    rfl
  | inspect _ ih => exact ih

/-! ## A fork in the cycle to come -/

/-- In the cycle that an engine is about to make, a piston of its list gets its turn, executes the word
under it, and comes to a fork; `c` is the piston and the shared state at that moment. -/
def Engine.Forks (e : Engine) (c : Context) (t : Turn) : Prop :=
  ∃ pre p post sts s w d next, e.pistons = pre ++ p :: post ∧
    Steps e.program e.shared pre sts s ∧ e.program.plane.wordAt? p.x p.y = some w ∧
    e.program.registry.decode w = .ok d ∧
    (d.instruction.script d.args).Reaches ⟨{ p with executed := p.executed + 1 }, s⟩
      (.perform (.fork t) next) c

/-- In a completed pass every piston takes the step that it takes after those in front of it. -/
theorem Steps.mem_of_append {program : Program} {s s₁ s' : Shared} {pre post : List Piston}
    {p : Piston} {sts sts' : List Step} {st : Step} (hpre : Steps program s pre sts s₁)
    (hst : p.step program s₁ = .ok st) (h : Steps program s (pre ++ p :: post) sts' s') :
    st ∈ sts' := by
  induction hpre generalizing sts' with
  | nil s =>
    cases h with
    | cons step _ _ =>
      rw [hst] at step
      cases step
      exact List.mem_cons_self
  | cons step _ _ ih =>
    cases h with
    | cons step' _ rest' =>
      rw [step] at step'
      cases step'
      exact List.mem_cons_of_mem _ (ih hst rest')

namespace Engine.Forks

variable {e : Engine} {c : Context} {t : Turn}

theorem isEnded (h : e.Forks c t) : e.isEnded = false := by
  obtain ⟨pre, p, post, _, _, _, _, _, hps, _⟩ := h
  simp [Engine.isEnded, hps]

/-- A completed pass tells of the fork. -/
theorem told (h : e.Forks c t) {sts : List Step} {s' : Shared}
    (hs : Steps e.program e.shared e.pistons sts s') :
    Event.forked c.piston c.shared.nextId t ∈ sts.flatMap (·.events) := by
  obtain ⟨pre, p, post, sts₁, s, w, d, next, hps, hpre, hw, hd, hreach⟩ := h
  rw [hps] at hs
  have hst := hpre.mem_of_append (Piston.step_inside hw hd) hs
  refine List.mem_flatMap.mpr ⟨_, hst, ?_⟩
  obtain ⟨events, _, htold⟩ := hreach.before Effect.composable
  simp [Piston.execute, htold, Script.run, Action.events]

/-- The identity that the copy gets is above all that were given out before the cycle, and above those of
the copies that were taken in it so far. -/
theorem fresh (h : e.Forks c t) {past : List Event} (hids : Identified past e) :
    ∀ i ∈ handedOut past ++ (entrants c.shared.queue).map (·.id), i < c.shared.nextId := by
  obtain ⟨pre, p, post, sts, s, w, d, next, hps, hpre, _, _, hreach⟩ := h
  obtain ⟨added, hadd⟩ := hpre.queued
  obtain ⟨events, heffect, _⟩ := hreach.before Effect.composable
  obtain ⟨added', hadd'⟩ := heffect.queued
  have hqueue := hadd'.below (hadd.below hids.below)
  have hnext : c.shared.nextId = s.nextId + (entrants added').length := hadd'.nextId
  have hnext' := hadd.nextId
  intro i hi
  rcases List.mem_append.mp hi with hi | hi
  · rw [hids.handedOut, List.mem_range] at hi
    omega
  · exact hqueue i (List.mem_append_right _ hi)

end Engine.Forks

/-! ## The copy -/

/-- The copy of a fork, field by field: all that is not named is its parent's. -/
theorem Piston.forked_eq (p : Piston) (id : Nat) (t : Turn) :
    p.forked id t =
      { p with
        id
        heading := p.heading.turn t
        x := wrap (p.x + (p.heading.turn t).delta.1)
        y := wrap (p.y + (p.heading.turn t).delta.2)
        ended := false
        executed := 0 } := by
  have hone : (1 : Int) % capacity = 1 := by decide
  simp [forked, copyAs, turn, moveBy, hone]

/-- **A fork delivers a faithful copy, and the copy survives its cycle**, if that cycle completes
without a kill.  The identity of the copy is above all that were given out before, and in the next list
exactly one piston has it: the parent as it was at that moment, with its registers, hints and priority,
but turned, one cell ahead, active, and with nothing executed. -/
theorem fork_delivers_copy (program : Program) (calls : List Call) {c : Context} {t : Turn}
    (herr : (program.after calls).cycle.error = none)
    (hkill : (program.after calls).cycle.events.any Event.isKill = false)
    (hfork : (program.after calls).Forks c t) :
    (∀ i ∈ handedOut (program.chronicle calls) ++ (entrants c.shared.queue).map (·.id),
      i < c.shared.nextId) ∧
    (program.after calls).cycle.engine.pistons.filter (·.id == c.shared.nextId) =
      [{ c.piston with
          id := c.shared.nextId
          heading := c.piston.heading.turn t
          x := wrap (c.piston.x + (c.piston.heading.turn t).delta.1)
          y := wrap (c.piston.y + (c.piston.heading.turn t).delta.2)
          ended := false
          executed := 0 }] := by
  have halive : (program.after calls).aborted = none := by
    cases hab : (program.after calls).aborted with
    | none => rfl
    | some cause => simp [Engine.cycle, hab] at herr
  have hI := (InStep.maintained program).after calls
  have hnodup := ((Identified.maintained program).cycle (program.after_program calls) hI.1).2.nodup
  refine ⟨hfork.fresh hI.1, ?_⟩
  rw [← Piston.forked_eq]
  refine filter_key_eq (a := c.piston.forked c.shared.nextId t) (List.nodup_append.mp hnodup).1 ?_
  rw [Engine.cycle_of_active halive hfork.isEnded] at herr hkill ⊢
  obtain ⟨sts, s', hs, _, hperm, _⟩ := Engine.conservation (hI.2 halive).queue herr hkill
  obtain ⟨added, hadd⟩ := hs.queued
  refine hperm.mem_iff.mpr (List.mem_append_right _ ?_)
  rw [hadd.queue, (hI.2 halive).queue, List.nil_append, hadd.entrants_eq]
  exact List.mem_filterMap.mpr ⟨_, hfork.told hs, rfl⟩

/-- Sends off a copy, leaves a mark, ends the piston, changes its priority, sends off a second copy and
goes elsewhere, all in one step. -/
def testament : Instruction where
  code := 0x0
  glyph := '*'
  mnemonic := "WILL"
  description := "Fork before and after the end"
  script _ := .ofActions [.fork .left, .setRegister 2 7 .none, .retire, .setPriority 3, .fork .reverse,
    .setRegister 2 9 .none, .setPriority 8, .goTo 5 5] .proceed

/-- Two pistons on a plane full of that instruction. -/
def bequest : Program where
  plane := SparseGrid.plane ⟨[], some .blank, [⟨0, 0, .right⟩, ⟨0, 1, .right⟩]⟩
  registry := ⟨[(0x0, .plain)], [testament]⟩
  config := .standard
  input := []

/-- The second copy of the second piston, taken after its end, has the mark and the priority of that
moment, and its place is across the edge. -/
theorem fork_delivers_copy_bequest :
    ∃ c, (bequest.after []).Forks c .reverse ∧ c.piston.id = 1 ∧ c.piston.ended = true ∧
      c.shared.nextId = 5 ∧
      ((bequest.after []).cycle.engine.pistons.filter (·.id == 5)).map
          (fun p => (p.x, p.y, p.heading, p.register 2, p.priority, p.ended, p.executed)) =
        [(1048575, 1, .left, 7, 3, false, 0)] := by
  have hfork : (bequest.after []).Forks _ .reverse :=
    ⟨[_], _, [], _, _, .blank, _, _, rfl, .cons rfl (by decide) (.nil _), rfl, rfl,
      .perform (.perform (.perform (.perform (.here _ _))))⟩
  refine ⟨_, hfork, rfl, rfl, rfl, ?_⟩
  exact congrArg _ (fork_delivers_copy bequest [] rfl rfl hfork).2

end PistonGrid
