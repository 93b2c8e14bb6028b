import PistonGrid.Proofs.Standard
import PistonGrid.Proofs.Trace

/-!
# Stored values stay wrapped

Coordinates, register contents and memory contents are numbers below `capacity`.  Every writer reduces
what it is given, so this holds of every piston in the list, of every copy that waits in the queue and of
the memory, whatever instructions there are and however a cycle ends.

* `Piston.Wrapped`, `Shared.Wrapped` — the bounds, on a piston and on the shared state.
* `Context.Wrapped.composable`, `Piston.step_wrapped` — every script and every step keeps them.
* `Channel.InRange`, `Catalog.inRange` — under the standard catalog the last value written is below the
  bound too.
* `stepAll_replane` — so a pass never looks at a cell beyond the bound, and `Engine.onPlane_simulation`
  — no call can tell two planes apart that agree below it.
-/

set_option autoImplicit false

namespace PistonGrid

/-! ## The bounds -/

/-- Position and register contents are below the bound. -/
structure Piston.Wrapped (p : Piston) : Prop where
  x : p.x < capacity
  y : p.y < capacity
  registers : ∀ r, p.register r < capacity

/-- Memory contents are below the bound, and those who wait in the queue are wrapped. -/
structure Shared.Wrapped (s : Shared) : Prop where
  memory : ∀ cell ∈ s.memory.cells, cell.2 < capacity
  queue : ∀ p ∈ entrants s.queue, p.Wrapped

/-- The executing piston and the shared state are wrapped. -/
structure Context.Wrapped (c : Context) : Prop where
  piston : c.piston.Wrapped
  shared : c.shared.Wrapped

/-- Reading a register back after a write. -/
theorem Piston.register_setRegister (p : Piston) (r : Register) (value : Int) (o : RegisterOptions)
    (r' : Register) :
    (p.setRegister r value o).register r' = if r' = r then wrap value else p.register r' := by
  show (p.registers.set r.val (wrap value) r.isLt)[r'.val] =
    if r' = r then wrap value else p.registers[r'.val]
  rw [Vector.getElem_set]
  simp [Fin.ext_iff, eq_comm]

namespace Piston.Wrapped

variable {p : Piston}

theorem spawn (id : Nat) (x y : Int) (heading : Heading) : (Piston.spawn id x y heading).Wrapped := by
  refine ⟨wrap_lt x, wrap_lt y, ?_⟩
  intro r
  have hzero : (Piston.spawn id x y heading).register r = 0 := by
    show (Vector.replicate 8 0)[r.val] = 0
    simp
  rw [hzero]
  decide

/-- Changes that leave position and registers alone do not matter. -/
theorem of_same {p' : Piston} (h : p.Wrapped) (hx : p'.x = p.x) (hy : p'.y = p.y)
    (hr : p'.registers = p.registers) : p'.Wrapped := by
  refine ⟨hx ▸ h.x, hy ▸ h.y, ?_⟩
  intro r
  rw [Piston.register, hr]
  exact h.registers r

theorem moveBy (h : p.Wrapped) (n : Int) : (p.moveBy n).Wrapped :=
  ⟨wrap_lt _, wrap_lt _, h.registers⟩

theorem goTo (h : p.Wrapped) (x y : Int) : (p.goTo x y).Wrapped :=
  ⟨wrap_lt _, wrap_lt _, h.registers⟩

theorem setRegister (h : p.Wrapped) (r : Register) (value : Int) (o : RegisterOptions) :
    (p.setRegister r value o).Wrapped := by
  refine ⟨h.x, h.y, ?_⟩
  intro r'
  rw [Piston.register_setRegister]
  split
  · exact wrap_lt value
  · exact h.registers r'

theorem retire (h : p.Wrapped) : p.retire.Wrapped := h.of_same rfl rfl rfl

theorem forked (h : p.Wrapped) (id : Nat) (t : Turn) : (p.forked id t).Wrapped :=
  Wrapped.moveBy (p := (p.copyAs id).turn t) (h.of_same rfl rfl rfl) 1

end Piston.Wrapped

namespace Shared.Wrapped

variable {s : Shared}

theorem fresh (input : List Char) (n : Nat) : { Shared.fresh input with nextId := n }.Wrapped :=
  ⟨by simp [Shared.fresh, Memory.empty], by simp [Shared.fresh]⟩

theorem dequeue (h : s.Wrapped) : { s with queue := [] }.Wrapped := ⟨h.memory, by simp⟩

theorem fork (h : s.Wrapped) {p : Piston} (hp : p.Wrapped) (t : Turn) : (s.fork p t).Wrapped := by
  refine ⟨h.memory, ?_⟩
  intro q hq
  simp only [Shared.fork, Shared.enqueue, entrants_append, entrants_fork, entrants_nil,
    List.mem_append, List.mem_singleton] at hq
  rcases hq with hq | rfl
  · exact h.queue q hq
  · exact hp.forked s.nextId t

theorem reprioritize (h : s.Wrapped) (id : Nat) (priority : Int) :
    (s.enqueue (.reprioritize id priority)).Wrapped :=
  ⟨h.memory, by simpa [Shared.enqueue] using h.queue⟩

theorem store (h : s.Wrapped) (address : Nat) (value : Int) :
    { s with memory := s.memory.set address value }.Wrapped := by
  refine ⟨?_, h.queue⟩
  intro cell hcell
  rcases Memory.mem_insertCell hcell with rfl | hcell
  · exact wrap_lt value
  · exact h.memory cell hcell

end Shared.Wrapped

/-- **Every effect keeps the bounds**, and so does every script. -/
theorem Context.Wrapped.composable : Composable fun c _ c' => c.Wrapped → c'.Wrapped where
  refl _ h := h
  trans h₁ h₂ h := h₂ (h₁ h)
  action c a h := by
    cases a with
    | move n => exact ⟨h.piston.moveBy n, h.shared⟩
    | turn t => exact ⟨h.piston.of_same rfl rfl rfl, h.shared⟩
    | face d => exact ⟨h.piston.of_same rfl rfl rfl, h.shared⟩
    | goTo x y => exact ⟨h.piston.goTo x y, h.shared⟩
    | setRegister r value o => exact ⟨h.piston.setRegister r value o, h.shared⟩
    | retire => exact ⟨h.piston.retire, h.shared⟩
    | fork t => exact ⟨h.piston, h.shared.fork h.piston t⟩
    | setPriority priority =>
      exact ⟨h.piston.of_same rfl rfl rfl, h.shared.reprioritize c.piston.id priority⟩
    | store address value => exact ⟨h.piston, h.shared.store address value⟩
    | clearMemory => exact ⟨h.piston, by simp [Action.apply, Memory.empty], h.shared.queue⟩
    | write item => exact ⟨h.piston, h.shared.memory, h.shared.queue⟩
  load _ _ h := h
  grabNumber _ h := ⟨h.piston, h.shared.memory, h.shared.queue⟩
  grabChar _ h := ⟨h.piston, h.shared.memory, h.shared.queue⟩

/-- **Every step keeps the bounds.** -/
theorem Piston.step_wrapped {program : Program} {s : Shared} {p : Piston} {st : Step}
    (hp : p.Wrapped) (hs : s.Wrapped) (h : p.step program s = .ok st) :
    st.piston.Wrapped ∧ st.shared.Wrapped := by
  rcases Piston.step_cases h with ⟨_, rfl⟩ | ⟨w, d, _, _, rfl⟩
  · exact ⟨hp.retire, hs⟩
  · have hrun := Context.Wrapped.composable.run (d.instruction.script d.args)
      ⟨{ p with executed := p.executed + 1 }, s⟩ ⟨hp.of_same rfl rfl rfl, hs⟩
    refine ⟨?_, hrun.shared⟩
    simp only [Piston.execute]
    split
    · exact hrun.piston.retire
    · exact hrun.piston

/-! ## The last output of the standard catalog -/

/-- The value written last is below the bound, and not negative. -/
def Channel.InRange (c : Channel) : Prop := 0 ≤ c.lastOutput ∧ c.lastOutput < capacity

/-- The character of a code below the bound has a code below the bound, also if it stands in for a code
that is none. -/
theorem charOfCode_lt {n : Nat} (h : n < capacity) : (charOfCode n).toNat < capacity := by
  unfold charOfCode
  split
  · rename_i hvalid
    rw [Char.ofNat, dif_pos hvalid]
    exact h
  · decide

theorem OutputItem.value_ofChar (c : Char) : (OutputItem.ofChar c).value = c.toNat := by
  simp [OutputItem.ofChar, OutputItem.value, OutputItem.textValue]

/-- Only two standard instructions write, and what they write comes from a register. -/
theorem Catalog.inRange {i : Instruction} (hi : i ∈ Catalog.instructions) (args : Args) {c : Context}
    (hp : c.piston.Wrapped) (h : c.shared.channel.InRange) :
    ((i.script args).run c).context.shared.channel.InRange := by
  cases i, hi using Catalog.cases with
  | outNumber =>
    cases args with
    | register r o a => exact ⟨Int.natCast_nonneg _, Int.ofNat_lt.mpr (hp.registers r)⟩
    | plain | generic => exact h
  | outChar =>
    cases args with
    | register r o a =>
      have hlast : (((Catalog.outChar.script (.register r o a)).run c).context.shared.channel).lastOutput =
          ((charOfCode (c.piston.register r)).toNat : Int) := OutputItem.value_ofChar _
      exact ⟨hlast ▸ Int.natCast_nonneg _,
        hlast ▸ Int.ofNat_lt.mpr (charOfCode_lt (hp.registers r))⟩
    | plain | generic => exact h
  | direction =>
    simp only [direction]
    split <;> exact h
  | blank | start | fork | priority | kill | stop => exact h
  | inChar =>
    cases args with
    | register r o a =>
      show 0 ≤ c.shared.channel.grabChar.2.lastOutput ∧ c.shared.channel.grabChar.2.lastOutput < capacity
      rwa [Channel.grabChar_lastOutput]
    | plain | generic => exact h
  | load | store | inNumber | posX | posY => cases args <;> exact h

theorem Piston.step_inRange {program : Program} {s : Shared} {p : Piston} {st : Step}
    (hreg : program.registry = .standard) (hp : p.Wrapped) (hs : s.channel.InRange)
    (h : p.step program s = .ok st) : st.shared.channel.InRange := by
  rcases Piston.step_cases h with ⟨_, rfl⟩ | ⟨w, d, _, hd, rfl⟩
  · exact hs
  · exact Catalog.inRange (Catalog.mem_of_decode hreg hd) d.args
      (c := ⟨{ p with executed := p.executed + 1 }, s⟩) (hp.of_same rfl rfl rfl) hs

/-! ## Whole runs -/

/-- The shared state is wrapped, every step since the last reset was taken by a wrapped piston, and the
standard catalog has written nothing beyond the bound. -/
structure WrappedRun (program : Program) (trace : List Move) (s : Shared) : Prop where
  shared : s.Wrapped
  steppers : ∀ m ∈ trace, m.piston.Wrapped
  lastOutput : program.registry = .standard → s.channel.InRange

/-- **Nothing ever leaves the bounds.** -/
theorem WrappedRun.kept (program : Program) : Kept program Piston.Wrapped (WrappedRun program) where
  spawn id s := .spawn id _ _ _
  fresh n := ⟨.fresh _ n, by simp, fun _ => by simp [Shared.fresh, Channel.ofInput, Channel.InRange, capacity]⟩
  step := by
    intro trace s p st hp h hst
    obtain ⟨hp', hs'⟩ := Piston.step_wrapped hp h.shared hst
    refine ⟨hp', hs', ?_, fun hreg => Piston.step_inRange hreg hp (h.lastOutput hreg) hst⟩
    exact List.forall_mem_append.mpr ⟨h.steppers, by simpa using hp⟩
  waiting h := h.shared.queue
  dequeue h := ⟨h.shared.dequeue, h.steppers, h.lastOutput⟩

/-! ## Planes that agree below the bound -/

/-- The same engine over another plane. -/
def Engine.onPlane (e : Engine) (plane : Plane) : Engine :=
  { e with program := { e.program with plane } }

/-- Two planes have the same start points, and the same words below the bound. -/
structure Plane.SameWithin (plane plane' : Plane) : Prop where
  starts : plane'.starts = plane.starts
  words : ∀ x y, x < capacity → y < capacity → plane'.wordAt? x y = plane.wordAt? x y

/-- **A pass of wrapped pistons does not look beyond the bound.** -/
theorem stepAll_replane {program : Program} {plane : Plane} (h : program.plane.SameWithin plane)
    (s : Shared) {ps : List Piston} (hps : ∀ p ∈ ps, p.Wrapped) :
    stepAll { program with plane } s ps = stepAll program s ps := by
  refine stepAll_congr (fun p hp s => ?_) s
  unfold Piston.step
  rw [show ({ program with plane } : Program).plane.wordAt? p.x p.y = program.plane.wordAt? p.x p.y
    from h.words p.x p.y (hps p hp).x (hps p hp).y]

/-- No call can tell apart two engines over such planes. -/
theorem Engine.onPlane_simulation {program : Program} {plane : Plane}
    (h : program.plane.SameWithin plane) :
    Simulation fun e₁ e₂ => e₁.program = program ∧ e₂ = e₁.onPlane plane ∧
      ∃ trace, (∀ p ∈ e₁.pistons, p.Wrapped) ∧ WrappedRun program trace e₁.shared := by
  have hrec := (WrappedRun.kept program).recorded
  constructor
  · rintro e _ ⟨_, rfl, _⟩
    rfl
  · rintro e _ ⟨_, rfl, _⟩
    rfl
  · rintro e _ ⟨_, rfl, _⟩
    rfl
  · rintro e _ ⟨_, rfl, _⟩
    rfl
  · rintro e _ ⟨hp, rfl, _⟩
    refine ⟨hp, ?_, [], hrec.reset [] e hp⟩
    simp [Engine.reset, Engine.onPlane, hp, h.starts]
  · rintro e _ ⟨hp, rfl, trace, hw⟩
    exact ⟨hp, rfl, trace, hrec.kill [] trace e hp hw⟩
  · rintro e _ ⟨hp, rfl, trace, hw⟩ hab hend
    have hpass : stepAll (e.onPlane plane).program (e.onPlane plane).shared (e.onPlane plane).pistons =
        stepAll e.program e.shared e.pistons := by
      subst hp
      exact stepAll_replane h e.shared hw.1
    have hadvance : (e.onPlane plane).advance =
        ⟨e.advance.engine.onPlane plane, e.advance.error, e.advance.events⟩ := by
      unfold Engine.advance
      rw [hpass]
      simp only
      split <;> rfl
    rw [hadvance]
    exact ⟨rfl, e.advance_program.trans hp, rfl, _, hrec.advance [] trace e hp hab hend hw⟩

/-- **Stored values stay wrapped**, over any registry and any plane and after any calls, also inside a
cycle: positions, registers and memory are below the bound, in the list and in the queue.  That hints
are below four is carried by their type.  So only cells below the bound are ever asked for.  Over the
standard registry the last output is not negative and below the bound. -/
theorem stored_values_stay_wrapped (program : Program) (calls : List Call) :
    let e := program.after calls
    (∀ p ∈ e.pistons ++ entrants e.shared.queue, p.Wrapped ∧ ∀ r, (p.options.get r).val < 4) ∧
    (∀ cell ∈ e.shared.memory.cells, cell.2 < capacity) ∧
    (∀ k, let pass := stepAll program e.shared (e.pistons.take k)
      (∀ p ∈ pass.pistons ++ entrants pass.shared.queue, p.Wrapped) ∧
        ∀ cell ∈ pass.shared.memory.cells, cell.2 < capacity) ∧
    (∀ m ∈ program.trace calls, m.piston.x < capacity ∧ m.piston.y < capacity) ∧
    (∀ plane : Plane, plane.starts = program.plane.starts →
      (∀ x y, x < capacity → y < capacity → plane.wordAt? x y = program.plane.wordAt? x y) →
      (Engine.start { program with plane }).engine.results calls =
          (Engine.start program).engine.results calls ∧
        Program.after { program with plane } calls = e.onPlane plane) ∧
    (program.registry = .standard →
      0 ≤ e.shared.channel.lastOutput ∧ e.shared.channel.lastOutput < capacity) := by
  intro e
  have hkept := WrappedRun.kept program
  obtain ⟨hpistons, hrun⟩ := hkept.after calls
  refine ⟨?_, hrun.shared.memory, ?_, ?_, ?_, hrun.lastOutput⟩
  · intro p hp
    refine ⟨?_, fun r => (p.options.get r).isLt⟩
    rcases List.mem_append.mp hp with hp | hp
    · exact hpistons p hp
    · exact hrun.shared.queue p hp
  · intro k pass
    obtain ⟨hps, hpass⟩ := hkept.pass (e.pistons.take k) _ e.shared
      (fun p hp => hpistons p (List.mem_of_mem_take hp)) hrun
    exact ⟨List.forall_mem_append.mpr ⟨hps, hpass.shared.queue⟩, hpass.shared.memory⟩
  · intro m hm
    exact ⟨(hrun.steppers m hm).x, (hrun.steppers m hm).y⟩
  · intro plane hstarts hwords
    have hsame : program.plane.SameWithin plane := ⟨hstarts, hwords⟩
    have hfirst : (Engine.start { program with plane }).engine =
        (Engine.start program).engine.onPlane plane := by
      simp [Engine.start, Engine.reset, Engine.onPlane, hstarts]
    obtain ⟨hresults, _, hafter, _⟩ := (Engine.onPlane_simulation hsame).callAll calls
      (Engine.start program).engine _ ⟨rfl, hfirst, [], hkept.recorded.reset [] _ rfl⟩
    exact ⟨hresults.symm, hafter⟩

/-- A piston whose start point lies far beyond the bound reads a character beyond it, crosses the edge and
writes what it has read as a number. -/
def overfull : Program where
  plane := SparseGrid.plane
    ⟨[((1048575, 0), .registerMeta 0xC 1 (.ofBits 0) .none 0),
        ((0, 0), .registerMeta 0xC 2 (.ofBits 0) .none 0)], some .blank,
      [⟨4294967295, 0, .right⟩]⟩
  registry := .standard
  config := .standard
  input := [Char.ofNat 0x10FFFF]

/-- The same cells below the bound, and nothing beyond it. -/
def overfullWalled : Plane where
  wordAt? x y := if x < capacity ∧ y < capacity then overfull.plane.wordAt? x y else none
  starts := overfull.plane.starts

/-- Position, register and output are all reduced, and the wall is never noticed. -/
theorem stored_values_stay_wrapped_overfull :
    let e := overfull.after [.cycle, .cycle]
    e.pistons.map (fun p => (p.x, p.register 0)) = [(1, 65535)] ∧
      (∀ p ∈ e.pistons, p.Wrapped) ∧
      e.shared.channel.lastOutput = 65535 ∧ e.shared.channel.lastOutput < capacity ∧
      Program.after { overfull with plane := overfullWalled } [.cycle, .cycle] =
        e.onPlane overfullWalled := by
  obtain ⟨hpistons, _, _, _, hplane, hlast⟩ := stored_values_stay_wrapped overfull [.cycle, .cycle]
  refine ⟨by decide, fun p hp => (hpistons p (List.mem_append_left _ hp)).1, by decide, (hlast rfl).2,
    (hplane overfullWalled rfl fun x y hx hy => ?_).2⟩
  simp [overfullWalled, hx, hy]

end PistonGrid
