import PistonGrid.Proofs.StandardWords
import PistonGrid.Proofs.Wrapping

/-!
# Bits that nobody reads

Most standard instructions read a few bits of their word and ignore the others.  Words that differ in
ignored bits only have the same script, and what an engine does depends on the words of its plane through
their scripts alone.

* `Word.Interchangeable` — words that are equal up to ignored bits, instruction by instruction.
* `Word.script?`, `Word.Interchangeable.script?` — such words have the same script.
* `Piston.step_silent` — apart from what it tells, a step depends on the script of its word;
  `stepAll_silent_congr` — and so does a pass.
* `Plane.Interchangeable.simulation` — no call can tell apart two engines over interchangeable planes.
-/

set_option autoImplicit false

namespace PistonGrid

/-! ## Interchangeable words -/

/-- A piston passes over the word: a `BLANK`, a `START`, or a `DIRECTION` that keeps the heading. -/
def Word.PassedOver (w : Word) : Prop :=
  w.StandsFor Catalog.blank ∨ w.StandsFor Catalog.start ∨
    (w.StandsFor Catalog.direction ∧ w.payload % 4 = 0)

/-- Two words are equal, or equal up to the bits that their instructions ignore.  `LOAD` ignores none. -/
inductive Word.Interchangeable : Word → Word → Prop where
  | same (w : Word) : Interchangeable w w
  | passedOver {w w' : Word} (h : w.PassedOver) (h' : w'.PassedOver) : Interchangeable w w'
  | direction {w w' : Word} (h : w.StandsFor Catalog.direction) (h' : w'.StandsFor Catalog.direction)
      (bits : w.payload % 4 = w'.payload % 4) : Interchangeable w w'
  /-- Two and three both send the copy back. -/
  | fork {w w' : Word} (h : w.StandsFor Catalog.fork) (h' : w'.StandsFor Catalog.fork)
      (bits : min (w.payload % 4) 2 = min (w'.payload % 4) 2) : Interchangeable w w'
  | stop {w w' : Word} (h : w.StandsFor Catalog.stop) (h' : w'.StandsFor Catalog.stop) :
      Interchangeable w w'
  | kill {w w' : Word} (h : w.StandsFor Catalog.kill) (h' : w'.StandsFor Catalog.kill) :
      Interchangeable w w'
  /-- `OUT_NUMBER`, `OUT_CHAR`, `POS_X` and `POS_Y` read their register field only. -/
  | report {w w' : Word} {i : Instruction}
      (hi : i ∈ [Catalog.outNumber, Catalog.outChar, Catalog.posX, Catalog.posY])
      (h : w.StandsFor i) (h' : w'.StandsFor i) (register : w.register = w'.register) :
      Interchangeable w w'
  /-- `IN_NUMBER` and `IN_CHAR` read their register and their options. -/
  | input {w w' : Word} {i : Instruction} (hi : i ∈ [Catalog.inNumber, Catalog.inChar])
      (h : w.StandsFor i) (h' : w'.StandsFor i) (register : w.register = w'.register)
      (options : w.options = w'.options) : Interchangeable w w'
  | store {w w' : Word} (h : w.StandsFor Catalog.store) (h' : w'.StandsFor Catalog.store)
      (register : w.register = w'.register) (argument : w.shortArgument = w'.shortArgument) :
      Interchangeable w w'
  | priority {w w' : Word} (h : w.StandsFor Catalog.priority) (h' : w'.StandsFor Catalog.priority)
      (argument : w.shortArgument = w'.shortArgument) : Interchangeable w w'

/-! ## Scripts of words -/

/-- The script that a word has under the standard registry. -/
def Word.script? (w : Word) : Except DecodeError Script :=
  (Registry.standard.decode w).map fun d => d.instruction.script d.args

theorem Word.StandsFor.script? {w : Word} {i : Instruction} (h : w.StandsFor i) :
    w.script? = .ok (i.script (.extract w i.family)) := by
  rw [Word.script?, h.decode]
  rfl

theorem Word.PassedOver.script? {w : Word} (h : w.PassedOver) : w.script? = .ok Catalog.advance := by
  rcases h with h | h | ⟨h, hbits⟩
  · rw [h.script?]
    rfl
  · rw [h.script?]
    rfl
  · rw [h.script?]
    simp [Catalog.direction, Args.extract, Args.argument, Catalog.redirection, hbits]

theorem Turn.ofBits_congr {a b : Nat} (h : min (a % 4) 2 = min (b % 4) 2) : ofBits a = ofBits b := by
  have hback : ∀ n : Nat, ofBits n =
      if min (n % 4) 2 = 0 then .left else if min (n % 4) 2 = 1 then .right else .reverse := by
    intro n
    unfold ofBits
    rcases (by omega : n % 4 = 0 ∨ n % 4 = 1 ∨ n % 4 = 2 ∨ n % 4 = 3) with hn | hn | hn | hn <;>
      simp [hn]
  rw [hback a, hback b, h]

/-- **Interchangeable words have the same script.** -/
theorem Word.Interchangeable.script? {w w' : Word} (h : w.Interchangeable w') :
    w.script? = w'.script? := by
  cases h with
  | same => rfl
  | passedOver h h' => rw [h.script?, h'.script?]
  | direction h h' bits =>
    rw [h.script?, h'.script?]
    simp only [Catalog.direction, Args.extract, Args.argument, Catalog.redirection, bits]
  | fork h h' bits =>
    rw [h.script?, h'.script?]
    simp only [Catalog.fork, Args.extract, Args.argument, Turn.ofBits_congr bits]
  | stop h h' =>
    rw [h.script?, h'.script?]
    rfl
  | kill h h' =>
    rw [h.script?, h'.script?]
    rfl
  | report hi h h' register =>
    rw [h.script?, h'.script?]
    simp only [List.mem_cons, List.not_mem_nil, or_false] at hi
    rcases hi with rfl | rfl | rfl | rfl
    · simp only [Catalog.outNumber, Args.extract, Catalog.withRegister, register]
    · simp only [Catalog.outChar, Args.extract, Catalog.withRegister, register]
    · simp only [Catalog.posX, Args.extract, Catalog.locate, register]
    · simp only [Catalog.posY, Args.extract, Catalog.locate, register]
  | input hi h h' register options =>
    rw [h.script?, h'.script?]
    simp only [List.mem_cons, List.not_mem_nil, or_false] at hi
    rcases hi with rfl | rfl
    · simp only [Catalog.inNumber, Args.extract, Catalog.withRegister, register, options]
    · simp only [Catalog.inChar, Args.extract, Catalog.withRegister, register, options]
  | store h h' register argument =>
    rw [h.script?, h'.script?]
    simp only [Catalog.store, Args.extract, Catalog.withRegister, register, argument]
  | priority h h' argument =>
    rw [h.script?, h'.script?]
    simp only [Catalog.priority, Args.extract, Args.argument, argument]

/-! ## Steps and passes, apart from what they tell -/

/-- A step without its events, which name the word. -/
def Step.silent (st : Step) : Step := { st with events := [] }

/-- A pass without its events. -/
def Pass.silent (pass : Pass) : Pass := { pass with events := [] }

/-- What a piston does with a script. -/
def Piston.carryOut (p : Piston) (s : Shared) (script : Script) : Step :=
  let r := script.run ⟨{ p with executed := p.executed + 1 }, s⟩
  ⟨if r.verdict = .retire then r.context.piston.retire else r.context.piston, r.context.shared,
    r.verdict, []⟩

/-- **A step depends on its word through the script**, apart from what it tells. -/
theorem Piston.step_silent {program : Program} (hreg : program.registry = .standard) (s : Shared)
    (p : Piston) :
    (p.step program s).map Step.silent =
      match (program.plane.wordAt? p.x p.y).map Word.script? with
      | none => .ok (p.leave s).silent
      | some script? => script?.map (p.carryOut s) := by
  cases hw : program.plane.wordAt? p.x p.y with
  | none =>
    rw [step_outside hw]
    rfl
  | some w =>
    cases hd : program.registry.decode w with
    | error cause =>
      rw [step_undecodable hw hd]
      rw [hreg] at hd
      simp [Word.script?, hd, Except.map]
    | ok d =>
      rw [step_inside hw hd]
      rw [hreg] at hd
      simp [Word.script?, hd, Except.map, execute, carryOut, Step.silent]

/-- Programs under which every piston steps alike, apart from what it tells, have the same passes, apart
from what these tell. -/
theorem stepAll_silent_congr {program program' : Program}
    (h : ∀ (p : Piston) (s : Shared),
      (p.step program' s).map Step.silent = (p.step program s).map Step.silent)
    (s : Shared) (ps : List Piston) :
    (stepAll program' s ps).silent = (stepAll program s ps).silent := by
  induction ps generalizing s with
  | nil => rfl
  | cons p ps ih =>
    have hp := h p s
    unfold stepAll
    cases hst' : p.step program' s with
    | error cause' =>
      cases hst : p.step program s with
      | error cause =>
        rw [hst, hst'] at hp
        cases hp
        rfl
      | ok st => rw [hst, hst'] at hp; cases hp
    | ok st' =>
      cases hst : p.step program s with
      | error cause => rw [hst, hst'] at hp; cases hp
      | ok st =>
        rw [hst, hst'] at hp
        have hsilent : st'.silent = st.silent := Except.ok.inj hp
        simp only [Step.silent, Step.mk.injEq] at hsilent
        obtain ⟨hpiston, hshared, hverdict, _⟩ := hsilent
        have hrest := ih st.shared
        simp only [hpiston, hshared, hverdict]
        split
        · rfl
        · simp only [Pass.silent, Pass.mk.injEq] at hrest ⊢
          simp [hrest]

/-! ## Engines over interchangeable planes -/

/-- Two planes have the same start points, and in each cell interchangeable words or the outside. -/
structure Plane.Interchangeable (plane plane' : Plane) : Prop where
  starts : plane'.starts = plane.starts
  words : ∀ x y, Option.Rel Word.Interchangeable (plane.wordAt? x y) (plane'.wordAt? x y)

namespace Plane.Interchangeable

variable {plane plane' : Plane}

theorem scripts (h : plane.Interchangeable plane') (x y : Nat) :
    (plane'.wordAt? x y).map Word.script? = (plane.wordAt? x y).map Word.script? := by
  have hcell := h.words x y
  generalize plane.wordAt? x y = cell at hcell ⊢
  generalize plane'.wordAt? x y = cell' at hcell ⊢
  cases hcell with
  | some hw => exact congrArg some hw.script?.symm
  | none => rfl

theorem stepAll (h : plane.Interchangeable plane') {program : Program}
    (hreg : program.registry = .standard) (hplane : program.plane = plane) (s : Shared)
    (ps : List Piston) :
    (PistonGrid.stepAll { program with plane := plane' } s ps).silent =
      (PistonGrid.stepAll program s ps).silent := by
  refine stepAll_silent_congr (fun p s => ?_) s ps
  have hreg' : ({ program with plane := plane' } : Program).registry = .standard := hreg
  rw [Piston.step_silent hreg, Piston.step_silent hreg']
  simp only [hplane, h.scripts]

theorem advance (h : plane.Interchangeable plane') {e : Engine}
    (hreg : e.program.registry = .standard) (hplane : e.program.plane = plane) :
    (e.onPlane plane').advance.error = e.advance.error ∧
      (e.onPlane plane').advance.engine = e.advance.engine.onPlane plane' := by
  have hpass : (PistonGrid.stepAll (e.onPlane plane').program (e.onPlane plane').shared
      (e.onPlane plane').pistons).silent = (PistonGrid.stepAll e.program e.shared e.pistons).silent :=
    h.stepAll hreg hplane e.shared e.pistons
  simp only [Pass.silent, Pass.mk.injEq] at hpass
  obtain ⟨hpistons, hshared, hhalt, _⟩ := hpass
  unfold Engine.advance
  simp only [hpistons, hshared, hhalt]
  split <;> exact ⟨rfl, rfl⟩

/-- **No call can tell apart two engines over interchangeable planes.** -/
theorem simulation (h : plane.Interchangeable plane') :
    Simulation fun e e' => e.program.registry = .standard ∧ e.program.plane = plane ∧
      e' = e.onPlane plane' := by
  constructor
  · rintro e _ ⟨_, _, rfl⟩
    rfl
  · rintro e _ ⟨_, _, rfl⟩
    rfl
  · rintro e _ ⟨_, _, rfl⟩
    rfl
  · rintro e _ ⟨_, _, rfl⟩
    rfl
  · rintro e _ ⟨hreg, hplane, rfl⟩
    refine ⟨hreg, hplane, ?_⟩
    simp [Engine.reset, Engine.onPlane, hplane, h.starts]
  · rintro e _ ⟨hreg, hplane, rfl⟩
    exact ⟨hreg, hplane, rfl⟩
  · rintro e _ ⟨hreg, hplane, rfl⟩ _ _
    obtain ⟨herror, hengine⟩ := h.advance hreg hplane
    refine ⟨herror.symm, ?_, ?_, hengine⟩
    · rw [e.advance_program, hreg]
    · rw [e.advance_program, hplane]

end Plane.Interchangeable

/-- **Ignored bits do not matter.** On two planes with the same start points, whose cells hold, one by
one, the same words up to the bits that their instructions ignore, engines over the standard registry
return the same to every call of every sequence, and after it they are the same but for the plane. -/
theorem ignored_bits_do_not_matter {plane plane' : Plane} (h : plane.Interchangeable plane')
    (config : Config) (input : List Char) (calls : List Call) :
    let program : Program := ⟨plane, .standard, config, input⟩
    let program' : Program := ⟨plane', .standard, config, input⟩
    (Engine.start program').engine.results calls = (Engine.start program).engine.results calls ∧
      program'.after calls = (program.after calls).onPlane plane' ∧
      (program'.after calls).pistons = (program.after calls).pistons ∧
      (program'.after calls).shared = (program.after calls).shared ∧
      (program'.after calls).cycles = (program.after calls).cycles ∧
      (program'.after calls).status = (program.after calls).status := by
  intro program program'
  have hstart : (Engine.start program').engine = (Engine.start program).engine.onPlane plane' := by
    simp [Engine.start, Engine.reset, Engine.onPlane, program, program', h.starts]
  obtain ⟨hresults, _, _, hafter⟩ := h.simulation.callAll calls (Engine.start program).engine
    (Engine.start program').engine ⟨rfl, rfl, hstart⟩
  have hafter : program'.after calls = (program.after calls).onPlane plane' := hafter
  refine ⟨hresults.symm, hafter, ?_, ?_, ?_, ?_⟩ <;> rw [hafter] <;> rfl

/-- A piston reads a number, writes it, sends a copy back over it, goes on and takes a priority. -/
def tidyRow : Plane where
  wordAt? x _ :=
    match x with
    | 0 => some .blank
    | 1 => some (.registerMeta 0xC 0 (.ofBits 2) (.ofBits 1) 0)
    | 2 => some (.registerMeta 0xC 2 (.ofBits 2) (.ofBits 0) 0)
    | 3 => some (.plain 0x4 2)
    | 4 => some .blank
    | 5 => some (.registerMeta 0xD 6 (.ofBits 0) (.ofBits 0) 9)
    | _ => some (.plain 0xF 0)
  starts := [⟨0, 0, .right⟩]

/-- The same with all ignored bits set at will. -/
def untidyRow : Plane where
  wordAt? x _ :=
    match x with
    | 0 => some (.plain 0x1 99)
    | 1 => some (.registerMeta 0xC 0 (.ofBits 2) (.ofBits 1) 77)
    | 2 => some (.registerMeta 0xC 2 (.ofBits 2) (.ofBits 3) 5)
    | 3 => some (.plain 0x4 7)
    | 4 => some (.plain 0x3 12)
    | 5 => some (.registerMeta 0xD 6 (.ofBits 7) (.ofBits 2) 9)
    | _ => some (.plain 0xF 1)
  starts := [⟨0, 0, .right⟩]

/-- In six cycles both rows lead to the same engine, in which the piston and its copy have written the
number. -/
theorem ignored_bits_do_not_matter_untidyRow :
    let calls : List Call := List.replicate 6 .cycle
    let tidy : Program := ⟨tidyRow, .standard, .standard, ['4', '2']⟩
    let untidy : Program := ⟨untidyRow, .standard, .standard, ['4', '2']⟩
    tidyRow.Interchangeable untidyRow ∧
      (tidy.after calls).shared.channel.output = "4242" ∧
      (tidy.after calls).pistons.map (fun p => (p.x, p.heading, p.priority)) =
        [(5, .right, 9), (0, .left, 0)] ∧
      untidy.after calls = (tidy.after calls).onPlane untidyRow := by
  intro calls tidy untidy
  have hrows : tidyRow.Interchangeable untidyRow := by
    refine ⟨rfl, fun x y => ?_⟩
    match x with
    | 0 => exact .some (.passedOver (.inl ⟨_, rfl, rfl⟩) (.inr (.inl ⟨_, rfl, rfl⟩)))
    | 1 => exact .some (.input List.mem_cons_self ⟨_, rfl, rfl⟩ ⟨_, rfl, rfl⟩ (by decide) (by decide))
    | 2 => exact .some (.report List.mem_cons_self ⟨_, rfl, rfl⟩ ⟨_, rfl, rfl⟩ (by decide))
    | 3 => exact .some (.fork ⟨_, rfl, rfl⟩ ⟨_, rfl, rfl⟩ (by decide))
    | 4 => exact .some (.passedOver (.inl ⟨_, rfl, rfl⟩) (.inr (.inr ⟨⟨_, rfl, rfl⟩, by decide⟩)))
    | 5 => exact .some (.priority ⟨_, rfl, rfl⟩ ⟨_, rfl, rfl⟩ (by decide))
    | _ + 6 => exact .some (.stop ⟨_, rfl, rfl⟩ ⟨_, rfl, rfl⟩)
  exact ⟨hrows, by decide +kernel, by decide +kernel,
    (ignored_bits_do_not_matter hrows .standard ['4', '2'] calls).2.1⟩

end PistonGrid
