import PistonGrid.Proofs.Runs
import PistonGrid.Proofs.Standard
import PistonGrid.Proofs.Steps

/-!
# Input cannot steer control

No standard instruction looks at the contents of a register, at a memory cell or at the input before it
decides what to do, so two engines that differ in these alone do the same for ever.

* `Piston.outline`, `Memory.addresses` — a piston without the contents of its registers, a memory
  without the contents of its cells.
* `Shared.Alike`, `Context.Alike`, `Engine.Alike` — equal but for contents, input and output.
* `Script.Alike` — two scripts that do the same, whatever contents they are handed.
  `Catalog.alike` — every standard script is like itself in this sense.
* `Script.Alike.run`, `Piston.step_alike`, `stepAll_alike`, `drain_map` — alike stays alike, through a
  script, a step, a pass and a drain.
* `Engine.Alike.simulation` — so no call can tell the two engines apart.
-/

set_option autoImplicit false

namespace PistonGrid

/-! ## Equal but for contents -/

/-- A piston without the contents of its registers. -/
def Piston.outline (p : Piston) : Piston := { p with registers := Vector.replicate 8 0 }

@[simp] theorem Piston.outline_id (p : Piston) : p.outline.id = p.id := rfl

@[simp] theorem Piston.outline_x (p : Piston) : p.outline.x = p.x := rfl

@[simp] theorem Piston.outline_y (p : Piston) : p.outline.y = p.y := rfl

@[simp] theorem Piston.outline_priority (p : Piston) : p.outline.priority = p.priority := rfl

/-- The written addresses, ascending. -/
def Memory.addresses (m : Memory) : List Nat := m.cells.map (·.1)

/-- A request with its entrant changed. -/
def MergeRequest.map (f : Piston → Piston) : MergeRequest → MergeRequest
  | .fork anchor entrant side => .fork anchor (f entrant) side
  | .reprioritize piston priority => .reprioritize piston priority

/-- A halt with its piston changed. -/
def Halt.map (f : Piston → Piston) : Halt → Halt
  | .kill => .kill
  | .fault piston cause => .fault (f piston) cause

/-- Shared states with the same written addresses, the same requests up to the contents of registers,
and the same next identity. -/
structure Shared.Alike (s₁ s₂ : Shared) : Prop where
  addresses : s₁.memory.addresses = s₂.memory.addresses
  queue : s₁.queue.map (·.map Piston.outline) = s₂.queue.map (·.map Piston.outline)
  nextId : s₁.nextId = s₂.nextId

/-- Contexts with the same piston up to the contents of registers, and alike shared states. -/
structure Context.Alike (c₁ c₂ : Context) : Prop where
  piston : c₁.piston.outline = c₂.piston.outline
  shared : Shared.Alike c₁.shared c₂.shared

/-- Actions that differ in a stored or written value at most. -/
inductive Action.Alike : Action → Action → Prop where
  | same (a : Action) : Alike a a
  | setRegister (r : Register) (v₁ v₂ : Int) (o : RegisterOptions) :
      Alike (.setRegister r v₁ o) (.setRegister r v₂ o)
  | store (address : Nat) (v₁ v₂ : Int) : Alike (.store address v₁) (.store address v₂)
  | write (i₁ i₂ : OutputItem) : Alike (.write i₁) (.write i₂)

/-- Scripts that go the same way: whatever contents they are handed, they perform alike actions and end
with the same verdict. -/
inductive Script.Alike : Script → Script → Prop where
  | finish (verdict : Verdict) : Alike (.finish verdict) (.finish verdict)
  | perform {a₁ a₂ : Action} {n₁ n₂ : Script} (action : Action.Alike a₁ a₂) (next : Alike n₁ n₂) :
      Alike (.perform a₁ n₁) (.perform a₂ n₂)
  | load (address : Nat) {n₁ n₂ : Nat → Script} (next : ∀ v₁ v₂, Alike (n₁ v₁) (n₂ v₂)) :
      Alike (.load address n₁) (.load address n₂)
  | grabNumber {n₁ n₂ : Nat → Script} (next : ∀ v₁ v₂, Alike (n₁ v₁) (n₂ v₂)) :
      Alike (.grabNumber n₁) (.grabNumber n₂)
  | grabChar {n₁ n₂ : Nat → Script} (next : ∀ v₁ v₂, Alike (n₁ v₁) (n₂ v₂)) :
      Alike (.grabChar n₁) (.grabChar n₂)
  | inspect {n₁ n₂ : Context → Script}
      (next : ∀ c₁ c₂, Context.Alike c₁ c₂ → Alike (n₁ c₁) (n₂ c₂)) :
      Alike (.inspect n₁) (.inspect n₂)

/-! ## The standard scripts -/

theorem Script.Alike.ofActions (actions : List Action) (verdict : Verdict) :
    Script.Alike (.ofActions actions verdict) (.ofActions actions verdict) := by
  induction actions with
  | nil => exact .finish verdict
  | cons a actions ih => exact .perform (.same a) ih

theorem Catalog.locate_alike (coordinate : Piston → Nat) (args : Args) :
    Script.Alike (locate coordinate args) (locate coordinate args) := by
  cases args with
  | register r o argument =>
    exact .inspect fun c₁ c₂ _ => .perform (.setRegister r _ _ _) (.finish _)
  | plain payload => exact .finish _
  | generic argument => exact .finish _

theorem Catalog.withRegister_alike {body : Register → RegisterOptions → Nat → Script → Script}
    (hbody : ∀ r o argument, Script.Alike (body r o argument advance) (body r o argument advance))
    (args : Args) : Script.Alike (withRegister body args) (withRegister body args) := by
  cases args with
  | register r o argument => exact hbody r o argument
  | plain payload => exact .ofActions _ _
  | generic argument => exact .ofActions _ _

/-- **No standard instruction decides by contents**: its script is like itself. -/
theorem Catalog.alike {i : Instruction} (hi : i ∈ Catalog.instructions) (args : Args) :
    Script.Alike (i.script args) (i.script args) := by
  have hnext : Script.Alike advance advance := .ofActions _ _
  cases i, hi using Catalog.cases with
  | blank | start => exact hnext
  | direction =>
    simp only [direction]
    split
    · exact hnext
    · exact .perform (.same _) hnext
  | fork => exact .perform (.same _) hnext
  | load =>
    simp only [load]
    refine withRegister_alike (fun r o address => ?_) args
    exact .load address fun v₁ v₂ => .perform (.setRegister r _ _ o) hnext
  | store =>
    simp only [store]
    refine withRegister_alike (fun r o address => ?_) args
    exact .inspect fun c₁ c₂ _ => .perform (.store address _ _) hnext
  | inNumber =>
    simp only [inNumber]
    refine withRegister_alike (fun r o _ => ?_) args
    exact .grabNumber fun v₁ v₂ => .perform (.setRegister r _ _ o) hnext
  | inChar =>
    simp only [inChar]
    refine withRegister_alike (fun r o _ => ?_) args
    exact .grabChar fun v₁ v₂ => .perform (.setRegister r _ _ o) hnext
  | outNumber =>
    simp only [outNumber]
    refine withRegister_alike (fun r o _ => ?_) args
    exact .inspect fun c₁ c₂ _ => .perform (.write _ _) hnext
  | outChar =>
    simp only [outChar]
    refine withRegister_alike (fun r o _ => ?_) args
    exact .inspect fun c₁ c₂ _ => .perform (.write _ _) hnext
  | posX => exact locate_alike Piston.x args
  | posY => exact locate_alike Piston.y args
  | priority => exact .ofActions _ _
  | kill | stop => exact .finish _

/-! ## Scripts and steps -/

/-- A write adds the same address, whatever is written. -/
theorem insertCell_addresses (address v₁ v₂ : Nat) :
    ∀ {cells₁ cells₂ : List (Nat × Nat)}, cells₁.map (·.1) = cells₂.map (·.1) →
      (Memory.insertCell address v₁ cells₁).map (·.1) =
        (Memory.insertCell address v₂ cells₂).map (·.1)
  | [], [], _ => rfl
  | [], _ :: _, h => by cases h
  | _ :: _, [], h => by cases h
  | (a, _) :: cells₁, (b, _) :: cells₂, h => by
    simp only [List.map_cons, List.cons.injEq] at h
    obtain ⟨rfl, h⟩ := h
    simp only [Memory.insertCell]
    split
    · simp [h]
    · split
      · simp [h]
      · simp [insertCell_addresses address v₁ v₂ h]

theorem Shared.Alike.enqueue {s₁ s₂ : Shared} {r₁ r₂ : MergeRequest} (h : Shared.Alike s₁ s₂)
    (hr : r₁.map Piston.outline = r₂.map Piston.outline) :
    Shared.Alike (s₁.enqueue r₁) (s₂.enqueue r₂) := by
  refine ⟨h.addresses, ?_, h.nextId⟩
  simp only [Shared.enqueue, List.map_append, List.map_cons, List.map_nil]
  rw [h.queue, hr]

theorem Shared.Alike.fork {s₁ s₂ : Shared} {p₁ p₂ : Piston} (h : Shared.Alike s₁ s₂)
    (hp : p₁.outline = p₂.outline) (t : Turn) : Shared.Alike (s₁.fork p₁ t) (s₂.fork p₂ t) := by
  have hnext : Shared.Alike { s₁ with nextId := s₁.nextId + 1 } { s₂ with nextId := s₂.nextId + 1 } :=
    ⟨h.addresses, h.queue, congrArg (· + 1) h.nextId⟩
  refine hnext.enqueue ?_
  rw [← h.nextId]
  exact congrArg (fun p : Piston => MergeRequest.fork p.id (p.forked s₁.nextId t) (.ofTurn t)) hp

namespace Context.Alike

variable {c₁ c₂ : Context}

/-- What is put into a register is no part of the outline; its hint is. -/
theorem setRegister (hc : Context.Alike c₁ c₂) (r : Register) (v₁ v₂ : Int) (o : RegisterOptions) :
    Context.Alike { c₁ with piston := c₁.piston.setRegister r v₁ o }
      { c₂ with piston := c₂.piston.setRegister r v₂ o } := by
  refine ⟨?_, hc.shared⟩
  exact congrArg (fun p : Piston => { p with options := p.options.set r.val o r.isLt }) hc.piston

theorem store (hc : Context.Alike c₁ c₂) (address : Nat) (v₁ v₂ : Int) :
    Context.Alike
      { c₁ with shared := { c₁.shared with memory := c₁.shared.memory.set address v₁ } }
      { c₂ with shared := { c₂.shared with memory := c₂.shared.memory.set address v₂ } } :=
  ⟨hc.piston, insertCell_addresses _ _ _ hc.shared.addresses, hc.shared.queue, hc.shared.nextId⟩

/-- Reading and writing may do anything to the channel. -/
theorem channel (hc : Context.Alike c₁ c₂) (ch₁ ch₂ : Channel) :
    Context.Alike { c₁ with shared := { c₁.shared with channel := ch₁ } }
      { c₂ with shared := { c₂.shared with channel := ch₂ } } :=
  ⟨hc.piston, hc.shared.addresses, hc.shared.queue, hc.shared.nextId⟩

end Context.Alike

/-- Alike actions keep contexts alike. -/
theorem Action.Alike.apply {a₁ a₂ : Action} (ha : Action.Alike a₁ a₂) {c₁ c₂ : Context}
    (hc : Context.Alike c₁ c₂) : Context.Alike (a₁.apply c₁) (a₂.apply c₂) := by
  cases ha with
  | setRegister r v₁ v₂ o => exact hc.setRegister r v₁ v₂ o
  | store address v₁ v₂ => exact hc.store address v₁ v₂
  | write i₁ i₂ => exact hc.channel _ _
  | same =>
    -- none of these reads a register, so each commutes with taking the outline
    cases a₁ with
    | move n => exact ⟨congrArg (Piston.moveBy · n) hc.piston, hc.shared⟩
    | turn t => exact ⟨congrArg (Piston.turn · t) hc.piston, hc.shared⟩
    | face h => exact ⟨congrArg (Piston.face · h) hc.piston, hc.shared⟩
    | goTo x y => exact ⟨congrArg (Piston.goTo · x y) hc.piston, hc.shared⟩
    | setRegister r value o => exact hc.setRegister r value value o
    | retire => exact ⟨congrArg Piston.retire hc.piston, hc.shared⟩
    | fork t => exact ⟨hc.piston, hc.shared.fork hc.piston t⟩
    | setPriority priority =>
      have hid : c₁.piston.id = c₂.piston.id := by simpa using congrArg Piston.id hc.piston
      refine ⟨congrArg (fun p : Piston => { p with priority }) hc.piston, hc.shared.enqueue ?_⟩
      rw [hid]
    | store address value => exact hc.store address value value
    | clearMemory => exact ⟨hc.piston, rfl, hc.shared.queue, hc.shared.nextId⟩
    | write item => exact hc.channel _ _

/-- Alike scripts in alike contexts end with the same verdict in alike contexts. -/
theorem Script.Alike.run {s₁ s₂ : Script} (hs : Script.Alike s₁ s₂) :
    ∀ {c₁ c₂ : Context}, Context.Alike c₁ c₂ →
      (s₁.run c₁).verdict = (s₂.run c₂).verdict ∧
        Context.Alike (s₁.run c₁).context (s₂.run c₂).context := by
  induction hs with
  | finish verdict => exact fun hc => ⟨rfl, hc⟩
  | perform action _ ih => exact fun hc => ih (action.apply hc)
  | load address _ ih => exact fun hc => ih _ _ hc
  | grabNumber _ ih | grabChar _ ih => exact fun hc => ih _ _ (hc.channel _ _)
  | inspect _ ih => exact fun hc => ih _ _ hc hc

/-- The step of alike pistons in alike states: both fail for the same cause, or both succeed alike. -/
theorem Piston.step_alike {program₁ program₂ : Program} {s₁ s₂ : Shared} {p₁ p₂ : Piston}
    (hplane : program₁.plane = program₂.plane) (hreg₁ : program₁.registry = .standard)
    (hreg₂ : program₂.registry = .standard) (hp : p₁.outline = p₂.outline)
    (hs : Shared.Alike s₁ s₂) :
    (∃ cause, p₁.step program₁ s₁ = .error cause ∧ p₂.step program₂ s₂ = .error cause) ∨
      ∃ st₁ st₂, p₁.step program₁ s₁ = .ok st₁ ∧ p₂.step program₂ s₂ = .ok st₂ ∧
        st₁.verdict = st₂.verdict ∧ st₁.piston.outline = st₂.piston.outline ∧
        Shared.Alike st₁.shared st₂.shared := by
  have hx : p₁.x = p₂.x := by simpa using congrArg Piston.x hp
  have hy : p₁.y = p₂.y := by simpa using congrArg Piston.y hp
  cases hw : program₁.plane.wordAt? p₁.x p₁.y with
  | none =>
    have hw₂ : program₂.plane.wordAt? p₂.x p₂.y = none := by rw [← hplane, ← hx, ← hy, hw]
    exact .inr ⟨_, _, step_outside hw, step_outside hw₂, rfl, congrArg Piston.retire hp, hs⟩
  | some w =>
    have hw₂ : program₂.plane.wordAt? p₂.x p₂.y = some w := by rw [← hplane, ← hx, ← hy, hw]
    have hreg : program₂.registry = program₁.registry := hreg₂.trans hreg₁.symm
    cases hd : program₁.registry.decode w with
    | error cause =>
      exact .inl ⟨cause, step_undecodable hw hd, step_undecodable hw₂ (by rw [hreg, hd])⟩
    | ok d =>
      refine .inr ⟨_, _, step_inside hw hd, step_inside hw₂ (by rw [hreg, hd]), ?_⟩
      have hmem := Catalog.mem_of_decode hreg₁ hd
      have hc : Context.Alike ⟨{ p₁ with executed := p₁.executed + 1 }, s₁⟩
          ⟨{ p₂ with executed := p₂.executed + 1 }, s₂⟩ :=
        ⟨congrArg (fun p : Piston => { p with executed := p.executed + 1 }) hp, hs⟩
      obtain ⟨hv, hrun⟩ := (Catalog.alike hmem d.args).run hc
      refine ⟨hv, ?_, hrun.shared⟩
      simp only [Piston.execute]
      rw [hv]
      split
      · exact congrArg Piston.retire hrun.piston
      · exact hrun.piston

/-- A pass over alike lists stops at the same place for the same reason, and leaves alike lists. -/
theorem stepAll_alike {program₁ program₂ : Program} (hplane : program₁.plane = program₂.plane)
    (hreg₁ : program₁.registry = .standard) (hreg₂ : program₂.registry = .standard) :
    ∀ {ps₁ ps₂ : List Piston} {s₁ s₂ : Shared}, ps₁.map Piston.outline = ps₂.map Piston.outline →
      Shared.Alike s₁ s₂ →
      (stepAll program₁ s₁ ps₁).pistons.map Piston.outline =
          (stepAll program₂ s₂ ps₂).pistons.map Piston.outline ∧
        Shared.Alike (stepAll program₁ s₁ ps₁).shared (stepAll program₂ s₂ ps₂).shared ∧
        (stepAll program₁ s₁ ps₁).halt.map (·.map Piston.outline) =
          (stepAll program₂ s₂ ps₂).halt.map (·.map Piston.outline)
  | [], [], _, _, _, hs => ⟨rfl, hs, rfl⟩
  | [], _ :: _, _, _, h, _ => by cases h
  | _ :: _, [], _, _, h, _ => by cases h
  | p₁ :: ps₁, p₂ :: ps₂, s₁, s₂, h, hs => by
    simp only [List.map_cons, List.cons.injEq] at h
    obtain ⟨hp, hps⟩ := h
    rcases Piston.step_alike hplane hreg₁ hreg₂ hp hs with ⟨cause, h₁, h₂⟩ |
      ⟨st₁, st₂, h₁, h₂, hv, hpiston, hshared⟩
    · simp [stepAll, h₁, h₂, hp, hps, hs, Halt.map]
    · by_cases hk : st₂.verdict = .kill
      · simp [stepAll, h₁, h₂, hv, hk, hpiston, hps, hshared]
      · obtain ⟨hrest, hshared', hhalt⟩ := stepAll_alike hplane hreg₁ hreg₂ hps hshared
        simp [stepAll, h₁, h₂, hv, hk, hpiston, hrest, hshared', hhalt]

/-! ## Draining reads identities and priorities only -/

section

variable {f : Piston → Piston}

theorem insertBeside_map (hid : ∀ p, (f p).id = p.id) (anchor : Nat) (entrant : Piston) (side : Side)
    (ps : List Piston) :
    (insertBeside anchor entrant side ps).map f = insertBeside anchor (f entrant) side (ps.map f) := by
  induction ps with
  | nil => rfl
  | cons p ps ih =>
    simp only [insertBeside, List.map_cons, hid]
    split
    · cases side <;> rfl
    · rw [List.map_cons, ih]

theorem insertByPriority_map (hpri : ∀ p, (f p).priority = p.priority) (moving : Piston)
    (priority : Int) (ps : List Piston) :
    (insertByPriority moving priority ps).map f = insertByPriority (f moving) priority (ps.map f) := by
  induction ps with
  | nil => rfl
  | cons p ps ih =>
    simp only [insertByPriority, List.map_cons, hpri]
    split
    · rfl
    · rw [List.map_cons, ih]

theorem apply_map (hid : ∀ p, (f p).id = p.id) (hpri : ∀ p, (f p).priority = p.priority)
    (ps : List Piston) (r : MergeRequest) : (r.apply ps).map f = (r.map f).apply (ps.map f) := by
  cases r with
  | fork anchor entrant side => exact insertBeside_map hid anchor entrant side ps
  | reprioritize id priority =>
    have hsame : ((fun p : Piston => p.id == id) ∘ f) = fun p => p.id == id := by
      funext p
      simp [hid]
    have hfind : findPiston? id (ps.map f) = (findPiston? id ps).map f := by
      rw [findPiston?, List.find?_map, hsame, findPiston?]
    have hremove : removePiston id (ps.map f) = (removePiston id ps).map f := by
      rw [removePiston, List.eraseP_map, hsame, removePiston]
    simp only [MergeRequest.apply, MergeRequest.map, hfind, hremove]
    cases findPiston? id ps with
    | none => rfl
    | some moving => exact insertByPriority_map hpri moving priority _

/-- **What the drain does not read makes no difference to it.** -/
theorem drain_map (hid : ∀ p, (f p).id = p.id) (hpri : ∀ p, (f p).priority = p.priority)
    (queue : List MergeRequest) (ps : List Piston) :
    (drain queue ps).map f = drain (queue.map (·.map f)) (ps.map f) := by
  induction queue generalizing ps with
  | nil => rfl
  | cons r queue ih => rw [List.map_cons, drain_cons, drain_cons, ih, apply_map hid hpri]

end

/-! ## Engines -/

/-- Engines over the standard registry that agree on all but the contents of registers and memory, the
input and the output. -/
structure Engine.Alike (e₁ e₂ : Engine) : Prop where
  plane : e₁.program.plane = e₂.program.plane
  config : e₁.program.config = e₂.program.config
  standard₁ : e₁.program.registry = .standard
  standard₂ : e₂.program.registry = .standard
  pistons : e₁.pistons.map Piston.outline = e₂.pistons.map Piston.outline
  shared : Shared.Alike e₁.shared e₂.shared
  cycles : e₁.cycles = e₂.cycles
  runs : e₁.runs = e₂.runs
  aborted : e₁.aborted = e₂.aborted

namespace Engine.Alike

variable {e₁ e₂ : Engine}

theorem isEnded (h : Engine.Alike e₁ e₂) : e₁.isEnded = e₂.isEnded := by
  have hps := congrArg List.isEmpty h.pistons
  have hq := congrArg List.isEmpty h.shared.queue
  simp only [List.isEmpty_map] at hps hq
  rw [Engine.isEnded, Engine.isEnded, hps, hq]

theorem status (h : Engine.Alike e₁ e₂) : e₁.status = e₂.status := by
  unfold Engine.status
  rw [h.aborted, h.isEnded, h.cycles]

theorem kill (h : Engine.Alike e₁ e₂) : Engine.Alike e₁.kill e₂.kill :=
  { h with pistons := rfl, shared := ⟨h.shared.addresses, rfl, h.shared.nextId⟩ }

theorem reset (h : Engine.Alike e₁ e₂) : Engine.Alike e₁.reset.engine e₂.reset.engine where
  plane := h.plane
  config := h.config
  standard₁ := h.standard₁
  standard₂ := h.standard₂
  pistons := by simp only [Engine.reset, h.plane]
  shared := ⟨rfl, rfl, by simp only [Engine.reset, h.plane]⟩
  cycles := rfl
  runs := congrArg (· + 1) h.runs
  aborted := rfl

theorem close (h : Engine.Alike e₁ e₂) : Engine.Alike e₁.close e₂.close := by
  refine { h with
    pistons := ?_
    shared := ⟨h.shared.addresses, rfl, h.shared.nextId⟩
    cycles := congrArg (· + 1) h.cycles }
  have hfilter : ((fun p : Piston => !p.ended) ∘ Piston.outline) = fun p => !p.ended := rfl
  have hdrain : (drain e₁.shared.queue e₁.pistons).map Piston.outline =
      (drain e₂.shared.queue e₂.pistons).map Piston.outline := by
    rw [drain_map Piston.outline_id Piston.outline_priority,
      drain_map Piston.outline_id Piston.outline_priority, h.shared.queue, h.pistons]
  simp only [Engine.close]
  rw [← hfilter, ← List.filter_map, ← List.filter_map, hdrain]

theorem advance (h : Engine.Alike e₁ e₂) :
    e₁.advance.error = e₂.advance.error ∧ Engine.Alike e₁.advance.engine e₂.advance.engine := by
  obtain ⟨hps, hs, hhalt⟩ := stepAll_alike h.plane h.standard₁ h.standard₂ h.pistons h.shared
  have hafter : Engine.Alike
      { e₁ with
        pistons := (stepAll e₁.program e₁.shared e₁.pistons).pistons
        shared := (stepAll e₁.program e₁.shared e₁.pistons).shared }
      { e₂ with
        pistons := (stepAll e₂.program e₂.shared e₂.pistons).pistons
        shared := (stepAll e₂.program e₂.shared e₂.pistons).shared } :=
    { h with pistons := hps, shared := hs }
  unfold Engine.advance
  simp only
  cases hh₁ : (stepAll e₁.program e₁.shared e₁.pistons).halt with
  | none =>
    rw [hh₁] at hhalt
    rw [Option.map_eq_none_iff.mp hhalt.symm]
    exact ⟨rfl, hafter.close⟩
  | some halt₁ =>
    rw [hh₁] at hhalt
    obtain ⟨halt₂, hh₂, heq⟩ := Option.map_eq_some_iff.mp hhalt.symm
    rw [hh₂]
    cases halt₁ with
    | kill =>
      cases halt₂ with
      | kill => exact ⟨rfl, hafter.kill.close⟩
      | fault p₂ cause₂ => cases heq
    | fault p₁ cause₁ =>
      cases halt₂ with
      | kill => cases heq
      | fault p₂ cause₂ =>
        injection heq with hp hcause
        subst hcause
        have hid := congrArg Piston.id hp
        have hx := congrArg Piston.x hp
        have hy := congrArg Piston.y hp
        simp only [Piston.outline_id, Piston.outline_x, Piston.outline_y] at hid hx hy
        exact ⟨by simp only [hid, hx, hy], { hafter with aborted := rfl }⟩

/-- **Contents, input and output do not matter** to what an engine over the standard registry does. -/
theorem simulation : Simulation Engine.Alike where
  bound h := by rw [h.config]
  cycles h := h.cycles
  aborted h := h.aborted
  ended h := h.isEnded
  reset h := h.reset
  kill h := h.kill
  advance h _ _ := h.advance

end Engine.Alike

/-- **Noninterference.** Two engines over the standard registry with the same plane and configuration
but different inputs return the same result to every call of every sequence.  At the end of it they
agree on cycles, runs and status, on every piston in list order but for the contents of its registers,
and on the written addresses. -/
theorem input_cannot_steer_control (plane : Plane) (config : Config) (input₁ input₂ : List Char)
    (calls : List Call) :
    let program₁ : Program := ⟨plane, .standard, config, input₁⟩
    let program₂ : Program := ⟨plane, .standard, config, input₂⟩
    (Engine.start program₁).engine.results calls = (Engine.start program₂).engine.results calls ∧
      (program₁.after calls).cycles = (program₂.after calls).cycles ∧
      (program₁.after calls).runs = (program₂.after calls).runs ∧
      (program₁.after calls).status = (program₂.after calls).status ∧
      (program₁.after calls).pistons.map Piston.outline =
        (program₂.after calls).pistons.map Piston.outline ∧
      (program₁.after calls).shared.memory.addresses =
        (program₂.after calls).shared.memory.addresses := by
  intro program₁ program₂
  have hstart : Engine.Alike (Engine.start program₁).engine (Engine.start program₂).engine :=
    ⟨rfl, rfl, rfl, rfl, rfl, ⟨rfl, rfl, rfl⟩, rfl, rfl, rfl⟩
  obtain ⟨hresults, hend⟩ := Engine.Alike.simulation.callAll calls _ _ hstart
  exact ⟨hresults, hend.cycles, hend.runs, hend.status, hend.pistons, hend.shared.addresses⟩

end PistonGrid
