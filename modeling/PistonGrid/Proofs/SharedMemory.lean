import Mathlib.Data.List.Dedup
import PistonGrid.Proofs.StandardWords
import PistonGrid.Proofs.Wrapping

/-!
# Shared memory is sequentially consistent

All pistons load from and store to one memory.  A load sees the last store to its address that came before
it in the order of the steps, whichever piston made it; and between calls the memory holds exactly the
last store to each address.

* `Program.operands?` — the register and the address of a piston that is about to carry out an instruction.
* `Program.store?`, `Program.stores` — the address and the value of a store, and all those of a trace.
* `lastStore?` — the value of the last store to an address.
* `Catalog.memory_run` — only `STORE` touches the memory.  `Piston.step_memory`, `Piston.step_load` — what
  a step makes of the memory, and what a load makes of its register.
* `Memory.Holds` — a memory holds the last store to each address, in ascending order.
* `Consistent`, `Consistent.kept` — the invariant, kept by every step and so by every run.
-/

set_option autoImplicit false

namespace PistonGrid

/-! ## Loads and stores -/

/-- The register and the address in the word under a piston, if that word stands for the instruction of
the given key. -/
def Program.operands? (program : Program) (k : Key) (p : Piston) : Option (Register × Nat) :=
  match program.plane.wordAt? p.x p.y with
  | none => none
  | some w =>
    match program.registry.decode w with
    | .error _ => none
    | .ok d => if d.instruction.key = k then some (w.register, w.shortArgument) else none

/-- The address to which a piston is about to store, and what it has in the register that it stores. -/
def Program.store? (program : Program) (p : Piston) : Option (Nat × Nat) :=
  (program.operands? Catalog.store.key p).map fun (r, address) => (address, p.register r)

/-- The stores of a list of moves, in order. -/
def Program.stores (program : Program) (trace : List Move) : List (Nat × Nat) :=
  trace.filterMap (program.store? ·.piston)

/-- The value of the last store to an address. -/
def lastStore? (stores : List (Nat × Nat)) (address : Nat) : Option Nat :=
  stores.reverse.lookup address

theorem lastStore?_concat (stores : List (Nat × Nat)) (address value a : Nat) :
    lastStore? (stores ++ [(address, value)]) a =
      if a = address then some value else lastStore? stores a := by
  simp [lastStore?, lookup_cons_ite]

theorem Program.stores_concat (program : Program) (trace : List Move) (m : Move) :
    program.stores (trace ++ [m]) = program.stores trace ++ (program.store? m.piston).toList := by
  unfold stores
  rw [List.filterMap_append]
  cases h : program.store? m.piston <;> simp [h]

/-! ## The catalog and single steps -/

/-- **Only `STORE` touches the memory.** -/
theorem Catalog.memory_run {i : Instruction} (hi : i ∈ Catalog.instructions) (w : Word) (c : Context) :
    ((i.script (.extract w i.family)).run c).context.shared.memory =
      if i.key = Catalog.store.key then c.shared.memory.set w.shortArgument (c.piston.register w.register)
      else c.shared.memory := by
  cases i, hi using Catalog.cases with
  | direction =>
    simp only [direction]
    split <;> rfl
  | _ => rfl

/-- `LOAD` puts the contents of its address into its register, and the piston goes on. -/
theorem Catalog.run_load {i : Instruction} (hi : i ∈ Catalog.instructions)
    (hkey : i.key = Catalog.load.key) (w : Word) (c : Context) :
    ((i.script (.extract w i.family)).run c).context.piston.register w.register =
        wrap (c.shared.memory.get w.shortArgument) ∧
      ((i.script (.extract w i.family)).run c).verdict = .proceed := by
  cases i, hi using Catalog.cases with
  | load => exact ⟨(c.piston.register_setRegister _ _ w.options _).trans (if_pos rfl), rfl⟩
  | _ => exact absurd hkey (by decide)

section

variable {program : Program} {s : Shared} {p : Piston} {st : Step}

theorem Program.operands?_outside (hw : program.plane.wordAt? p.x p.y = none) (k : Key) :
    program.operands? k p = none := by
  simp [operands?, hw]

theorem Program.operands?_inside {w : Word} {d : Decoded}
    (hw : program.plane.wordAt? p.x p.y = some w) (hd : program.registry.decode w = .ok d) (k : Key) :
    program.operands? k p = if d.instruction.key = k then some (w.register, w.shortArgument) else none := by
  simp [operands?, hw, hd]

/-- **What a step makes of the memory.** A store writes what the piston has in its register; no other step
writes anything. -/
theorem Piston.step_memory (hreg : program.registry = .standard) (h : p.step program s = .ok st) :
    (program.store? p = none ∧ st.shared.memory = s.memory) ∨
      ∃ r address, program.store? p = some (address, p.register r) ∧
        st.shared.memory = s.memory.set address (p.register r) := by
  rcases Piston.step_cases h with ⟨hw, rfl⟩ | ⟨w, d, hw, hd, rfl⟩
  · exact .inl ⟨by simp [Program.store?, Program.operands?_outside hw], rfl⟩
  · have hoperands := Program.operands?_inside hw hd Catalog.store.key
    have hrun := Catalog.memory_run (Catalog.mem_of_decode hreg hd) w
      ⟨{ p with executed := p.executed + 1 }, s⟩
    rw [← Catalog.args_of_decode hreg hd] at hrun
    by_cases hkey : d.instruction.key = Catalog.store.key
    · rw [if_pos hkey] at hoperands hrun
      exact .inr ⟨w.register, w.shortArgument, by simp [Program.store?, hoperands], hrun⟩
    · rw [if_neg hkey] at hoperands hrun
      exact .inl ⟨by simp [Program.store?, hoperands], hrun⟩

/-- **What a load makes of its register.** -/
theorem Piston.step_load (hreg : program.registry = .standard) (h : p.step program s = .ok st)
    {r : Register} {address : Nat} (hload : program.operands? Catalog.load.key p = some (r, address)) :
    st.piston.register r = wrap (s.memory.get address) := by
  rcases Piston.step_cases h with ⟨hw, rfl⟩ | ⟨w, d, hw, hd, rfl⟩
  · rw [Program.operands?_outside hw] at hload
    cases hload
  · rw [Program.operands?_inside hw hd] at hload
    split at hload
    · rename_i hkey
      cases hload
      obtain ⟨hregister, hverdict⟩ := Catalog.run_load (Catalog.mem_of_decode hreg hd) hkey w
        ⟨{ p with executed := p.executed + 1 }, s⟩
      rw [← Catalog.args_of_decode hreg hd] at hregister hverdict
      simpa [Piston.execute, hverdict] using hregister
    · cases hload

end

/-! ## A memory and the stores to it -/

/-- The memory holds the last store to each address, and nothing else, in ascending order. -/
structure Memory.Holds (m : Memory) (stores : List (Nat × Nat)) : Prop where
  sorted : Memory.Sorted m.cells
  lookup : ∀ a, m.cells.lookup a = lastStore? stores a

namespace Memory.Holds

variable {m : Memory} {stores : List (Nat × Nat)}

theorem empty : Memory.empty.Holds [] := ⟨.nil, fun _ => rfl⟩

theorem store (h : m.Holds stores) (address : Nat) {value : Nat} (hvalue : value < capacity) :
    (m.set address value).Holds (stores ++ [(address, value)]) := by
  refine ⟨Memory.sorted_set m h.sorted address value, ?_⟩
  intro a
  rw [Memory.lookup_set m h.sorted, wrap_of_lt hvalue, lastStore?_concat, h.lookup]

theorem get (h : m.Holds stores) (a : Nat) : m.get a = (lastStore? stores a).getD 0 := by
  rw [Memory.get, h.lookup]

theorem nodup (h : m.Holds stores) : (m.cells.map Prod.fst).Nodup :=
  List.pairwise_map.mpr (h.sorted.imp Nat.ne_of_lt)

theorem mem_cells (h : m.Holds stores) (a v : Nat) : (a, v) ∈ m.cells ↔ lastStore? stores a = some v := by
  rw [← h.lookup, lookup_eq_some_iff_mem h.nodup]

/-- The addresses in use are those that were stored to. -/
theorem mem_addresses (h : m.Holds stores) (a : Nat) :
    a ∈ m.cells.map Prod.fst ↔ a ∈ stores.map Prod.fst := by
  have hused : ∀ cells : List (Nat × Nat), a ∈ cells.map Prod.fst ↔ (cells.lookup a).isSome = true := by
    intro cells
    rw [List.lookup_isSome_iff, List.mem_map]
    simp only [beq_iff_eq, @eq_comm _ a]
  rw [hused, h.lookup, lastStore?, ← hused, List.map_reverse, List.mem_reverse]

/-- There are as many cells as addresses that were stored to. -/
theorem size (h : m.Holds stores) : m.size = (stores.map Prod.fst).dedup.length := by
  have hperm : (m.cells.map Prod.fst).Perm (stores.map Prod.fst).dedup := by
    rw [List.perm_ext_iff_of_nodup h.nodup (List.nodup_dedup _)]
    intro a
    rw [List.mem_dedup, h.mem_addresses]
  simpa [Memory.size] using hperm.length_eq

end Memory.Holds

/-! ## Whole runs -/

/-- If the move is a load, it puts the last store among the moves before it into its register, or zero. -/
def Program.LoadsLast (program : Program) (before : List Move) (m : Move) : Prop :=
  ∀ r a, program.operands? Catalog.load.key m.piston = some (r, a) →
    m.step.piston.register r = (lastStore? (program.stores before) a).getD 0

/-- The memory holds what was stored since the last reset, and every load since then saw the last store
before it. -/
structure Consistent (program : Program) (trace : List Move) (s : Shared) : Prop where
  wrapped : s.Wrapped
  memory : s.memory.Holds (program.stores trace)
  loads : Throughout program.LoadsLast trace

/-- What a wrapped memory gives is below the bound, also where nothing was stored. -/
theorem Shared.Wrapped.get_lt {s : Shared} (h : s.Wrapped) (a : Nat) : s.memory.get a < capacity := by
  unfold Memory.get
  cases hcell : s.memory.cells.lookup a with
  | none => decide
  | some v =>
    obtain ⟨before, after, heq, _⟩ := List.lookup_eq_some_iff.mp hcell
    exact h.memory (a, v) (heq ▸ List.mem_append_right _ List.mem_cons_self)

/-- **Every step keeps the memory consistent**, and so does every run. -/
theorem Consistent.kept {program : Program} (hreg : program.registry = .standard) :
    Kept program Piston.Wrapped (Consistent program) where
  spawn id s := .spawn id _ _ _
  fresh n := ⟨.fresh _ n, .empty, .nil⟩
  step := by
    intro trace s p st hp h hst
    obtain ⟨hp', hs'⟩ := Piston.step_wrapped hp h.wrapped hst
    -- registers and memory are below the bound, so neither a store nor a load reduces what it copies
    refine ⟨hp', hs', ?_, h.loads.concat ?_⟩
    · rw [Program.stores_concat]
      rcases Piston.step_memory hreg hst with ⟨hnone, heq⟩ | ⟨r, address, hsome, heq⟩
      · rw [hnone, heq]
        simpa using h.memory
      · rw [hsome, heq]
        exact h.memory.store address (hp.registers r)
    · intro r a hload
      calc
        st.piston.register r = wrap (s.memory.get a) := Piston.step_load hreg hst hload
        _ = s.memory.get a := wrap_of_lt (h.wrapped.get_lt a)
        _ = (lastStore? (program.stores trace) a).getD 0 := h.memory.get a
  waiting h := h.wrapped.queue
  dequeue h := ⟨h.wrapped.dequeue, h.memory, h.loads⟩

/-- **Sequential consistency**, over the standard registry and after any calls.  In the order of the
steps since the last reset, every load has put into its register what the last storing piston before it
had in its own, or zero.  The cells of the memory are the last stores to each address, strictly
ascending, and `size` counts these addresses. -/
theorem shared_memory_sequentially_consistent (program : Program)
    (hreg : program.registry = .standard) (calls : List Call) :
    let trace := program.trace calls
    let stores := program.stores trace
    let memory := (program.after calls).shared.memory
    (∀ before m after r a, trace = before ++ m :: after →
      program.operands? Catalog.load.key m.piston = some (r, a) →
      m.step.piston.register r = (lastStore? (program.stores before) a).getD 0) ∧
    (∀ a, memory.get a = (lastStore? stores a).getD 0) ∧
    memory.cells.Pairwise (fun c c' => c.1 < c'.1) ∧
    (∀ a v, (a, v) ∈ memory.cells ↔ lastStore? stores a = some v) ∧
    (∀ a, a ∈ memory.cells.map Prod.fst ↔ a ∈ stores.map Prod.fst) ∧
    memory.size = (stores.map Prod.fst).dedup.length := by
  intro trace stores memory
  obtain ⟨_, h⟩ := (Consistent.kept hreg).after calls
  refine ⟨?_, h.memory.get, h.memory.sorted, h.memory.mem_cells, h.memory.mem_addresses, h.memory.size⟩
  intro before m after r a htrace hload
  exact h.loads before m after htrace r a hload

/-- The first piston reads a number and stores it at address five; the second loads from that address
twice. -/
def handover : Program where
  plane := SparseGrid.plane
    ⟨[((0, 0), .registerMeta 0xC 0 (.ofBits 1) .none 0), ((1, 0), .registerMeta 0xB 1 (.ofBits 1) .none 5),
      ((0, 1), .registerMeta 0xB 0 (.ofBits 2) .none 5), ((1, 1), .registerMeta 0xB 0 (.ofBits 2) .none 5)],
      some .blank, [⟨0, 0, .right⟩, ⟨0, 1, .right⟩]⟩
  registry := .standard
  config := .standard
  input := ['7']

/-- The first load finds nothing; the second comes later in the same cycle as the store, and sees it. -/
theorem shared_memory_sequentially_consistent_handover :
    let trace := handover.trace [.cycle, .cycle]
    (handover.after [.cycle]).pistons.map (·.register 2) = [0, 0] ∧
      (∃ before m after, trace = before ++ m :: after ∧ handover.stores before = [(5, 7)] ∧
        handover.operands? Catalog.load.key m.piston = some (2, 5) ∧ m.step.piston.register 2 = 7) ∧
      (handover.after [.cycle, .cycle]).shared.memory.get 5 = 7 ∧
      (handover.after [.cycle, .cycle]).shared.memory.size = 1 := by
  intro trace
  obtain ⟨hloads, hget, _, _, _, hsize⟩ :=
    shared_memory_sequentially_consistent handover rfl [.cycle, .cycle]
  have hstores : handover.stores trace = [(5, 7)] := by decide
  have hbefore : handover.stores (trace.take 3) = [(5, 7)] := by decide
  refine ⟨by decide, ?_, (hget 5).trans (by rw [hstores]; rfl), hsize.trans (by rw [hstores]; rfl)⟩
  have hload : handover.operands? Catalog.load.key (trace.get ⟨3, by decide⟩).piston = some (2, 5) := by
    decide
  have hseen := hloads (trace.take 3) (trace.get ⟨3, by decide⟩) [] 2 5 rfl hload
  exact ⟨trace.take 3, trace.get ⟨3, by decide⟩, [], rfl, hbefore, hload,
    hseen.trans (by rw [hbefore]; rfl)⟩

end PistonGrid
