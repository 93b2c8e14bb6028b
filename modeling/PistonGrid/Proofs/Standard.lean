import PistonGrid.Catalog
import PistonGrid.Engine.Pass

/-!
# The standard catalog, instruction by instruction

* `Program.onBlank` — a few words on an otherwise blank plane, for concrete runs.
* `Registry.mem_of_decode`, `Catalog.mem_of_decode` — what a word decodes to is an instruction of the
  registry, or of the catalog if the registry is the standard one.
* `Catalog.cases` — case analysis on a standard instruction, for `cases … using`.
* `Catalog.requests` — what each of them queues.
-/

set_option autoImplicit false

namespace PistonGrid

/-- A few words on an otherwise blank plane, under the standard registry and without input. -/
def Program.onBlank (cells : List ((Nat × Nat) × Word)) (starts : List StartPoint) : Program where
  plane := SparseGrid.plane ⟨cells, some .blank, starts⟩
  registry := .standard
  config := .standard
  input := []

theorem Registry.mem_of_decode {r : Registry} {w : Word} {d : Decoded} (h : r.decode w = .ok d) :
    d.instruction ∈ r.instructions := by
  unfold decode decodeBy at h
  split at h
  · cases h
  · split at h
    · rename_i i hi
      cases h
      exact List.mem_of_find?_eq_some hi
    · split at h <;> cases h

theorem Catalog.mem_of_decode {r : Registry} {w : Word} {d : Decoded} (hr : r = .standard)
    (h : r.decode w = .ok d) : d.instruction ∈ Catalog.instructions := by
  subst hr
  exact Registry.mem_of_decode h

/-- One case for each standard instruction. -/
@[elab_as_elim]
theorem Catalog.cases {motive : (i : Instruction) → i ∈ Catalog.instructions → Prop}
    (blank : ∀ h, motive Catalog.blank h) (start : ∀ h, motive Catalog.start h)
    (direction : ∀ h, motive Catalog.direction h) (fork : ∀ h, motive Catalog.fork h)
    (load : ∀ h, motive Catalog.load h) (store : ∀ h, motive Catalog.store h)
    (inNumber : ∀ h, motive Catalog.inNumber h) (inChar : ∀ h, motive Catalog.inChar h)
    (outNumber : ∀ h, motive Catalog.outNumber h) (outChar : ∀ h, motive Catalog.outChar h)
    (posX : ∀ h, motive Catalog.posX h) (posY : ∀ h, motive Catalog.posY h)
    (priority : ∀ h, motive Catalog.priority h) (kill : ∀ h, motive Catalog.kill h)
    (stop : ∀ h, motive Catalog.stop h) (i : Instruction) (hi : i ∈ Catalog.instructions) :
    motive i hi := by
  have hcases := hi
  simp only [instructions, List.mem_cons, List.not_mem_nil, or_false] at hcases
  rcases hcases with rfl | rfl | rfl | rfl | rfl | rfl | rfl | rfl | rfl | rfl | rfl | rfl | rfl |
    rfl | rfl <;> apply_assumption

/-- `PRIORITY` sets the priority and asks for a move; every other instruction leaves the priority
alone, and queues at most one copy. -/
theorem Catalog.requests {i : Instruction} (hi : i ∈ Catalog.instructions) (args : Args)
    (c : Context) :
    (i = Catalog.priority ∧
      (i.script args).run c = ⟨(Action.setPriority args.argument).apply c, .proceed,
        (Action.setPriority args.argument).events c⟩) ∨
    (i.key ≠ Catalog.priority.key ∧
      ((i.script args).run c).context.piston.priority = c.piston.priority ∧
      (((i.script args).run c).context.shared.queue = c.shared.queue ∨
        ∃ t, ((i.script args).run c).context.shared.queue =
          c.shared.queue ++ [.fork c.piston.id (c.piston.forked c.shared.nextId t) (.ofTurn t)])) := by
  cases i, hi using Catalog.cases with
  | priority => exact .inl ⟨rfl, rfl⟩
  | fork => exact .inr ⟨by decide, rfl, .inr ⟨_, rfl⟩⟩
  | direction =>
    refine .inr ⟨by decide, ?_⟩
    simp only [direction]
    split <;> exact ⟨rfl, .inl rfl⟩
  | blank | start | kill | stop => exact .inr ⟨by decide, rfl, .inl rfl⟩
  | load | store | inNumber | inChar | outNumber | outChar | posX | posY =>
    refine .inr ⟨by decide, ?_⟩
    cases args <;> exact ⟨rfl, .inl rfl⟩

end PistonGrid
