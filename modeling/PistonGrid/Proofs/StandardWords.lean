import PistonGrid.Proofs.Dispatch
import PistonGrid.Proofs.Standard

/-!
# Words of the standard catalog

* `Catalog.fitting` — every standard instruction declares the family of its control code, so a word is
  divided the way its instruction declares (`Catalog.args_of_decode`).
* `Word.StandsFor` — a word decodes to a standard instruction.  `Word.StandsFor.step` — the step of a
  piston on such a word.
-/

set_option autoImplicit false

namespace PistonGrid

/-- Every standard instruction declares the family of its control code. -/
theorem Catalog.fitting : Registry.standard.Fitting := by
  intro k i hi
  have hmem : i ∈ Catalog.instructions := List.mem_of_find?_eq_some hi
  cases i, hmem using Catalog.cases <;> exact ⟨_, rfl, rfl⟩

/-- A word of the standard registry is divided the way its instruction declares. -/
theorem Catalog.args_of_decode {r : Registry} {w : Word} {d : Decoded} (hr : r = .standard)
    (h : r.decode w = .ok d) : d.args = .extract w d.instruction.family := by
  subst hr
  exact congrArg Decoded.args (Catalog.fitting.decode_ok h).1

/-- A word stands for an instruction of the standard catalog: it decodes to it. -/
def Word.StandsFor (w : Word) (i : Instruction) : Prop :=
  ∃ d, Registry.standard.decode w = .ok d ∧ d.instruction = i

namespace Word.StandsFor

variable {w : Word} {i : Instruction}

theorem of_decode {r : Registry} {d : Decoded} (hr : r = .standard) (h : r.decode w = .ok d) :
    w.StandsFor d.instruction := by
  subst hr
  exact ⟨d, h, rfl⟩

theorem decode (h : w.StandsFor i) : Registry.standard.decode w = .ok ⟨w, i, .extract w i.family⟩ := by
  obtain ⟨d, hd, rfl⟩ := h
  rw [hd]
  exact congrArg _ (Catalog.fitting.decode_ok hd).1

/-- Such a word carries the code and the command of its instruction. -/
theorem key (h : w.StandsFor i) : i.key = ⟨w.controlCode, i.family.commandOf w⟩ :=
  Registry.instruction?_key (Catalog.fitting.decode_ok h.decode).2.2

/-- The step of a piston on a word that stands for an instruction. -/
theorem step (h : w.StandsFor i) {program : Program} (hreg : program.registry = .standard)
    {p : Piston} (hw : program.plane.wordAt? p.x p.y = some w) (s : Shared) :
    p.step program s = .ok (p.execute s w ⟨w, i, .extract w i.family⟩) :=
  Piston.step_inside hw (by rw [hreg, h.decode])

end Word.StandsFor

end PistonGrid
