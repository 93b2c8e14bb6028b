import PistonGrid.Proofs.KeyedLists
import PistonGrid.Registry

/-!
# Registrations

A registry is built by a sequence of registrations, some of which may be refused.  This module says
what the look-ups of the result find, in terms of the registrations that were accepted alone.

* `Registration`, `Registry.attemptAll` — a sequence of registrations, whatever they return.
* `Registry.accepted` — those of them that are not refused.
* `Registry.register_family?`, `Registry.register_instruction?` — what one accepted registration does
  to the look-ups.  `Registry.family?_attemptAll`, `Registry.instruction?_attemptAll` — the same for a
  whole sequence.  `Registry.attemptAll_keeps` — what every accepted registration keeps is kept.
* `Registry.Fitting` — every instruction declares the family of its control code, and has a meta command
  just when that family needs one.  `Registry.Fitting.attemptAll` — so it is in every registry that is
  built by registrations.
-/

set_option autoImplicit false

namespace PistonGrid

/-- One attempt to add something to a registry. -/
inductive Registration where
  | family (code : Nat) (family : Family)
  | instruction (i : Instruction)

namespace Registry

/-- Carry out a registration. -/
def register (r : Registry) : Registration → Except RegistrationError Registry
  | .family code family => r.addFamily code family
  | .instruction i => r.add i

/-- The registry after a registration; a refused one changes nothing. -/
def attempt (r : Registry) (g : Registration) : Registry :=
  match r.register g with
  | .ok r' => r'
  | .error _ => r

/-- The registry after a sequence of registrations, whatever they return. -/
def attemptAll (r : Registry) (gs : List Registration) : Registry := gs.foldl attempt r

/-- The registrations of a sequence that are accepted, in order. -/
def accepted : Registry → List Registration → List Registration
  | _, [] => []
  | r, g :: gs =>
    match r.register g with
    | .ok r' => g :: accepted r' gs
    | .error _ => accepted r gs

/-! ## Putting something in its place -/

theorem insertFamily_perm (code : Nat) (family : Family) (families : List (Nat × Family)) :
    (insertFamily code family families).Perm ((code, family) :: families) := by
  induction families with
  | nil => exact .refl _
  | cons entry rest ih =>
    unfold insertFamily
    split
    · exact .refl _
    · exact (ih.cons entry).trans (.swap _ _ _)

theorem insertInstruction_perm (i : Instruction) (instructions : List Instruction) :
    (insertInstruction i instructions).Perm (i :: instructions) := by
  induction instructions with
  | nil => exact .refl _
  | cons j rest ih =>
    unfold insertInstruction
    split
    · exact .refl _
    · exact (ih.cons j).trans (.swap _ _ _)

theorem lookup_insertFamily {families : List (Nat × Family)} {code : Nat} (family : Family)
    (h : families.lookup code = none) (c : Nat) :
    (insertFamily code family families).lookup c =
      if c = code then some family else families.lookup c := by
  induction families with
  | nil => exact lookup_cons_ite c code family []
  | cons entry rest ih =>
    obtain ⟨c', f'⟩ := entry
    rw [lookup_cons_ite] at h
    split at h
    · cases h
    · rename_i hne
      unfold insertFamily
      split
      · exact lookup_cons_ite c code family _
      · rw [lookup_cons_ite, lookup_cons_ite, ih h]
        by_cases hc : c = c'
        · subst hc
          simp [Ne.symm hne]
        · simp [hc]

theorem find?_insertInstruction {instructions : List Instruction} {i : Instruction}
    (h : instructions.find? (fun j => j.key == i.key) = none) (k : Key) :
    (insertInstruction i instructions).find? (fun j => j.key == k) =
      if i.key = k then some i else instructions.find? (fun j => j.key == k) := by
  have hinsert : ∀ rest : List Instruction, (i :: rest).find? (fun j => j.key == k) =
      if i.key = k then some i else rest.find? (fun j => j.key == k) := by
    intro rest
    by_cases hk : i.key = k
    · simp [hk]
    · have hne : (i.key == k) = false := by simpa using hk
      simp only [List.find?_cons, hne, if_neg hk]
  induction instructions with
  | nil => exact hinsert []
  | cons j rest ih =>
    rw [List.find?_eq_none] at h
    obtain ⟨hj, hrest⟩ := List.forall_mem_cons.mp h
    unfold insertInstruction
    split
    · exact hinsert _
    · rw [List.find?_cons, List.find?_cons, ih (List.find?_eq_none.mpr hrest)]
      by_cases hk : j.key = k
      · subst hk
        have hne : i.key ≠ j.key := by
          intro heq
          simp [heq] at hj
        simp [hne]
      · have hne : (j.key == k) = false := by simpa using hk
        simp only [hne]

/-! ## One registration -/

theorem addFamily_ok {r r' : Registry} {code : Nat} {family : Family}
    (h : r.addFamily code family = .ok r') :
    r.family? code = none ∧ r' = { r with families := insertFamily code family r.families } := by
  unfold addFamily at h
  split at h
  · split at h
    · cases h
    · rename_i hnone
      cases h
      exact ⟨hnone, rfl⟩
  · cases h

theorem add_ok {r r' : Registry} {i : Instruction} (h : r.add i = .ok r') :
    (∃ f, r.family? i.code = some f ∧ fits i f = true) ∧ r.instruction? i.key = none ∧
      r' = { r with instructions := insertInstruction i r.instructions } := by
  unfold add at h
  split at h
  · split at h
    · cases h
    · rename_i f hf
      split at h
      · rename_i hfits
        split at h
        · cases h
        · rename_i hnone
          cases h
          exact ⟨⟨f, hf, hfits⟩, hnone, rfl⟩
      · cases h
  · cases h

section

variable {r r' : Registry} {g : Registration}

/-- An accepted registration adds the family it names, and no other. -/
theorem register_family? (h : r.register g = .ok r') (code : Nat) (f : Family) :
    r'.family? code = some f ↔ r.family? code = some f ∨ g = .family code f := by
  cases g with
  | instruction i =>
    obtain ⟨_, _, rfl⟩ := add_ok h
    simp [family?]
  | family code' f' =>
    obtain ⟨hnone, rfl⟩ := addFamily_ok h
    simp only [family?] at hnone ⊢
    rw [lookup_insertFamily f' hnone]
    by_cases hc : code = code'
    · subst hc
      simp [hnone, eq_comm]
    · simp [hc, Ne.symm hc]

/-- An accepted registration adds the instruction it names, under its key, and no other. -/
theorem register_instruction? (h : r.register g = .ok r') (k : Key) (i : Instruction) :
    r'.instruction? k = some i ↔ r.instruction? k = some i ∨ (g = .instruction i ∧ i.key = k) := by
  cases g with
  | family code f =>
    obtain ⟨_, rfl⟩ := addFamily_ok h
    simp [instruction?]
  | instruction j =>
    obtain ⟨_, hnone, rfl⟩ := add_ok h
    simp only [instruction?] at hnone ⊢
    rw [find?_insertInstruction hnone]
    by_cases hk : j.key = k
    · subst hk
      simp only [if_pos, hnone, Option.some.injEq, Registration.instruction.injEq]
      constructor
      · rintro rfl
        exact .inr ⟨rfl, rfl⟩
      · rintro (h | ⟨h, _⟩)
        · cases h
        · exact h
    · simp only [if_neg hk, Registration.instruction.injEq]
      constructor
      · exact .inl
      · rintro (h | ⟨rfl, h⟩)
        · exact h
        · exact absurd h hk

end

/-! ## Sequences of registrations -/

theorem attemptAll_cons_ok {r r' : Registry} {g : Registration} (h : r.register g = .ok r')
    (gs : List Registration) :
    r.attemptAll (g :: gs) = r'.attemptAll gs ∧ r.accepted (g :: gs) = g :: r'.accepted gs := by
  simp [attemptAll, attempt, accepted, h]

theorem attemptAll_cons_error {r : Registry} {g : Registration} {cause : RegistrationError}
    (h : r.register g = .error cause) (gs : List Registration) :
    r.attemptAll (g :: gs) = r.attemptAll gs ∧ r.accepted (g :: gs) = r.accepted gs := by
  simp [attemptAll, attempt, accepted, h]

/-- What every accepted registration keeps, every sequence keeps. -/
theorem attemptAll_keeps {P : Registry → Prop}
    (hP : ∀ {r r' : Registry} {g : Registration}, P r → r.register g = .ok r' → P r') {r : Registry}
    (hr : P r) (gs : List Registration) : P (r.attemptAll gs) := by
  induction gs generalizing r with
  | nil => exact hr
  | cons g gs ih =>
    cases hg : r.register g with
    | error cause => rw [(attemptAll_cons_error hg gs).1]; exact ih hr
    | ok r' => rw [(attemptAll_cons_ok hg gs).1]; exact ih (hP hr hg)

/-- **Families are those that were accepted.** -/
theorem family?_attemptAll (gs : List Registration) (r : Registry) (code : Nat) (f : Family) :
    (r.attemptAll gs).family? code = some f ↔
      r.family? code = some f ∨ .family code f ∈ r.accepted gs := by
  induction gs generalizing r with
  | nil => simp [attemptAll, accepted]
  | cons g gs ih =>
    cases hg : r.register g with
    | error cause =>
      obtain ⟨hall, hacc⟩ := attemptAll_cons_error hg gs
      rw [hall, hacc, ih]
    | ok r' =>
      obtain ⟨hall, hacc⟩ := attemptAll_cons_ok hg gs
      rw [hall, hacc, ih, register_family? hg, List.mem_cons, or_assoc, eq_comm (a := g)]

/-- **Instructions are those that were accepted**, each under its own key. -/
theorem instruction?_attemptAll (gs : List Registration) (r : Registry) (k : Key) (i : Instruction) :
    (r.attemptAll gs).instruction? k = some i ↔
      r.instruction? k = some i ∨ (.instruction i ∈ r.accepted gs ∧ i.key = k) := by
  induction gs generalizing r with
  | nil => simp [attemptAll, accepted]
  | cons g gs ih =>
    cases hg : r.register g with
    | error cause =>
      obtain ⟨hall, hacc⟩ := attemptAll_cons_error hg gs
      rw [hall, hacc, ih]
    | ok r' =>
      obtain ⟨hall, hacc⟩ := attemptAll_cons_ok hg gs
      rw [hall, hacc, ih, register_instruction? hg, List.mem_cons, or_assoc, ← or_and_right,
        eq_comm (a := g)]

/-! ## Instructions fit their families -/

/-- Every instruction of the registry fits the family of its control code. -/
def Fitting (r : Registry) : Prop :=
  ∀ k i, r.instruction? k = some i → ∃ f, r.family? i.code = some f ∧ fits i f = true

theorem fitting_empty : empty.Fitting := by
  intro k i h
  cases h

theorem Fitting.register {r r' : Registry} {g : Registration} (hr : r.Fitting)
    (h : r.register g = .ok r') : r'.Fitting := by
  intro k i hi
  have hold : ∀ f, r.family? i.code = some f → r'.family? i.code = some f := fun f hf =>
    (register_family? h i.code f).mpr (.inl hf)
  rcases (register_instruction? h k i).mp hi with hi | ⟨rfl, _⟩
  · obtain ⟨f, hf, hfits⟩ := hr k i hi
    exact ⟨f, hold f hf, hfits⟩
  · obtain ⟨⟨f, hf, hfits⟩, _⟩ := add_ok h
    exact ⟨f, hold f hf, hfits⟩

theorem Fitting.attemptAll {r : Registry} (hr : r.Fitting) (gs : List Registration) :
    (r.attemptAll gs).Fitting :=
  attemptAll_keeps Fitting.register hr gs

end Registry

end PistonGrid
