import PistonGrid.Proofs.Registration
import PistonGrid.Registry.Indexed

/-!
# Registries through their index

The tables of an indexed registry are three: the instructions as they came, the places of their keys and
the families.  This module says that they stay in step under any mixture of accepted and refused
registrations, and that they then answer as the ordered lists do.

* `IndexedRegistry.run_addFamily`, `IndexedRegistry.run_add` — what one registration does, branch by
  branch.
* `IndexedRegistry.Represents` — the tables are in step with each other and with the lists.
* `IndexedRegistry.Represents.register` — a registration is refused by both, for the same cause and
  without a change to the tables, or accepted by both, with results that are in step again.
  `IndexedRegistry.Represents.attemptAll` — so it is after any sequence.
* `IndexedRegistry.Represents.decode` — the tables decode every word as the lists do.
-/

set_option autoImplicit false

namespace PistonGrid

namespace IndexedRegistry

/-- Carry out a registration. -/
def register : Registration → EStateM RegistrationError IndexedRegistry Unit
  | .family code family => addFamily code family
  | .instruction i => add i

/-- The tables that a registration leaves, also if it is refused. -/
def attempt (t : IndexedRegistry) (g : Registration) : IndexedRegistry :=
  match (register g).run t with
  | .ok _ t' => t'
  | .error _ t' => t'

/-- The tables after a sequence of registrations, whatever they return. -/
def attemptAll (t : IndexedRegistry) (gs : List Registration) : IndexedRegistry := gs.foldl attempt t

/-! ## One registration -/

theorem run_addFamily (code : Nat) (family : Family) (t : IndexedRegistry) :
    (addFamily code family).run t =
      if code < 16 then
        match t.family? code with
        | some _ => .error (.duplicateFamily code) t
        | none => .ok () { t with families := (code, family) :: t.families }
      else .error (.outOfRange ⟨code, none⟩) t := by
  by_cases hcode : code < 16
  · cases hf : t.family? code <;> simp [addFamily, hcode, hf]
  · simp [addFamily, hcode]

theorem run_add (i : Instruction) (t : IndexedRegistry) :
    (add i).run t =
      if i.key.inRange then
        match t.family? i.code with
        | none => .error (.unknownFamily i.code) t
        | some family =>
          if Registry.fits i family then
            match t.index.lookup i.key with
            | some place => .error (.duplicateInstruction i.key (t.mnemonicAt place) i.mnemonic) t
            | none => .ok () { t with
                entries := t.entries.push i
                index := (i.key, t.entries.size) :: t.index }
          else .error (.familyMismatch i.code i.mnemonic) t
      else .error (.outOfRange i.key) t := by
  by_cases hrange : i.key.inRange
  · cases hf : t.family? i.code with
    | none => simp [add, hrange, hf]
    | some family =>
      by_cases hfits : Registry.fits i family
      · cases hplace : t.index.lookup i.key <;> simp [add, hrange, hf, hfits, hplace]
      · simp [add, hrange, hf, hfits]
  · simp [add, hrange]

/-! ## Tables in step -/

/-- The index leads from a key to a place just if the instruction there declares that key; the tables
hold what the lists hold, and their look-ups find the same. -/
structure Represents (t : IndexedRegistry) (r : Registry) : Prop where
  placed : ∀ k place, t.index.lookup k = some place ↔ ∃ i, t.entries[place]? = some i ∧ i.key = k
  families : t.families.Perm r.families
  entries : t.entries.toList.Perm r.instructions
  family? : ∀ code, t.family? code = r.family? code
  instruction? : ∀ k, t.instruction? k = r.instruction? k

namespace Represents

theorem empty : IndexedRegistry.empty.Represents .empty :=
  ⟨by simp [IndexedRegistry.empty], .refl _, .refl _, fun _ => rfl, fun _ => rfl⟩

section

variable {t : IndexedRegistry} {r : Registry}

/-- A key is found just if the index has a place for it. -/
theorem lookup_eq_none_iff (h : t.Represents r) (k : Key) :
    t.index.lookup k = none ↔ r.instruction? k = none := by
  rw [← h.instruction?, IndexedRegistry.instruction?]
  cases hplace : t.index.lookup k with
  | none => simp
  | some place =>
    obtain ⟨i, hi, _⟩ := (h.placed k place).mp hplace
    simp [hi]

/-- At the place of a key there is the instruction that is found under it. -/
theorem mnemonicAt (h : t.Represents r) {k : Key} {place : Nat} (hplace : t.index.lookup k = some place) :
    ∃ i, r.instruction? k = some i ∧ t.mnemonicAt place = i.mnemonic := by
  obtain ⟨i, hi, _⟩ := (h.placed k place).mp hplace
  refine ⟨i, ?_, by simp [IndexedRegistry.mnemonicAt, hi]⟩
  rw [← h.instruction?, IndexedRegistry.instruction?, hplace]
  exact hi

theorem addFamily (h : t.Represents r) {code : Nat} (family : Family) (hnone : r.family? code = none) :
    Represents { t with families := (code, family) :: t.families }
      { r with families := Registry.insertFamily code family r.families } := by
  refine ⟨h.placed, (h.families.cons _).trans (Registry.insertFamily_perm _ _ _).symm, h.entries,
    fun c => ?_, h.instruction?⟩
  show ((code, family) :: t.families).lookup c = (Registry.insertFamily code family r.families).lookup c
  rw [lookup_cons_ite, Registry.lookup_insertFamily family hnone,
    show t.families.lookup c = r.families.lookup c from h.family? c]

theorem place_lt (h : t.Represents r) {k : Key} {place : Nat} (hplace : t.index.lookup k = some place) :
    place < t.entries.size := by
  obtain ⟨i, hi, _⟩ := (h.placed k place).mp hplace
  exact (Array.getElem?_eq_some_iff.mp hi).1

theorem add (h : t.Represents r) {i : Instruction} (hnone : r.instruction? i.key = none) :
    Represents { t with entries := t.entries.push i, index := (i.key, t.entries.size) :: t.index }
      { r with instructions := Registry.insertInstruction i r.instructions } := by
  have hfree : t.index.lookup i.key = none := (h.lookup_eq_none_iff i.key).mpr hnone
  refine ⟨fun k place => ?_, h.families, ?_, h.family?, fun k => ?_⟩
  · -- the new place is behind all others, and no other instruction declares the new key
    rw [lookup_cons_ite, Array.getElem?_push]
    by_cases hk : k = i.key <;> by_cases hplace : place = t.entries.size
    · simp [hk, hplace]
    · have hother := h.placed i.key place
      simp only [hfree, reduceCtorEq, false_iff] at hother
      simpa [hk, hplace, Ne.symm hplace] using hother
    · have hlast : t.index.lookup k ≠ some place := fun hfound =>
        Nat.ne_of_lt (h.place_lt hfound) hplace
      simpa [hk, hplace, Ne.symm hk] using hlast
    · simpa [hk, hplace] using h.placed k place
  · rw [Array.toList_push]
    exact List.perm_append_comm.trans ((h.entries.cons i).trans (Registry.insertInstruction_perm _ _).symm)
  · show (((i.key, t.entries.size) :: t.index).lookup k).bind (fun place => (t.entries.push i)[place]?) =
      (Registry.insertInstruction i r.instructions).find? (fun j => j.key == k)
    rw [lookup_cons_ite, Registry.find?_insertInstruction hnone]
    by_cases hk : k = i.key
    · simp [hk]
    · rw [if_neg hk, if_neg (Ne.symm hk)]
      show _ = r.instruction? k
      rw [← h.instruction?, IndexedRegistry.instruction?]
      cases hplace : t.index.lookup k with
      | none => rfl
      | some place => simp [Array.getElem?_push, Nat.ne_of_lt (h.place_lt hplace)]

/-- **A registration keeps the tables in step.** -/
theorem register (h : t.Represents r) (g : Registration) :
    (∃ cause, r.register g = .error cause ∧ (register g).run t = .error cause t) ∨
      ∃ r' t', r.register g = .ok r' ∧ (register g).run t = .ok () t' ∧ t'.Represents r' := by
  cases g with
  | family code family =>
    simp only [IndexedRegistry.register, Registry.register, run_addFamily, Registry.addFamily, h.family?]
    split
    · cases hf : r.family? code with
      | some _ => exact .inl ⟨_, rfl, rfl⟩
      | none => exact .inr ⟨_, _, rfl, rfl, h.addFamily family hf⟩
    · exact .inl ⟨_, rfl, rfl⟩
  | instruction i =>
    simp only [IndexedRegistry.register, Registry.register, run_add, Registry.add, h.family?]
    split
    · cases hf : r.family? i.code with
      | none => exact .inl ⟨_, rfl, rfl⟩
      | some family =>
        simp only
        split
        · cases hplace : t.index.lookup i.key with
          | some place =>
            obtain ⟨existing, hexisting, hmnemonic⟩ := h.mnemonicAt hplace
            exact .inl ⟨_, by rw [hexisting], by simp only [hmnemonic]⟩
          | none =>
            have hnone := (h.lookup_eq_none_iff i.key).mp hplace
            exact .inr ⟨_, _, by rw [hnone], rfl, h.add hnone⟩
        · exact .inl ⟨_, rfl, rfl⟩
    · exact .inl ⟨_, rfl, rfl⟩

/-- **Tables stay in step**, whatever is registered and whatever is refused. -/
theorem attemptAll (h : t.Represents r) (gs : List Registration) :
    (t.attemptAll gs).Represents (r.attemptAll gs) := by
  induction gs generalizing t r with
  | nil => exact h
  | cons g gs ih =>
    refine ih ?_
    rcases h.register g with ⟨cause, hr, ht⟩ | ⟨r', t', hr, ht, h'⟩
    · simpa only [Registry.attempt, IndexedRegistry.attempt, hr, ht] using h
    · simpa only [Registry.attempt, IndexedRegistry.attempt, hr, ht] using h'

theorem decode (h : t.Represents r) (w : Word) : t.decode w = r.decode w := by
  unfold IndexedRegistry.decode Registry.decode
  rw [funext h.family?, funext h.instruction?]

end

end Represents

end IndexedRegistry

end PistonGrid
