import Mathlib.Data.Finset.Card
import PistonGrid.Proofs.Dispatch

/-!
# Registries as maps

A registry keeps its families and its instructions in two ordered lists.  This module says that the
lists are the maps that the look-ups make of them, that nothing in them is ever in conflict, and that
the order of the registrations leaves no trace in them.

* `Registry.register_family_ok_iff`, `Registry.register_instruction_ok_iff` — exactly which
  registrations are accepted.
* `Registry.contents_attemptAll` — the lists hold what was accepted, each once.
* `Registry.WellKept` — families ascend by control code, instructions by key, and no key is out of
  range.  `Registry.WellKept.attemptAll` — so it is in every registry that is built by registrations.
* `Registry.WellKept.size_le` — sixteen control codes with eight meta commands each leave room for 128
  instructions.
* `Registry.attemptAll_eq_of_perm` — the same accepted registrations, in any order, make the same
  registry.
* `IndexedRegistry.Shows` — the tables of an indexed registry list, find, count and decode what a
  registry does.  `IndexedRegistry.Represents.shows` — so they do as long as they are in step.
-/

set_option autoImplicit false

namespace PistonGrid

/-! ## Keys in order -/

namespace Key

theorem Before.trans {a b c : Key} (hab : a.Before b) (hbc : b.Before c) : a.Before c := by
  unfold Before at *
  omega

theorem Before.asymm {a b : Key} (hab : a.Before b) : ¬b.Before a := by
  unfold Before at *
  omega

theorem Before.ne {a b : Key} (hab : a.Before b) : a ≠ b := by
  rintro rfl
  exact hab.asymm hab

theorem command_eq_of_slot {a b : Key} (h : a.slot = b.slot) : a.command = b.command := by
  unfold slot at h
  split at h <;> split at h <;> simp_all

theorem Before.between {a c : Key} (b : Key) (hac : a.Before c) : a.Before b ∨ b.Before c := by
  unfold Before at *
  omega

/-- Of two keys one comes first. -/
theorem before_or_before {a b : Key} (h : a ≠ b) : a.Before b ∨ b.Before a := by
  have hslot : a.code = b.code → a.slot ≠ b.slot := by
    intro hcode heq
    obtain ⟨code, command⟩ := a
    obtain ⟨code', command'⟩ := b
    exact h (by rw [show code = code' from hcode, show command = command' from command_eq_of_slot heq])
  unfold Before
  omega

/-- The place of a key among sixteen control codes with eight meta commands each. -/
def place (k : Key) : Nat := 8 * k.code + k.command.getD 0

theorem code_lt {k : Key} (h : k.inRange = true) : k.code < 16 := by
  simp only [inRange, Bool.and_eq_true, decide_eq_true_eq] at h
  exact h.1

theorem command_lt {k : Key} (h : k.inRange = true) {command : Nat} (hk : k.command = some command) :
    command < 8 := by
  simp only [inRange, hk, Bool.and_eq_true, decide_eq_true_eq] at h
  exact h.2

theorem getD_command_lt {k : Key} (h : k.inRange = true) : k.command.getD 0 < 8 := by
  cases hk : k.command with
  | none => decide
  | some command => exact command_lt h hk

theorem place_lt {k : Key} (h : k.inRange = true) : k.place < 128 := by
  have hcode := code_lt h
  have hcommand := getD_command_lt h
  unfold place
  omega

/-- Two keys in range that have the same place, and both a meta command or both none, are the same. -/
theorem eq_of_place {a b : Key} (ha : a.inRange = true) (hb : b.inRange = true)
    (h : a.place = b.place)
    (hsome : a.code = b.code → a.command.isSome = b.command.isSome) : a = b := by
  have hca := getD_command_lt ha
  have hcb := getD_command_lt hb
  unfold place at h
  have hcode : a.code = b.code := by omega
  have hgetD : a.command.getD 0 = b.command.getD 0 := by omega
  have hcommand : a.command = b.command := by
    have := hsome hcode
    cases ha' : a.command <;> cases hb' : b.command <;> simp_all
  obtain ⟨code, command⟩ := a
  obtain ⟨code', command'⟩ := b
  rw [show code = code' from hcode, show command = command' from hcommand]

end Key

/-! ## What a registration adds -/

namespace Registration

/-- The family that a registration declares, with its control code. -/
def family? : Registration → Option (Nat × Family)
  | .family code f => some (code, f)
  | .instruction _ => none

/-- The instruction that a registration brings. -/
def instruction? : Registration → Option Instruction
  | .family _ _ => none
  | .instruction i => some i

theorem family?_eq_some {g : Registration} {code : Nat} {f : Family} :
    g.family? = some (code, f) ↔ g = .family code f := by
  cases g <;> simp [family?]

theorem instruction?_eq_some {g : Registration} {i : Instruction} :
    g.instruction? = some i ↔ g = .instruction i := by
  cases g <;> simp [instruction?]

end Registration

namespace Registry

theorem insertFamily_eq (code : Nat) (family : Family) (families : List (Nat × Family)) :
    insertFamily code family families =
      families.orderedInsert (fun p q => p.1 < q.1) (code, family) := by
  induction families with
  | nil => rfl
  | cons entry rest ih => simp only [insertFamily, List.orderedInsert_cons, ih]

theorem insertInstruction_eq (i : Instruction) (instructions : List Instruction) :
    insertInstruction i instructions =
      instructions.orderedInsert (fun i j => i.key.Before j.key) i := by
  induction instructions with
  | nil => rfl
  | cons j rest ih => simp only [insertInstruction, List.orderedInsert_cons, ih]

section

variable {r r' : Registry}

/-- A family is accepted if its control code is in range and free. -/
theorem register_family_ok_iff {code : Nat} {f : Family} :
    (∃ r', r.register (.family code f) = .ok r') ↔ code < 16 ∧ r.family? code = none := by
  simp only [register, addFamily]
  split
  · rename_i hcode
    cases r.family? code <;> simp [hcode]
  · rename_i hcode
    simp [hcode]

/-- An instruction is accepted if its key is in range, it fits the family of its control code, and the
key is free. -/
theorem register_instruction_ok_iff {i : Instruction} :
    (∃ r', r.register (.instruction i) = .ok r') ↔
      i.key.inRange = true ∧ r.family? i.code = some i.family ∧
        i.command.isSome = i.family.isMeta ∧ r.instruction? i.key = none := by
  simp only [register, add]
  split
  · rename_i hrange
    cases hf : r.family? i.code with
    | none => simp
    | some f =>
      by_cases hfits : fits i f = true
      · have hfits' := hfits
        simp only [fits, Bool.and_eq_true, beq_iff_eq] at hfits'
        obtain ⟨rfl, hcommand⟩ := hfits'
        cases hi : r.instruction? i.key <;> simp [hfits, hrange, hcommand]
      · have hmismatch : f = i.family → i.command.isSome ≠ i.family.isMeta := by
          rintro rfl hcommand
          simp [fits, hcommand] at hfits
        simp only [hfits, Bool.false_eq_true, if_false]
        constructor
        · rintro ⟨r', hr'⟩
          cases hr'
        · rintro ⟨_, heq, hcommand, _⟩
          exact absurd hcommand (hmismatch (Option.some.inj heq))
  · rename_i hrange
    simp [hrange]

/-- An accepted registration adds what it brings, once, and takes nothing away. -/
theorem register_contents {g : Registration} (h : r.register g = .ok r') :
    r'.families.Perm (g.family?.toList ++ r.families) ∧
      r'.instructions.Perm (g.instruction?.toList ++ r.instructions) := by
  cases g with
  | family code f =>
    obtain ⟨_, rfl⟩ := addFamily_ok h
    exact ⟨insertFamily_perm code f r.families, .refl _⟩
  | instruction i =>
    obtain ⟨_, _, rfl⟩ := add_ok h
    exact ⟨.refl _, insertInstruction_perm i r.instructions⟩

end

/-- Adding the first of a sequence and then the others adds all of them. -/
theorem perm_filterMap_cons {α β : Type} {f : α → Option β} {a : α} {as : List α}
    {before between after : List β} (hfirst : between.Perm ((f a).toList ++ before))
    (hothers : after.Perm (as.filterMap f ++ between)) :
    after.Perm ((a :: as).filterMap f ++ before) := by
  have hcons : (a :: as).filterMap f = (f a).toList ++ as.filterMap f := by
    cases hf : f a <;> simp [hf]
  rw [hcons]
  calc after.Perm (as.filterMap f ++ between) := hothers
    _ |>.Perm (as.filterMap f ++ ((f a).toList ++ before)) := hfirst.append_left _
    _ |>.Perm ((f a).toList ++ as.filterMap f ++ before) := by
      rw [← List.append_assoc]
      exact List.perm_append_comm.append_right before

/-- **The lists hold what was accepted**, each once. -/
theorem contents_attemptAll (gs : List Registration) (r : Registry) :
    (r.attemptAll gs).families.Perm ((r.accepted gs).filterMap Registration.family? ++ r.families) ∧
      (r.attemptAll gs).instructions.Perm
        ((r.accepted gs).filterMap Registration.instruction? ++ r.instructions) := by
  induction gs generalizing r with
  | nil => exact ⟨.refl _, .refl _⟩
  | cons g gs ih =>
    cases hg : r.register g with
    | error cause =>
      obtain ⟨hall, hacc⟩ := attemptAll_cons_error hg gs
      rw [hall, hacc]
      exact ih r
    | ok r' =>
      obtain ⟨hall, hacc⟩ := attemptAll_cons_ok hg gs
      obtain ⟨hfamilies, hinstructions⟩ := register_contents hg
      rw [hall, hacc]
      exact ⟨perm_filterMap_cons hfamilies (ih r').1, perm_filterMap_cons hinstructions (ih r').2⟩

/-! ## Ordered lists -/

/-- Families ascend by control code, instructions ascend by key, and no key is out of range. -/
structure WellKept (r : Registry) : Prop where
  families : r.families.Pairwise fun p q => p.1 < q.1
  instructions : r.instructions.Pairwise fun i j => i.key.Before j.key
  inRange : ∀ i ∈ r.instructions, i.key.inRange = true

namespace WellKept

variable {r r' : Registry}

theorem empty : Registry.empty.WellKept := ⟨.nil, .nil, nofun⟩

theorem register {g : Registration} (hr : r.WellKept) (h : r.register g = .ok r') : r'.WellKept := by
  cases g with
  | family code f =>
    obtain ⟨hnone, rfl⟩ := addFamily_ok h
    refine ⟨?_, hr.instructions, hr.inRange⟩
    simp only [insertFamily_eq]
    refine pairwise_orderedInsert (fun _ _ _ => Nat.lt_trans) hr.families fun p hp => ?_
    have hne : code ≠ p.1 := by simpa using List.lookup_eq_none_iff.mp hnone p hp
    exact Nat.lt_or_gt_of_ne hne
  | instruction i =>
    have hrange := (register_instruction_ok_iff.mp ⟨r', h⟩).1
    obtain ⟨_, hnone, rfl⟩ := add_ok h
    refine ⟨hr.families, ?_, ?_⟩
    · simp only [insertInstruction_eq]
      refine pairwise_orderedInsert (fun _ _ _ => Key.Before.trans) hr.instructions fun j hj => ?_
      have hne : j.key ≠ i.key := by simpa using List.find?_eq_none.mp hnone j hj
      exact Key.before_or_before hne.symm
    · intro j hj
      rcases List.mem_cons.mp ((insertInstruction_perm i _).mem_iff.mp hj) with rfl | hj
      · exact hrange
      · exact hr.inRange j hj

theorem attemptAll (hr : r.WellKept) (gs : List Registration) : (r.attemptAll gs).WellKept :=
  attemptAll_keeps WellKept.register hr gs

theorem keys_nodup (hr : r.WellKept) : (r.instructions.map Instruction.key).Nodup :=
  List.pairwise_map.mpr (hr.instructions.imp Key.Before.ne)

theorem families_iff (hr : r.WellKept) (code : Nat) (f : Family) :
    r.family? code = some f ↔ (code, f) ∈ r.families :=
  lookup_eq_some_iff_mem (List.pairwise_map.mpr (hr.families.imp Nat.ne_of_lt)) code f

/-- A key leads to the one instruction that declares it. -/
theorem instructions_iff (hr : r.WellKept) (k : Key) (i : Instruction) :
    r.instruction? k = some i ↔ i ∈ r.instructions ∧ i.key = k := by
  constructor
  · intro h
    exact ⟨List.mem_of_find?_eq_some h, instruction?_key h⟩
  · rintro ⟨hi, rfl⟩
    cases hfound : r.instruction? i.key with
    | none => simpa using List.find?_eq_none.mp hfound i hi
    | some j =>
      have hj : j ∈ r.instructions := List.mem_of_find?_eq_some hfound
      rw [List.inj_on_of_nodup_map hr.keys_nodup hj hi (instruction?_key hfound)]

/-- A listed instruction declares the family of its control code, and has a meta command just if that
family needs one. -/
theorem declared (hr : r.WellKept) (hfit : r.Fitting) {i : Instruction} (hi : i ∈ r.instructions) :
    r.family? i.code = some i.family ∧ i.command.isSome = i.family.isMeta := by
  obtain ⟨f, hf, hfits⟩ := hfit i.key i ((hr.instructions_iff i.key i).mpr ⟨hi, rfl⟩)
  simp only [fits, Bool.and_eq_true, beq_iff_eq] at hfits
  obtain ⟨rfl, hcommand⟩ := hfits
  exact ⟨hf, hcommand⟩

/-- **There is room for 128 instructions.** Those of one control code share its family, so that they
either all have a meta command or all have none. -/
theorem size_le (hr : r.WellKept) (hfit : r.Fitting) : r.size ≤ 128 := by
  have hnodup : (r.instructions.map (·.key.place)).Nodup := by
    refine List.pairwise_map.mpr (hr.instructions.imp_of_mem fun {i j} hi hj hbefore heq => ?_)
    refine hbefore.ne (Key.eq_of_place (hr.inRange i hi) (hr.inRange j hj) heq fun hcode => ?_)
    obtain ⟨hfi, hci⟩ := hr.declared hfit hi
    obtain ⟨hfj, hcj⟩ := hr.declared hfit hj
    have hfamily : i.family = j.family := by
      rw [show i.code = j.code from hcode, hfj] at hfi
      exact (Option.some.inj hfi).symm
    show i.command.isSome = j.command.isSome
    rw [hci, hcj, hfamily]
  have hsubset : r.instructions.map (·.key.place) ⊆ List.range 128 := by
    intro n hn
    obtain ⟨i, hi, rfl⟩ := List.mem_map.mp hn
    exact List.mem_range.mpr (Key.place_lt (hr.inRange i hi))
  simpa [size] using (List.subperm_of_subset hnodup hsubset).length_le

end WellKept

/-! ## The order of registrations -/

theorem mem_families_attemptAll (gs : List Registration) (code : Nat) (f : Family) :
    (code, f) ∈ (empty.attemptAll gs).families ↔ .family code f ∈ empty.accepted gs := by
  rw [(contents_attemptAll gs empty).1.mem_iff]
  simp [empty, Registration.family?_eq_some]

theorem mem_instructions_attemptAll (gs : List Registration) (i : Instruction) :
    i ∈ (empty.attemptAll gs).instructions ↔ .instruction i ∈ empty.accepted gs := by
  rw [(contents_attemptAll gs empty).2.mem_iff]
  simp [empty, Registration.instruction?_eq_some]

/-- **The order of registrations leaves no trace.** Two sequences whose accepted registrations are the
same up to order make the same registry: both of its lists are in order, and hold the same. -/
theorem attemptAll_eq_of_perm {gs gs' : List Registration}
    (h : (empty.accepted gs).Perm (empty.accepted gs')) :
    empty.attemptAll gs = empty.attemptAll gs' := by
  obtain ⟨hf, hi⟩ := contents_attemptAll gs empty
  obtain ⟨hf', hi'⟩ := contents_attemptAll gs' empty
  have hkept := WellKept.empty.attemptAll gs
  have hkept' := WellKept.empty.attemptAll gs'
  have hfamilies : (empty.attemptAll gs).families = (empty.attemptAll gs').families := by
    refine List.Perm.eq_of_pairwise ?_ hkept.families hkept'.families
      (hf.trans (((h.filterMap _).append_right _).trans hf'.symm))
    exact fun p q _ _ hpq hqp => absurd hqp (Nat.lt_asymm hpq)
  have hinstructions : (empty.attemptAll gs).instructions = (empty.attemptAll gs').instructions := by
    refine List.Perm.eq_of_pairwise ?_ hkept.instructions hkept'.instructions
      (hi.trans (((h.filterMap _).append_right _).trans hi'.symm))
    exact fun i j _ _ hij hji => absurd hji hij.asymm
  exact congrArg₂ Registry.mk hfamilies hinstructions

end Registry

/-! ## Sorted listings -/

namespace IndexedRegistry

/-- The tables show a registry: they list, find, count and decode what it does. -/
structure Shows (t : IndexedRegistry) (r : Registry) : Prop where
  families : t.listFamilies = r.families
  instructions : t.listInstructions = r.instructions
  family? : ∀ code, t.family? code = r.family? code
  instruction? : ∀ k, t.instruction? k = r.instruction? k
  size : t.size = r.size
  decode : ∀ w, t.decode w = r.decode w

namespace Represents

variable {t : IndexedRegistry} {r : Registry}

theorem listFamilies (h : t.Represents r) (hr : r.WellKept) : t.listFamilies = r.families :=
  mergeSort_eq_of_perm (fun _ _ => Nat.lt_asymm)
    (fun p q _ hlt => (Nat.lt_or_ge p.1 q.1).imp_right fun hle => Nat.lt_of_le_of_lt hle hlt) h.families
    hr.families

theorem listInstructions (h : t.Represents r) (hr : r.WellKept) :
    t.listInstructions = r.instructions :=
  mergeSort_eq_of_perm (fun _ _ => Key.Before.asymm) (fun _ j _ => Key.Before.between j.key) h.entries
    hr.instructions

theorem shows (h : t.Represents r) (hr : r.WellKept) : t.Shows r where
  families := h.listFamilies hr
  instructions := h.listInstructions hr
  family? := h.family?
  instruction? := h.instruction?
  size := by
    rw [IndexedRegistry.size, Registry.size, ← Array.length_toList]
    exact h.entries.length_eq
  decode := h.decode

end Represents

end IndexedRegistry

/-- **A registry is a conflict-free map, whatever the order of registrations**, some of which may be
refused.  What is accepted, and so what is listed and found, is said exactly; keys are distinct and at
most 128.  The tables of the indexed registry show the same lists, look-ups, number and decodings, still
the same after a refused call, and the same again after the registrations in another order. -/
theorem registry_conflict_free_map (gs : List Registration) :
    let r := Registry.empty.attemptAll gs
    let accepted := Registry.empty.accepted gs
    let tables := IndexedRegistry.empty.attemptAll gs
    (∀ code f, (∃ r', r.register (.family code f) = .ok r') ↔
      code < 16 ∧ r.family? code = none) ∧
    (∀ i, (∃ r', r.register (.instruction i) = .ok r') ↔
      i.key.inRange = true ∧ r.family? i.code = some i.family ∧
        i.command.isSome = i.family.isMeta ∧ r.instruction? i.key = none) ∧
    tables.Shows r ∧
    (∀ g cause, r.register g = .error cause →
      ∃ tables', (IndexedRegistry.register g).run tables = .error cause tables' ∧ tables'.Shows r) ∧
    (∀ g r', r.register g = .ok r' →
      ∃ tables', (IndexedRegistry.register g).run tables = .ok () tables' ∧ tables'.Shows r') ∧
    (∀ code f, (code, f) ∈ r.families ↔ .family code f ∈ accepted) ∧
    (∀ i, i ∈ r.instructions ↔ .instruction i ∈ accepted) ∧
    (r.instructions.map Instruction.key).Nodup ∧
    (∀ k i, r.instruction? k = some i ↔ i ∈ r.instructions ∧ i.key = k) ∧
    (∀ code f, r.family? code = some f ↔ (code, f) ∈ r.families) ∧
    (∀ i ∈ r.instructions, r.family? i.code = some i.family) ∧
    r.instructions.Pairwise (fun i j => i.key.Before j.key) ∧
    r.families.Pairwise (fun p q => p.1 < q.1) ∧
    r.size = (r.instructions.map Instruction.key).toFinset.card ∧
    r.size ≤ 128 ∧
    ∀ gs', gs.Perm gs' → accepted = gs → Registry.empty.accepted gs' = gs' →
      Registry.empty.attemptAll gs' = r ∧ (IndexedRegistry.empty.attemptAll gs').Shows r := by
  intro r accepted tables
  have hkept : r.WellKept := Registry.WellKept.empty.attemptAll gs
  have hfit : r.Fitting := Registry.fitting_empty.attemptAll gs
  have htables : tables.Represents r := IndexedRegistry.Represents.empty.attemptAll gs
  refine ⟨fun _ _ => Registry.register_family_ok_iff, fun _ => Registry.register_instruction_ok_iff,
    htables.shows hkept, fun g cause hg => ?_, fun g r' hg => ?_, Registry.mem_families_attemptAll gs,
    Registry.mem_instructions_attemptAll gs, hkept.keys_nodup, hkept.instructions_iff,
    hkept.families_iff, fun i hi => (hkept.declared hfit hi).1, hkept.instructions, hkept.families, ?_,
    hkept.size_le hfit, fun gs' hperm hall hall' => ?_⟩
  · rcases htables.register g with ⟨_, hcause, hrun⟩ | ⟨_, _, hok, _, _⟩
    · cases hg.symm.trans hcause
      exact ⟨tables, hrun, htables.shows hkept⟩
    · cases hg.symm.trans hok
  · rcases htables.register g with ⟨_, hcause, _⟩ | ⟨_, tables', hok, hrun, htables'⟩
    · cases hg.symm.trans hcause
    · cases hg.symm.trans hok
      exact ⟨tables', hrun, htables'.shows (hkept.register hg)⟩
  · rw [List.toFinset_card_of_nodup hkept.keys_nodup, List.length_map]
    rfl
  · have hsame : Registry.empty.attemptAll gs' = r := by
      refine Registry.attemptAll_eq_of_perm ?_
      rw [hall', show Registry.empty.accepted gs = gs from hall]
      exact hperm.symm
    refine ⟨hsame, ?_⟩
    have hother := IndexedRegistry.Represents.empty.attemptAll gs'
    rw [hsame] at hother
    exact hother.shows hkept

/-- An instruction that does nothing, under the given key. -/
def idle (code : Nat) (command : Option Nat) (family : Family) : Instruction where
  code := code
  command := command
  family := family
  glyph := '.'
  mnemonic := "IDLE"
  description := "Do nothing"
  script _ := .finish .proceed

/-- Two families, and an instruction of each. -/
def enrolled : List Registration :=
  [.family 0x9 .registerMeta, .family 0x2 .plain, .instruction (idle 0x9 (some 3) .registerMeta),
    .instruction (idle 0x2 none .plain)]

/-- The same in another order. -/
def enrolledOtherwise : List Registration :=
  [.family 0x2 .plain, .family 0x9 .registerMeta, .instruction (idle 0x2 none .plain),
    .instruction (idle 0x9 (some 3) .registerMeta)]

/-- Both orders show the same registry, with its instructions in order of their keys, although their
instructions have other places; a second family at a code that is taken is refused, and what is shown
stays as it was. -/
theorem registry_conflict_free_map_enrolled :
    let r := Registry.empty.attemptAll enrolled
    enrolled.Perm enrolledOtherwise ∧ Registry.empty.accepted enrolled = enrolled ∧
      Registry.empty.accepted enrolledOtherwise = enrolledOtherwise ∧
      (IndexedRegistry.empty.attemptAll enrolled).index =
        [(⟨0x2, none⟩, 1), (⟨0x9, some 3⟩, 0)] ∧
      (IndexedRegistry.empty.attemptAll enrolledOtherwise).index =
        [(⟨0x9, some 3⟩, 1), (⟨0x2, none⟩, 0)] ∧
      Registry.empty.attemptAll enrolledOtherwise = r ∧
      (IndexedRegistry.empty.attemptAll enrolledOtherwise).Shows r ∧
      r.instructions.map Instruction.key = [⟨0x2, none⟩, ⟨0x9, some 3⟩] ∧
      r.register (.family 0x9 .plain) = .error (.duplicateFamily 0x9) ∧
      ∃ tables', (IndexedRegistry.register (.family 0x9 .plain)).run
        (IndexedRegistry.empty.attemptAll enrolled) = .error (.duplicateFamily 0x9) tables' ∧
        tables'.Shows r := by
  intro r
  obtain ⟨_, _, _, hrefused, _, _, _, _, _, _, _, _, _, _, _, horder⟩ :=
    registry_conflict_free_map enrolled
  have hswap : ∀ a b c d : Registration, [a, b, c, d].Perm [b, a, d, c] := fun a b c d =>
    (List.Perm.swap b a []).append (.swap d c [])
  have hperm : enrolled.Perm enrolledOtherwise := hswap _ _ _ _
  obtain ⟨hsame, hshows⟩ := horder enrolledOtherwise hperm rfl rfl
  exact ⟨hperm, rfl, rfl, rfl, rfl, hsame, hshows, rfl, rfl, hrefused _ _ rfl⟩

end PistonGrid
