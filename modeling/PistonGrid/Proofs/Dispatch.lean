import PistonGrid.Proofs.RegistryIndex
import PistonGrid.Proofs.Steps

/-!
# Dispatch

A word is dispatched by its control code and, if the family of that code has meta commands, by its meta
command.  In a registry that is built by registrations it reaches the instruction that was accepted for
that key, with its fields divided the way that instruction declares.

* `Registry.decode_ok_iff`, `Registry.decode_error` — decoding in terms of the two look-ups.
* `Registry.Fitting.decode_ok` — the family that a word is divided by is the one that its instruction
  declares.
-/

set_option autoImplicit false

namespace PistonGrid

namespace Registry

/-- A word decodes to the instruction under its key, with the fields of the family at its code. -/
theorem decode_ok_iff {r : Registry} {w : Word} {d : Decoded} :
    r.decode w = .ok d ↔ ∃ f i, r.family? w.controlCode = some f ∧
      r.instruction? ⟨w.controlCode, f.commandOf w⟩ = some i ∧ d = ⟨w, i, .extract w f⟩ := by
  unfold decode decodeBy
  cases hf : r.family? w.controlCode with
  | none => simp
  | some f =>
    cases hi : r.instruction? ⟨w.controlCode, f.commandOf w⟩ with
    | none =>
      simp only [hi]
      split <;> simp [hi]
    | some i => simp [hi, eq_comm]

/-- Which error a word has depends on the family at its control code alone. -/
theorem decode_error {r : Registry} {w : Word} {cause : DecodeError}
    (h : r.decode w = .error cause) :
    cause = if (r.family? w.controlCode).any Family.isMeta then
        .unknownMetaCommand w.controlCode w.metaCommand w
      else .unknownControlCode w.controlCode w := by
  unfold decode decodeBy at h
  split at h
  · rename_i hf
    cases h
    simp [hf]
  · rename_i f hf
    split at h
    · cases h
    · split at h
      · rename_i hmeta
        cases h
        simp [hf, hmeta]
      · rename_i hplain
        cases h
        simp [hf, hplain]

theorem instruction?_key {r : Registry} {k : Key} {i : Instruction}
    (h : r.instruction? k = some i) : i.key = k := by
  simpa using List.find?_some h

/-- An instruction that is found under the key of a word declares the family at the word's code. -/
theorem Fitting.family_eq {r : Registry} (hr : r.Fitting) {code : Nat} {command : Option Nat}
    {f : Family} {i : Instruction} (hf : r.family? code = some f)
    (hi : r.instruction? ⟨code, command⟩ = some i) : i.family = f := by
  have hcode : i.code = code := congrArg Key.code (instruction?_key hi)
  obtain ⟨f', hf', hfits⟩ := hr _ i hi
  rw [hcode, hf] at hf'
  cases hf'
  simp only [fits, Bool.and_eq_true, beq_iff_eq] at hfits
  exact hfits.1

/-- A word that decodes is divided by the family that its instruction declares, which is the one at its
control code. -/
theorem Fitting.decode_ok {r : Registry} (hr : r.Fitting) {w : Word} {d : Decoded}
    (h : r.decode w = .ok d) :
    d = ⟨w, d.instruction, .extract w d.instruction.family⟩ ∧
      r.family? w.controlCode = some d.instruction.family ∧
      r.instruction? ⟨w.controlCode, d.instruction.family.commandOf w⟩ = some d.instruction := by
  obtain ⟨f, i, hf, hi, rfl⟩ := decode_ok_iff.mp h
  obtain rfl : i.family = f := hr.family_eq hf hi
  exact ⟨rfl, hf, hi⟩

end Registry

/-- **Dispatch is sound and complete**, after any sequence of registrations, some of them refused.  A word
decodes exactly when a family was accepted for its control code, and an instruction under its key in that
family.  It then reaches that instruction alone, with its fields divided as the instruction declares;
otherwise the error blames the meta command in a meta family, and else the control code.  The tables of
the indexed registry decode it the same way. -/
theorem dispatch_sound_complete (gs : List Registration) (w : Word) :
    let r := Registry.empty.attemptAll gs
    let accepted := Registry.empty.accepted gs
    ((∃ d, r.decode w = .ok d) ↔
      ∃ f i, .family w.controlCode f ∈ accepted ∧ .instruction i ∈ accepted ∧
        i.key = ⟨w.controlCode, f.commandOf w⟩) ∧
    (∀ d, r.decode w = .ok d →
      d.word = w ∧ .instruction d.instruction ∈ accepted ∧
      d.instruction.key = ⟨w.controlCode, d.instruction.family.commandOf w⟩ ∧
      (∀ i, .instruction i ∈ accepted → i.key = d.instruction.key → i = d.instruction) ∧
      (∀ f, .family w.controlCode f ∈ accepted ↔ f = d.instruction.family) ∧
      d.args = .extract w d.instruction.family) ∧
    (∀ (program : Program) (s : Shared) (p : Piston) (st : Step), program.registry = r →
      program.plane.wordAt? p.x p.y = some w → p.step program s = .ok st →
      ∃ i, .instruction i ∈ accepted ∧ i.key = ⟨w.controlCode, i.family.commandOf w⟩ ∧
        st = p.execute s w ⟨w, i, .extract w i.family⟩) ∧
    (∀ cause, r.decode w = .error cause →
      (∀ f, .family w.controlCode f ∈ accepted → f.isMeta = true →
        cause = .unknownMetaCommand w.controlCode w.metaCommand w) ∧
      ((∀ f, .family w.controlCode f ∈ accepted → f.isMeta = false) →
        cause = .unknownControlCode w.controlCode w)) ∧
    (IndexedRegistry.empty.attemptAll gs).decode w = r.decode w := by
  intro r accepted
  have hfamily : ∀ code f, r.family? code = some f ↔ .family code f ∈ accepted := fun code f =>
    (Registry.family?_attemptAll gs .empty code f).trans (or_iff_right nofun)
  have hinstruction : ∀ k i, r.instruction? k = some i ↔ .instruction i ∈ accepted ∧ i.key = k :=
    fun k i => (Registry.instruction?_attemptAll gs .empty k i).trans (or_iff_right nofun)
  have hfitting : r.Fitting := Registry.fitting_empty.attemptAll gs
  refine ⟨⟨?_, ?_⟩, ?_, ?_, ?_, (IndexedRegistry.Represents.empty.attemptAll gs).decode w⟩
  · rintro ⟨d, hd⟩
    obtain ⟨_, hf, hi⟩ := hfitting.decode_ok hd
    obtain ⟨hmem, hkey⟩ := (hinstruction _ _).mp hi
    exact ⟨_, _, (hfamily _ _).mp hf, hmem, hkey⟩
  · rintro ⟨f, i, hf, hi, hkey⟩
    exact ⟨_, Registry.decode_ok_iff.mpr
      ⟨f, i, (hfamily _ f).mpr hf, (hinstruction _ i).mpr ⟨hi, hkey⟩, rfl⟩⟩
  · intro d hd
    obtain ⟨heq, hf, hi⟩ := hfitting.decode_ok hd
    obtain ⟨hmem, hkey⟩ := (hinstruction _ _).mp hi
    refine ⟨congrArg Decoded.word heq, hmem, hkey, ?_, ?_, congrArg Decoded.args heq⟩
    · -- two instructions under one key would both be what the look-up finds
      intro i hi hsame
      have hfound := (hinstruction d.instruction.key i).mpr ⟨hi, hsame⟩
      rw [(hinstruction d.instruction.key d.instruction).mpr ⟨hmem, rfl⟩] at hfound
      exact (Option.some.inj hfound).symm
    · intro f
      rw [← hfamily, hf, Option.some.injEq, eq_comm]
  · intro program s p st hreg hw hstep
    rcases Piston.step_cases hstep with ⟨houtside, _⟩ | ⟨w', d, hw', hd, rfl⟩
    · rw [hw] at houtside
      cases houtside
    · rw [hw] at hw'
      cases hw'
      rw [hreg] at hd
      obtain ⟨heq, _, hi⟩ := hfitting.decode_ok hd
      obtain ⟨hmem, hkey⟩ := (hinstruction _ _).mp hi
      exact ⟨d.instruction, hmem, hkey, congrArg (p.execute s w) heq⟩
  · intro cause hcause
    have herror := Registry.decode_error hcause
    constructor
    · intro f hf hmeta
      simpa [(hfamily _ f).mpr hf, hmeta] using herror
    · intro hplain
      have hnone : (r.family? w.controlCode).any Family.isMeta = false := by
        cases hf : r.family? w.controlCode with
        | none => rfl
        | some f => exact hplain f ((hfamily _ f).mp hf)
      rwa [hnone, if_neg Bool.false_ne_true] at herror

/-- An instruction that would like to be divided by the given family. -/
def beacon (family : Family) : Instruction where
  code := 0xA
  command := some 3
  family := family
  glyph := '!'
  mnemonic := "BEACON"
  description := "Write the argument"
  script args := .perform (.write (.number args.argument)) (.finish .proceed)

/-- Five registrations, of which the first, the third and the fourth are refused: no family is there
yet, one is there already, and the declared one is another. -/
def contested : List Registration :=
  [.instruction (beacon .genericMeta), .family 0xA .genericMeta, .family 0xA .plain,
    .instruction (beacon .registerMeta), .instruction (beacon .genericMeta)]

/-- What was refused leaves no trace: the word gets the long argument of the accepted family, and its
neighbours have the errors of a meta family and of no family. -/
theorem dispatch_sound_complete_contested :
    let r := Registry.empty.attemptAll contested
    Registry.empty.accepted contested =
        [.family 0xA .genericMeta, .instruction (beacon .genericMeta)] ∧
      (∃ d, r.decode (.genericMeta 0xA 3 70000) = .ok d ∧ d.instruction = beacon .genericMeta ∧
        d.args = .extract (.genericMeta 0xA 3 70000) .genericMeta ∧ d.args = .generic 70000) ∧
      (∃ cause, r.decode (.genericMeta 0xA 4 1) = .error cause ∧
        cause = .unknownMetaCommand 0xA 4 (.genericMeta 0xA 4 1)) ∧
      ∃ cause, r.decode (.genericMeta 0xB 3 1) = .error cause ∧
        cause = .unknownControlCode 0xB (.genericMeta 0xB 3 1) := by
  have hacc : Registry.empty.accepted contested =
      [.family 0xA .genericMeta, .instruction (beacon .genericMeta)] := rfl
  have hfound := (dispatch_sound_complete contested (.genericMeta 0xA 3 70000)).2.1 _ rfl
  have hmeta := (dispatch_sound_complete contested (.genericMeta 0xA 4 1)).2.2.2.1 _ rfl
  have hnone := (dispatch_sound_complete contested (.genericMeta 0xB 3 1)).2.2.2.1 _ rfl
  refine ⟨hacc, ⟨_, rfl, rfl, hfound.2.2.2.2.2, rfl⟩, ⟨_, rfl, ?_⟩, ⟨_, rfl, ?_⟩⟩
  · exact hmeta.1 .genericMeta (by rw [hacc]; exact List.mem_cons_self) rfl
  · refine hnone.2 fun f hf => ?_
    rw [hacc] at hf
    simp [show (Word.genericMeta 0xB 3 1).controlCode = 0xB from rfl] at hf

end PistonGrid
