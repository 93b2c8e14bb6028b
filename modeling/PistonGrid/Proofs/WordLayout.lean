import Mathlib.Algebra.Group.Nat.Defs
import PistonGrid.Proofs.RegistryOrder

/-!
# Words and what they stand for

The three layouts divide the same twenty bits in three ways.  This module says that in each of them
building a word and taking it apart undo one another, and that the word of a registered instruction
leads back to that instruction, with what was put into it.

* `Word.plain_bits`, `Word.registerMeta_bits`, `Word.genericMeta_bits` — a word is its fields side by
  side: masked, shifted into place and joined, with none reaching into the next.
* `Family.word`, `Instruction.word` — the word of a family, or of an instruction, with given fields.
  `Family.args` — what such a word carries: each field reduced to its width.
* `Family.controlCode_word`, `Family.commandOf_word`, `Family.extract_word` — the fields of a word that
  was built.  `Family.word_extract` — every word is built from its own fields.
* `Registry.WellKept.decode_word` — the word of a registered instruction decodes to it.
-/

set_option autoImplicit false

namespace PistonGrid

/-! ## Fields side by side -/

/-- A field takes the bits that a number leaves free when it is shifted past it, and no others. -/
theorem or_shiftLeft (n shift width : Nat) {field : Nat} (h : field < 2 ^ width) :
    n <<< (shift + width) ||| field <<< shift = (n * 2 ^ width + field) <<< shift := by
  calc n <<< (shift + width) ||| field <<< shift
      = (n <<< width ||| field) <<< shift := by
        rw [Nat.shiftLeft_or_distrib, ← Nat.shiftLeft_add, Nat.add_comm width shift]
    _ = (n * 2 ^ width + field) <<< shift := by
        rw [← Nat.shiftLeft_add_eq_or_of_lt h, Nat.shiftLeft_eq n width]

namespace Word

theorem eq_of_bits {w w' : Word} (h : w.bits = w'.bits) : w = w' := by
  obtain ⟨bits, _⟩ := w
  obtain ⟨bits', _⟩ := w'
  subst h
  rfl

/-- The control code with the field right below it. -/
theorem code_bits (code shift width field : Nat) (h : field < 2 ^ width) :
    (code &&& 0xF) <<< (shift + width) ||| field <<< shift =
      (code % 16 * 2 ^ width + field) <<< shift := by
  rw [show code &&& 0xF = code % 16 from Nat.and_two_pow_sub_one_eq_mod code 4]
  exact or_shiftLeft (code % 16) shift width h

theorem plain_bits (code argument : Nat) :
    (plain code argument).bits = (code &&& 0xF) <<< 20 ||| (argument &&& 0xFFFFF) := by
  have hargument : argument &&& 0xFFFFF = argument % 1048576 :=
    Nat.and_two_pow_sub_one_eq_mod argument 20
  have hjoin : (code &&& 0xF) <<< 20 ||| argument % 1048576 =
      code % 16 * 1048576 + argument % 1048576 :=
    code_bits code 0 20 _ (Nat.mod_lt argument (by decide))
  rw [hargument, hjoin]
  show (code % 16 * 1048576 + argument % 1048576) % 16777216 = _
  omega

/-- Control code and meta command, side by side. -/
theorem meta_bits (code command : Nat) :
    (code &&& 0xF) <<< 20 ||| (command &&& 0x7) <<< 17 = (code % 16 * 8 + command % 8) <<< 17 := by
  rw [show command &&& 0x7 = command % 8 from Nat.and_two_pow_sub_one_eq_mod command 3]
  exact code_bits code 17 3 _ (Nat.mod_lt command (by decide))

theorem genericMeta_bits (code command argument : Nat) :
    (genericMeta code command argument).bits =
      (code &&& 0xF) <<< 20 ||| (command &&& 0x7) <<< 17 ||| (argument &&& 0x1FFFF) := by
  have hargument : argument &&& 0x1FFFF = argument % 131072 :=
    Nat.and_two_pow_sub_one_eq_mod argument 17
  have hjoin : (code % 16 * 8 + command % 8) <<< 17 ||| argument % 131072 =
      (code % 16 * 8 + command % 8) * 131072 + argument % 131072 :=
    or_shiftLeft _ 0 17 (Nat.mod_lt argument (by decide))
  rw [meta_bits, hargument, hjoin]
  show (code % 16 * 1048576 + command % 8 * 131072 + argument % 131072) % 16777216 = _
  omega

theorem registerMeta_bits (code command : Nat) (r : Register) (o : RegisterOptions) (argument : Nat) :
    (registerMeta code command r o argument).bits =
      (code &&& 0xF) <<< 20 ||| (command &&& 0x7) <<< 17 ||| r.val <<< 14 ||| o.val <<< 12 |||
        (argument &&& 0xFFF) := by
  have hargument : argument &&& 0xFFF = argument % 4096 := Nat.and_two_pow_sub_one_eq_mod argument 12
  have hr : ∀ n : Nat, n <<< 17 ||| r.val <<< 14 = (n * 8 + r.val) <<< 14 := fun n =>
    or_shiftLeft n 14 3 r.isLt
  have ho : ∀ n : Nat, n <<< 14 ||| o.val <<< 12 = (n * 4 + o.val) <<< 12 := fun n =>
    or_shiftLeft n 12 2 o.isLt
  have hjoin : ∀ n : Nat, n <<< 12 ||| argument % 4096 = n * 4096 + argument % 4096 := fun n =>
    or_shiftLeft n 0 12 (Nat.mod_lt argument (by decide))
  have hr' := r.isLt
  have ho' := o.isLt
  rw [meta_bits, hr, ho, hargument, hjoin]
  show (code % 16 * 1048576 + command % 8 * 131072 + r.val * 16384 + o.val * 4096 + argument % 4096) %
    16777216 = _
  omega

end Word

/-! ## Building a word and taking it apart -/

namespace Family

/-- The word of a family with the given fields; those that the family has no room for are left out. -/
def word (f : Family) (code command : Nat) (r : Register) (o : RegisterOptions) (argument : Nat) :
    Word :=
  match f with
  | .plain => .plain code argument
  | .registerMeta => .registerMeta code command r o argument
  | .genericMeta => .genericMeta code command argument

/-- What such a word carries: the argument keeps the twenty, twelve or seventeen bits that the family
has for it. -/
def args (f : Family) (r : Register) (o : RegisterOptions) (argument : Nat) : Args :=
  match f with
  | .plain => .plain (argument % 1048576)
  | .registerMeta => .register r o (argument % 4096)
  | .genericMeta => .generic (argument % 131072)

section

variable (f : Family) (code command : Nat) (r : Register) (o : RegisterOptions) (argument : Nat)

theorem controlCode_word : (f.word code command r o argument).controlCode = code % 16 := by
  have hr := r.isLt
  have ho := o.isLt
  cases f <;> simp only [word, Word.controlCode, Word.plain, Word.registerMeta, Word.genericMeta,
    Word.ofNat] <;> omega

theorem commandOf_word :
    f.commandOf (f.word code command r o argument) =
      if f.isMeta then some (command % 8) else none := by
  have hr := r.isLt
  have ho := o.isLt
  have hmeta : f.isMeta = true → (f.word code command r o argument).metaCommand = command % 8 := by
    intro hf
    cases f with
    | plain => cases hf
    | registerMeta => simp only [word, Word.metaCommand, Word.registerMeta, Word.ofNat]; omega
    | genericMeta => simp only [word, Word.metaCommand, Word.genericMeta, Word.ofNat]; omega
  unfold commandOf
  split
  · rename_i hf
    rw [hmeta hf]
  · rfl

/-- **Taking apart undoes building**, up to the width of the argument. -/
theorem extract_word : Args.extract (f.word code command r o argument) f = f.args r o argument := by
  have hr := r.isLt
  have ho := o.isLt
  cases f with
  | plain =>
    simp only [word, args, Args.extract, Word.payload, Word.plain, Word.ofNat, Args.plain.injEq]
    omega
  | registerMeta =>
    simp only [word, args, Args.extract, Word.register, Word.options, Word.shortArgument,
      Word.registerMeta, Word.ofNat, Register.ofBits, RegisterOptions.ofBits, Args.register.injEq,
      Fin.ext_iff]
    omega
  | genericMeta =>
    simp only [word, args, Args.extract, Word.longArgument, Word.genericMeta, Word.ofNat,
      Args.generic.injEq]
    omega

/-- **Building undoes taking apart.** -/
theorem word_extract (w : Word) :
    f.word w.controlCode w.metaCommand w.register w.options (Args.extract w f).argument = w := by
  have hw := w.bits_lt
  refine Word.eq_of_bits ?_
  cases f <;> simp only [word, Args.extract, Args.argument, Word.plain, Word.registerMeta,
    Word.genericMeta, Word.ofNat, Word.controlCode, Word.payload, Word.metaCommand, Word.register,
    Word.options, Word.shortArgument, Word.longArgument, Register.ofBits, RegisterOptions.ofBits] <;>
    omega

end

end Family

/-- The word that calls an instruction with the given fields. -/
def Instruction.word (i : Instruction) (r : Register) (o : RegisterOptions) (argument : Nat) : Word :=
  i.family.word i.code (i.command.getD 0) r o argument

namespace Registry

/-- The key by which the word of a registered instruction is looked up is that of the instruction. -/
theorem WellKept.key_word {reg : Registry} (hreg : reg.WellKept) (hfit : reg.Fitting) {i : Instruction}
    (hi : i ∈ reg.instructions) (r : Register) (o : RegisterOptions) (argument : Nat) :
    (i.word r o argument).controlCode = i.code ∧
      i.family.commandOf (i.word r o argument) = i.command := by
  have hrange := hreg.inRange i hi
  have hcode : i.code < 16 := Key.code_lt hrange
  have hcommand : i.command.getD 0 < 8 := Key.getD_command_lt hrange
  have hmeta := (hreg.declared hfit hi).2
  unfold Instruction.word
  rw [Family.controlCode_word, Family.commandOf_word, ← hmeta, Nat.mod_eq_of_lt hcode,
    Nat.mod_eq_of_lt hcommand]
  refine ⟨rfl, ?_⟩
  cases i.command <;> rfl

/-- **The word of a registered instruction decodes to it**, with what was put into it. -/
theorem WellKept.decode_word {reg : Registry} (hreg : reg.WellKept) (hfit : reg.Fitting)
    {i : Instruction} (hi : i ∈ reg.instructions) (r : Register) (o : RegisterOptions)
    (argument : Nat) :
    reg.decode (i.word r o argument) = .ok ⟨i.word r o argument, i, i.family.args r o argument⟩ := by
  obtain ⟨hcode, hcommand⟩ := hreg.key_word hfit hi r o argument
  refine decode_ok_iff.mpr ⟨i.family, i, ?_, ?_, ?_⟩
  · rw [hcode]
    exact (hreg.declared hfit hi).1
  · rw [hcode, hcommand]
    exact (hreg.instructions_iff i.key i).mpr ⟨hi, rfl⟩
  · rw [← Family.extract_word]
    rfl

/-- **A word that decodes is the word of its instruction**, with the fields that it was read to have. -/
theorem Fitting.word_of_decode {reg : Registry} (hfit : reg.Fitting) {w : Word} {d : Decoded}
    (h : reg.decode w = .ok d) : d.instruction.word w.register w.options d.args.argument = w := by
  obtain ⟨heq, _, hi⟩ := hfit.decode_ok h
  have hkey := instruction?_key hi
  have hcode : d.instruction.code = w.controlCode := congrArg Key.code hkey
  have hcommand : d.instruction.command = d.instruction.family.commandOf w := congrArg Key.command hkey
  have hword : ∀ f : Family, f.word w.controlCode ((f.commandOf w).getD 0) w.register w.options
      (Args.extract w f).argument = w := by
    intro f
    have hextract := f.word_extract w
    cases f <;> exact hextract
  rw [congrArg Decoded.args heq]
  unfold Instruction.word
  rw [hcode, hcommand, hword]

end Registry

/-- **Decoding undoes encoding, and encoding undoes decoding.** Every word is built again from its own
fields, in all three layouts, and is its fields side by side, each masked to its width.  In every
registry that is built by registrations the word of each listed instruction decodes to that instruction,
with the fields that were put into it; every word that decodes comes about in this way. -/
theorem words_round_trip (gs : List Registration) :
    (∀ w : Word,
      .plain w.controlCode w.payload = w ∧
      .registerMeta w.controlCode w.metaCommand w.register w.options w.shortArgument = w ∧
      .genericMeta w.controlCode w.metaCommand w.longArgument = w) ∧
    (∀ (code command : Nat) (r : Register) (o : RegisterOptions) (argument : Nat),
      (Word.plain code argument).bits = (code &&& 0xF) <<< 20 ||| (argument &&& 0xFFFFF) ∧
      (Word.registerMeta code command r o argument).bits =
        (code &&& 0xF) <<< 20 ||| (command &&& 0x7) <<< 17 ||| r.val <<< 14 ||| o.val <<< 12 |||
          (argument &&& 0xFFF) ∧
      (Word.genericMeta code command argument).bits =
        (code &&& 0xF) <<< 20 ||| (command &&& 0x7) <<< 17 ||| (argument &&& 0x1FFFF)) ∧
    let reg := Registry.empty.attemptAll gs
    (∀ i ∈ reg.instructions, ∀ (r : Register) (o : RegisterOptions) (argument : Nat),
      reg.decode (i.word r o argument) = .ok ⟨i.word r o argument, i, i.family.args r o argument⟩) ∧
    ∀ w d, reg.decode w = .ok d → d.instruction.word w.register w.options d.args.argument = w := by
  have hkept := Registry.WellKept.empty.attemptAll gs
  have hfit := Registry.fitting_empty.attemptAll gs
  refine ⟨fun w => ?_, fun code command r o argument => ?_, ?_, ?_⟩
  · exact ⟨Family.plain.word_extract w, Family.registerMeta.word_extract w,
      Family.genericMeta.word_extract w⟩
  · exact ⟨Word.plain_bits code argument, Word.registerMeta_bits code command r o argument,
      Word.genericMeta_bits code command argument⟩
  · exact fun i hi => hkept.decode_word hfit hi
  · exact fun w d => hfit.word_of_decode

/-- One instruction of each layout. -/
def threeLayouts : List Registration :=
  [.family 0x1 .plain, .family 0xA .registerMeta, .family 0xF .genericMeta,
    .instruction (idle 0xF (some 7) .genericMeta), .instruction (idle 0x1 none .plain),
    .instruction (idle 0xA (some 5) .registerMeta)]

/-- With all bits of all fields set, and more bits than the argument has room for, nothing spills over. -/
theorem words_round_trip_threeLayouts :
    let reg := Registry.empty.attemptAll threeLayouts
    reg.instructions =
        [idle 0x1 none .plain, idle 0xA (some 5) .registerMeta, idle 0xF (some 7) .genericMeta] ∧
      reg.decode ((idle 0x1 none .plain).word 7 3 0xFFFFFFFF) =
        .ok ⟨.ofNat 0x1FFFFF, idle 0x1 none .plain, .plain 0xFFFFF⟩ ∧
      reg.decode ((idle 0xA (some 5) .registerMeta).word 7 3 0xFFFFFFFF) =
        .ok ⟨.ofNat 0xABFFFF, idle 0xA (some 5) .registerMeta, .register 7 3 0xFFF⟩ ∧
      reg.decode ((idle 0xF (some 7) .genericMeta).word 7 3 0xFFFFFFFF) =
        .ok ⟨.ofNat 0xFFFFFF, idle 0xF (some 7) .genericMeta, .generic 0x1FFFF⟩ := by
  intro reg
  have hlisted : reg.instructions =
      [idle 0x1 none .plain, idle 0xA (some 5) .registerMeta, idle 0xF (some 7) .genericMeta] := rfl
  have hdecode := (words_round_trip threeLayouts).2.2.1
  refine ⟨hlisted, ?_, ?_, ?_⟩
  · exact hdecode _ (hlisted ▸ List.mem_cons_self) 7 3 0xFFFFFFFF
  · exact hdecode _ (hlisted ▸ List.mem_cons_of_mem _ List.mem_cons_self) 7 3 0xFFFFFFFF
  · exact hdecode _ (hlisted ▸ List.mem_cons_of_mem _ (List.mem_cons_of_mem _ List.mem_cons_self)) 7 3
      0xFFFFFFFF

end PistonGrid
