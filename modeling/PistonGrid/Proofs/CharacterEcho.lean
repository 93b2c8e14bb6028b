import Mathlib.Logic.Function.Iterate
import PistonGrid.Proofs.Wrapping

/-!
# Character echo

Reading characters into a register and writing them out again copies the input, but for two things: a
register holds less than a code point can be, and past the end of the input the character zero is read.

* `echoed` — what is left of a character that went through a register; `toNat_echoed`, `echoed_eq_self_iff`.
* `Context.echo` — `IN_CHAR`, then `OUT_CHAR`; `Context.echo_channel` — what this does to the channel.
* `echoText` — what a number of echoes write; `Context.iterate_echo_channel` — and that they leave the rest.
-/

set_option autoImplicit false

namespace PistonGrid

/-! ## Characters through a register -/

/-- What is written for a character that was read into a register. -/
def echoed (c : Char) : Char := charOfCode (c.toNat % capacity)

theorem toNat_charOfCode (n : Nat) : (charOfCode n).toNat = if n.isValidChar then n else 0xFFFD := by
  unfold charOfCode
  split
  · rename_i hvalid
    rw [Char.ofNat, dif_pos hvalid]
    rfl
  · rfl

/-- Below the bound only the halves of surrogate pairs are no code points. -/
theorem toNat_echoed (c : Char) : (echoed c).toNat =
    if 0xD800 ≤ c.toNat % capacity ∧ c.toNat % capacity ≤ 0xDFFF then 0xFFFD else c.toNat % capacity := by
  have hlt : c.toNat % capacity < 1048576 := Nat.mod_lt _ (by decide)
  rw [echoed, toNat_charOfCode]
  split
  · rename_i hvalid
    rw [if_neg]
    rcases hvalid with hvalid | hvalid <;> omega
  · rename_i hvalid
    rw [if_pos]
    simp only [Nat.isValidChar, not_or, not_and] at hvalid
    omega

theorem echoed_eq_self_iff (c : Char) : echoed c = c ↔ c.toNat < 0x100000 := by
  have hvalid : c.toNat < 0xD800 ∨ (0xDFFF < c.toNat ∧ c.toNat < 0x110000) := c.valid
  rw [← Char.toNat_inj, toNat_echoed, capacity]
  split <;> omega

/-- Two characters of the last plane: one becomes a letter, the other half of a surrogate pair. -/
example : echoed (Char.ofNat 0x100041) = 'A' ∧ echoed (Char.ofNat 0x10D800) = Char.ofNat 0xFFFD := by
  decide

/-! ## One echo -/

section

variable (r : Register) (o o' : RegisterOptions) (a a' : Nat)

/-- `IN_CHAR`, then `OUT_CHAR`, on one register. -/
def Context.echo (c : Context) : Context :=
  let read := ((Catalog.inChar.script (.register r o a)).run c).context
  ((Catalog.outChar.script (.register r o' a')).run read).context

/-- The character that an echo writes when the given input is left. -/
def echoNext (left : List Char) : Char := (left.head?.map echoed).getD (Char.ofNat 0)

theorem charOfCode_grabChar (c : Channel) : charOfCode (wrap c.grabChar.1) = echoNext c.input := by
  rw [wrap_natCast, Channel.grabChar]
  cases c.input with
  | nil => rfl
  | cons x left => rfl

theorem grabChar_input (c : Channel) : c.grabChar.2.input = c.input.tail := by
  rw [Channel.grabChar]
  cases h : c.input with
  | nil => exact h
  | cons x left => rfl

/-- **One echo** takes a character and writes what is left of it. -/
theorem Context.echo_channel (c : Context) :
    (c.echo r o o' a a').shared.channel =
      { input := c.shared.channel.input.tail
        output := c.shared.channel.output ++ (echoNext c.shared.channel.input).toString
        lastOutput := (echoNext c.shared.channel.input).toNat } := by
  have hregister : (c.piston.setRegister r c.shared.channel.grabChar.1 o).register r =
      wrap c.shared.channel.grabChar.1 := by
    rw [Piston.register_setRegister, if_pos rfl]
  have hwrite : (c.echo r o o' a a').shared.channel = c.shared.channel.grabChar.2.write
      (.ofChar (charOfCode ((c.piston.setRegister r c.shared.channel.grabChar.1 o).register r))) := rfl
  rw [hwrite, hregister, charOfCode_grabChar, Channel.write, OutputItem.value_ofChar, grabChar_input,
    Channel.grabChar_output]
  rfl

/-! ## Many echoes -/

/-- What a number of echoes write: the characters of the input, as far as it goes, then zeros. -/
def echoText (k : Nat) (left : List Char) : List Char :=
  (left.take k).map echoed ++ List.replicate (k - left.length) (Char.ofNat 0)

theorem echoText_succ (k : Nat) (left : List Char) :
    echoText (k + 1) left = echoNext left :: echoText k left.tail := by
  cases left with
  | nil => simp [echoText, echoNext, List.replicate_succ]
  | cons x left => simp [echoText, echoNext]

/-- **Many echoes.** -/
theorem Context.iterate_echo_channel (k : Nat) (c : Context) :
    ((Context.echo r o o' a a')^[k] c).shared.channel =
      { input := c.shared.channel.input.drop k
        output := c.shared.channel.output ++ String.ofList (echoText k c.shared.channel.input)
        lastOutput := ((echoText k c.shared.channel.input).getLast?.map fun x => (x.toNat : Int)).getD
          c.shared.channel.lastOutput } := by
  induction k generalizing c with
  | zero => simp [echoText]
  | succ k ih =>
    have hlast := Option.getD_map (fun x : Char => (x.toNat : Int)) (echoNext c.shared.channel.input)
      (echoText k c.shared.channel.input.tail).getLast?
    rw [Function.iterate_succ_apply, ih, Context.echo_channel, echoText_succ]
    simp only [List.getLast?_cons, List.drop_tail, hlast, String.ofList_cons, String.append_assoc,
      Char.toString_eq_singleton, Option.map_some, Option.getD_some]

/-- The echo is faithful just if the input reaches and nothing is lost in the register. -/
theorem echoText_eq_take_iff (k : Nat) (left : List Char) :
    echoText k left = left.take k ↔ k ≤ left.length ∧ ∀ x ∈ left.take k, x.toNat < 0x100000 := by
  have hmap : (left.take k).map echoed = left.take k ↔ ∀ x ∈ left.take k, x.toNat < 0x100000 := by
    have hsame : (left.take k).map echoed = (left.take k).map id ↔ ∀ x ∈ left.take k, echoed x = id x :=
      List.map_inj_left
    rw [List.map_id] at hsame
    rw [hsame]
    exact forall₂_congr fun x _ => echoed_eq_self_iff x
  rw [← hmap]
  constructor
  · intro h
    have hlength := congrArg List.length h
    simp only [echoText, List.length_append, List.length_map, List.length_replicate] at hlength
    have hk : k ≤ left.length := by omega
    rw [echoText, Nat.sub_eq_zero_of_le hk, List.replicate_zero, List.append_nil] at h
    exact ⟨hk, h⟩
  · rintro ⟨hk, h⟩
    rw [echoText, h, Nat.sub_eq_zero_of_le hk, List.replicate_zero, List.append_nil]

/-- **Character echo.** Let `IN_CHAR` and then `OUT_CHAR` run `k` times on one register, over a fresh
channel.  Each of the first `k` characters of the input is written with its code reduced, or as the
replacement character if that is half of a surrogate pair, and the character zero each time that nothing
was left.  The characters below the last plane, and no others, are echoed as they are. -/
theorem characters_echoed (p : Piston) (s : Shared) (input : List Char) (k : Nat) :
    let fresh : Context := ⟨p, { s with channel := .ofInput input }⟩
    let channel := ((Context.echo r o o' a a')^[k] fresh).shared.channel
    channel.output.toList =
        (input.take k).map echoed ++ List.replicate (k - input.length) (Char.ofNat 0) ∧
      channel.input = input.drop k ∧
      channel.lastOutput = (channel.output.toList.getLast?.map fun x => (x.toNat : Int)).getD 0 ∧
      (∀ x, (echoed x).toNat = if 0xD800 ≤ x.toNat % capacity ∧ x.toNat % capacity ≤ 0xDFFF then 0xFFFD
        else x.toNat % capacity) ∧
      (∀ x, echoed x = x ↔ x.toNat < 0x100000) ∧
      (channel.output.toList = input.take k ↔
        k ≤ input.length ∧ ∀ x ∈ input.take k, x.toNat < 0x100000) := by
  intro fresh channel
  have hchannel : channel = ⟨input.drop k, "" ++ String.ofList (echoText k input),
      ((echoText k input).getLast?.map fun x => (x.toNat : Int)).getD 0⟩ :=
    Context.iterate_echo_channel r o o' a a' k fresh
  have houtput : channel.output.toList = echoText k input := by simp [hchannel]
  refine ⟨houtput, by rw [hchannel], by rw [houtput, hchannel], toNat_echoed, echoed_eq_self_iff, ?_⟩
  rw [houtput, echoText_eq_take_iff]

end

end PistonGrid
