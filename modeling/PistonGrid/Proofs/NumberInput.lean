import PistonGrid.Proofs.DigitRuns
import PistonGrid.Proofs.Wrapping

/-!
# Number input

A number is read from the decimal digits at the head of the input, however many there are, and what is
written as a number is read back.

* `DigitRun` — a text divided behind its longest run of decimal digits, in one way only
  (`DigitRun.takeWhile_eq`, `DigitRun.dropWhile_eq`).
* `DigitRun.grabNumber` — a read takes the run and gives the number it writes, reduced.
* `DigitRun.decimal` — the written form of a number is such a run, if no digit follows it.
-/

set_option autoImplicit false

namespace PistonGrid

open Numeral

/-- A text divided behind the longest run of decimal digits at its head. -/
structure DigitRun (text run rest : List Char) : Prop where
  split : text = run ++ rest
  digits : ∀ c ∈ run, c.isDigit = true
  longest : ∀ c ∈ rest.head?, c.isDigit = false

namespace DigitRun

variable {text run rest : List Char}

/-- Every text has such a division. -/
theorem of_text (text : List Char) :
    DigitRun text (text.takeWhile Char.isDigit) (text.dropWhile Char.isDigit) := by
  refine ⟨List.takeWhile_append_dropWhile.symm, List.all_eq_true.mp List.all_takeWhile, ?_⟩
  intro c hc
  have hhead := List.head?_dropWhile_not Char.isDigit text
  rw [hc] at hhead
  exact hhead

theorem takeWhile_eq (h : DigitRun text run rest) : text.takeWhile Char.isDigit = run := by
  have hstop : rest.takeWhile Char.isDigit = [] := by
    cases rest with
    | nil => rfl
    | cons c rest => simp [h.longest c rfl]
  rw [h.split, List.takeWhile_append_of_pos h.digits, hstop, List.append_nil]

theorem dropWhile_eq (h : DigitRun text run rest) : text.dropWhile Char.isDigit = rest := by
  rw [h.split, List.dropWhile_append_of_pos h.digits]
  cases rest with
  | nil => rfl
  | cons c rest => simp [h.longest c rfl]

/-- **A read takes the run** and gives the number it writes, reduced. -/
theorem grabNumber {c : Channel} (h : DigitRun c.input run rest) :
    c.grabNumber = (Nat.ofDigitChars 10 run 0 % capacity, { c with input := rest }) := by
  rw [Channel.grabNumber, Channel.numberPiece, h.takeWhile_eq, h.dropWhile_eq, ofDecimalDigits_eq]

/-- No number on the way to the value of a run exceeds a word of 64 bits. -/
theorem within (h : DigitRun text run rest) :
    accumulateWithin UInt64.size 10 (run.map digitValue) = some (ofDecimalDigits run) := by
  refine accumulateWithin_eq (by decide) fun d hd => ?_
  obtain ⟨c, hc, rfl⟩ := List.mem_map.mp hd
  exact digitValue_lt (h.digits c hc)

/-- The written form of a number is a run of digits, if no digit follows it. -/
theorem decimal (n : Nat) (hrest : ∀ c ∈ rest.head?, c.isDigit = false) :
    DigitRun (Nat.toDigits 10 n ++ rest) (Nat.toDigits 10 n) rest :=
  ⟨rfl, fun _ hc => Nat.isDigit_of_mem_toDigits (by decide) (by decide) hc, hrest⟩

/-- A text that begins with another character has an empty run. -/
theorem none {c : Char} (hc : c.isDigit = false) (rest : List Char) :
    DigitRun (c :: rest) [] (c :: rest) :=
  ⟨rfl, by simp, by simpa using hc⟩

end DigitRun

/-! ## What was written -/

theorem Numeral.toList_signed_natCast (n : Nat) : (signed n).toList = Nat.toDigits 10 n := by
  have hneg : ¬ (n : Int) < 0 := by omega
  simp [signed, hneg, decimal]

/-- A number below zero begins with its sign. -/
theorem Numeral.toList_signed_of_neg {n : Int} (hn : n < 0) :
    (signed n).toList = '-' :: Nat.toDigits 10 n.natAbs := by
  simp [signed, hn, decimal]

namespace Channel

variable {c : Channel} {text : String} {rest : List Char}

/-- What a number adds to the output is its written form. -/
theorem eq_signed_of_write {w : Channel} {n : Int}
    (h : (w.write (.number n)).output = w.output ++ text) : text = signed n :=
  ((String.append_right_inj w.output).mp h).symm

theorem grabNumber_signed_natCast {n : Nat} (hinput : c.input = (signed n).toList ++ rest)
    (hrest : ∀ x ∈ rest.head?, x.isDigit = false) :
    c.grabNumber = (n % capacity, { c with input := rest }) := by
  have hrun : DigitRun c.input (Nat.toDigits 10 n) rest := by
    rw [hinput, toList_signed_natCast]
    exact .decimal n hrest
  rw [hrun.grabNumber, Nat.ofDigitChars_ten_toDigits]

theorem grabNumber_signed_of_neg {n : Int} (hn : n < 0) (hinput : c.input = (signed n).toList ++ rest) :
    c.grabNumber = (0, c) := by
  have hrun : DigitRun c.input [] c.input := by
    rw [hinput, toList_signed_of_neg hn]
    exact .none (by decide) _
  rw [hrun.grabNumber]
  rfl

end Channel

/-! ## Registers -/

/-- `OUT_NUMBER` writes the contents of its register. -/
theorem Catalog.outNumber_channel (c : Context) (r : Register) (o : RegisterOptions) (a : Nat) :
    ((outNumber.script (.register r o a)).run c).context.shared.channel =
      c.shared.channel.write (.number (c.piston.register r)) := rfl

/-- `IN_NUMBER` puts what it reads into its register. -/
theorem Catalog.inNumber_context (c : Context) (r : Register) (o : RegisterOptions) (a : Nat) :
    let after := ((inNumber.script (.register r o a)).run c).context
    after.piston.register r = wrap c.shared.channel.grabNumber.1 ∧
      after.shared.channel = c.shared.channel.grabNumber.2 := by
  refine ⟨?_, rfl⟩
  have hset := Piston.register_setRegister c.piston r c.shared.channel.grabNumber.1 o r
  rwa [if_pos rfl] at hset

/-- **Number input undoes number output.** A read takes the longest run of decimal digits at the head of
the input and gives the number that it writes, reduced, without exceeding a word of 64 bits on the way.
So a number that was written comes back, reduced, if no digit follows it, and `IN_NUMBER` restores in
any register what `OUT_NUMBER` has written of one. -/
theorem number_input_undoes_output :
    (∀ text : List Char, ∃ run rest, DigitRun text run rest) ∧
    (∀ (c : Channel) (run rest : List Char), DigitRun c.input run rest →
      c.grabNumber = (Nat.ofDigitChars 10 run 0 % capacity, { c with input := rest }) ∧
      (run = [] → c.grabNumber = (0, c)) ∧
      accumulateWithin UInt64.size 10 (run.map digitValue) = some c.grabNumber.1) ∧
    (∀ (w : Channel) (n : Int) (text : String), (w.write (.number n)).output = w.output ++ text →
      ∀ (c : Channel) (rest : List Char), c.input = text.toList ++ rest →
        (0 ≤ n → (∀ x ∈ rest.head?, x.isDigit = false) →
          c.grabNumber = (n.toNat % capacity, { c with input := rest })) ∧
        (n < 0 → c.grabNumber = (0, c))) ∧
    (∀ (before : Context) (r : Register) (o : RegisterOptions) (a : Nat) (text : String),
      before.piston.register r < capacity →
      ((Catalog.outNumber.script (.register r o a)).run before).context.shared.channel.output =
        before.shared.channel.output ++ text →
      ∀ (c : Context) (r' : Register) (o' : RegisterOptions) (a' : Nat) (rest : List Char),
        c.shared.channel.input = text.toList ++ rest → (∀ x ∈ rest.head?, x.isDigit = false) →
        let after := ((Catalog.inNumber.script (.register r' o' a')).run c).context
        after.piston.register r' = before.piston.register r ∧ after.shared.channel.input = rest) := by
  refine ⟨fun text => ⟨_, _, .of_text text⟩, ?_, ?_, ?_⟩
  · intro c run rest h
    refine ⟨h.grabNumber, ?_, ?_⟩
    · rintro rfl
      have hrest : rest = c.input := h.split.symm
      rw [h.grabNumber, hrest]
      rfl
    · rw [h.within, h.grabNumber, ofDecimalDigits_eq]
  · intro w n text hwritten c rest hinput
    rw [Channel.eq_signed_of_write hwritten] at hinput
    refine ⟨fun hn hrest => ?_, fun hn => Channel.grabNumber_signed_of_neg hn hinput⟩
    obtain ⟨m, rfl⟩ := Int.eq_ofNat_of_zero_le hn
    exact Channel.grabNumber_signed_natCast hinput hrest
  · intro before r o a text hsmall hwritten c r' o' a' rest hinput hrest
    rw [Catalog.outNumber_channel] at hwritten
    rw [Channel.eq_signed_of_write hwritten] at hinput
    have hgrab := Channel.grabNumber_signed_natCast hinput hrest
    obtain ⟨hregister, hchannel⟩ := Catalog.inNumber_context c r' o' a'
    refine ⟨?_, by rw [hchannel, hgrab]⟩
    rw [hregister, hgrab, Nat.mod_eq_of_lt hsmall, wrap_of_lt hsmall]

/-- A piston whose first register is full, and an input to read from. -/
def fullRegister (input : List Char) : Context where
  piston := (Piston.spawn 0 0 0 .right).setRegister (.ofBits 0) 1048575 .none
  shared := .fresh input

/-- A run that no word holds ends at a digit of another script; a sign stops a read; and the largest
contents of a register come back, as a blank keeps the next digit away. -/
theorem number_input_undoes_output_edges :
    (Channel.ofInput "18446744073709551617٣".toList).grabNumber = (1, .ofInput ['٣']) ∧
      (Channel.ofInput "-72".toList).grabNumber = (0, .ofInput "-72".toList) ∧
      ((Catalog.inNumber.script (.register (.ofBits 5) .none 0)).run
        (fullRegister "1048575 9".toList)).context.piston.register (.ofBits 5) = 1048575 := by
  obtain ⟨_, hread, hback, hregister⟩ := number_input_undoes_output
  refine ⟨?_, ?_, ?_⟩
  · have hrun : DigitRun "18446744073709551617٣".toList "18446744073709551617".toList ['٣'] :=
      ⟨by decide, List.all_eq_true.mp (by decide), by simp⟩
    exact (hread (.ofInput "18446744073709551617٣".toList) _ _ hrun).1
  · have hinput := hback (.ofInput []) (-7) "-7" (by decide) (.ofInput "-72".toList) ['2'] (by decide)
    exact hinput.2 (by decide)
  · exact (hregister (fullRegister []) (.ofBits 0) .none 0 "1048575" (by decide) (by decide)
      (fullRegister "1048575 9".toList) (.ofBits 5) .none 0 [' ', '9'] (by decide) (by simp)).1

end PistonGrid
