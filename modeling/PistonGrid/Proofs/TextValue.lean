import PistonGrid.Channel
import PistonGrid.Proofs.DigitRuns

/-!
# The value of an output text

Every text that is written has a value, the last output.  A text whose second character is an `x` is taken
for a hexadecimal literal, though only a zero in front of the `x` makes it one; any other text counts as its
first character.

* `TextReads` — which number a text stands for, case by case.
* `TextReads.textValue_eq`, `textReads_textValue` — a text has the value that it stands for, and no other.
* `TextReads.le` — no text exceeds the last code point.
* `TextReads.hex` — a hexadecimal literal stands for its number, reduced, in whatever case it is written.
-/

set_option autoImplicit false

namespace PistonGrid

open Numeral

/-- A text stands for a number. -/
inductive TextReads : List Char → Nat → Prop where
  /-- Nothing stands for zero. -/
  | empty : TextReads [] 0
  /-- Behind `0x` all hexadecimal digits count, up to the first character that is none. -/
  | literal {text run rest : List Char} {ds : List Nat} (h : HexRun text run rest ds) :
      TextReads ('0' :: 'x' :: text) (Nat.ofDigits 16 ds.reverse % capacity)
  /-- Another digit in front of the `x` counts alone: the `x` ends the run. -/
  | digit {first : Char} {d : Nat} (rest : List Char) (hzero : first ≠ '0') (hd : HexDigit first d) :
      TextReads (first :: 'x' :: rest) d
  /-- A character in front of the `x` that is no digit leaves nothing to read. -/
  | noDigit {first : Char} (rest : List Char) (hnone : ∀ d, ¬ HexDigit first d) :
      TextReads (first :: 'x' :: rest) 0
  /-- Any other text stands for the code point of its first character. -/
  | character {first : Char} {rest : List Char} (hx : rest.head? ≠ some 'x') :
      TextReads (first :: rest) first.toNat

namespace TextReads

open OutputItem

/-! ## The value of each kind of text -/

theorem ofHexRun_eq {text run rest : List Char} {ds : List Nat} (h : HexRun text run rest ds) :
    ofHexRun text = Nat.ofDigits 16 ds.reverse % capacity := by
  rw [ofHexRun, h.leadingHex, accumulate_eq]

theorem not_hexDigit_x (d : Nat) : ¬ HexDigit 'x' d := by
  have hnone : hexValue? 'x' = none := by decide
  simp [← hexValue?_eq_some_iff, hnone]

theorem textValue_x {first : Char} (hzero : first ≠ '0') (rest : List Char) :
    textValue (first :: 'x' :: rest) = ofHexRun (first :: 'x' :: rest) := by
  rw [textValue]
  exact hzero

theorem textValue_character {first : Char} {rest : List Char} (hx : rest.head? ≠ some 'x') :
    textValue (first :: rest) = first.toNat := by
  have hsecond : ∀ u, rest ≠ 'x' :: u := by
    rintro u rfl
    exact hx rfl
  rw [textValue]
  · exact fun u _ => hsecond u
  · exact hsecond

/-- **A text has the value that it stands for.** -/
theorem textValue_eq {cs : List Char} {n : Nat} (h : TextReads cs n) : textValue cs = n := by
  cases h with
  | empty => rfl
  | literal h => exact ofHexRun_eq h
  | @digit first _ rest hzero hd =>
    have hrun : HexRun (first :: 'x' :: rest) [first] ('x' :: rest) [n] :=
      ⟨rfl, .cons hd .nil, by simpa using not_hexDigit_x⟩
    have hsmall : n < capacity := hd.1.trans (by decide)
    rw [textValue_x hzero, ofHexRun_eq hrun]
    simpa using Nat.mod_eq_of_lt hsmall
  | @noDigit first rest hnone =>
    have hzero : first ≠ '0' := by
      rintro rfl
      exact hnone 0 ⟨by decide, by decide⟩
    have hrun : HexRun (first :: 'x' :: rest) [] (first :: 'x' :: rest) [] :=
      ⟨rfl, .nil, by simpa using hnone⟩
    rw [textValue_x hzero, ofHexRun_eq hrun]
    rfl
  | character hx => exact textValue_character hx

/-- **Every text stands for its value**: the cases leave out no text. -/
theorem textReads_textValue (cs : List Char) : TextReads cs (textValue cs) := by
  obtain ⟨n, h⟩ : ∃ n, TextReads cs n := by
    match cs with
    | [] => exact ⟨0, .empty⟩
    | first :: rest =>
      by_cases hx : rest.head? = some 'x'
      · obtain ⟨rest, rfl⟩ := List.head?_eq_some_iff.mp hx
        by_cases hzero : first = '0'
        · subst hzero
          obtain ⟨run, rest, hrun⟩ := exists_hexRun rest
          exact ⟨_, .literal hrun⟩
        · by_cases hd : ∃ d, HexDigit first d
          · obtain ⟨d, hd⟩ := hd
            exact ⟨d, .digit rest hzero hd⟩
          · exact ⟨0, .noDigit rest (not_exists.mp hd)⟩
      · exact ⟨first.toNat, .character hx⟩
  rwa [h.textValue_eq]

theorem le {cs : List Char} {n : Nat} (h : TextReads cs n) : n ≤ 0x10FFFF := by
  cases h with
  | empty => decide
  | literal h => exact (Nat.mod_lt _ (by decide)).le.trans (by decide)
  | digit rest hzero hd => exact hd.1.le.trans (by decide)
  | noDigit rest hnone => decide
  | @character first rest hx =>
    have hvalid : first.toNat < 0xD800 ∨ (0xDFFF < first.toNat ∧ first.toNat < 0x110000) := first.valid
    omega

/-- The hexadecimal digits of a number behind `0x`, each of them in either case. -/
theorem hex {n : Nat} {cs : List Char} (h : cs.map Char.toLower = Nat.toDigits 16 n) :
    TextReads ('0' :: 'x' :: cs) (n % capacity) := by
  obtain ⟨ds, hds, hvalue⟩ := ofDigits_of_toDigits h
  have hrun : HexRun cs cs [] ds := ⟨(List.append_nil cs).symm, hds, by simp⟩
  rw [← hvalue]
  exact .literal hrun

end TextReads

theorem OutputItem.value_text (cs : List Char) :
    (OutputItem.text (String.ofList cs)).value = (textValue cs : Int) := by
  rw [value, String.toList_ofList]

/-- **The value of a text** is the one that it stands for, case by case: the number of a hexadecimal
literal, reduced; the digit in front of an `x`; otherwise the first code point.  It lies between zero
and the last code point, and no number on the way exceeds a signed word of 64 bits.  A literal reads
back as its number, reduced, whatever the case of each digit. -/
theorem text_value_read_off :
    (∀ (t : String) (n : Nat), (OutputItem.text t).value = n ↔ TextReads t.toList n) ∧
    (∀ t : String, 0 ≤ (OutputItem.text t).value ∧ (OutputItem.text t).value ≤ 0x10FFFF) ∧
    (∀ cs : List Char, accumulateWithin 9223372036854775808 16 (leadingHex cs) = some (ofHexRun cs)) ∧
    (∀ (n : Nat) (cs : List Char), cs.map Char.toLower = Nat.toDigits 16 n →
      (OutputItem.text (String.ofList ('0' :: 'x' :: cs))).value = (n % capacity : Nat)) ∧
    ∀ n : Nat,
      (OutputItem.text (String.ofList ('0' :: 'x' :: Nat.toDigits 16 n))).value = (n % capacity : Nat) ∧
      (OutputItem.text (String.ofList ('0' :: 'x' :: hexDigits n))).value = (n % capacity : Nat) := by
  have hliteral : ∀ (n : Nat) (cs : List Char), cs.map Char.toLower = Nat.toDigits 16 n →
      (OutputItem.text (String.ofList ('0' :: 'x' :: cs))).value = (n % capacity : Nat) := by
    intro n cs h
    rw [OutputItem.value_text, (TextReads.hex h).textValue_eq]
  refine ⟨?_, ?_, ?_, hliteral, fun n => ⟨?_, ?_⟩⟩
  · intro t n
    rw [OutputItem.value, Int.natCast_inj]
    refine ⟨?_, TextReads.textValue_eq⟩
    rintro rfl
    exact .textReads_textValue t.toList
  · intro t
    exact ⟨Int.natCast_nonneg _, Int.ofNat_le.mpr (TextReads.textReads_textValue t.toList).le⟩
  · exact fun cs => accumulateWithin_eq (by decide) (leadingHex_lt cs)
  · exact hliteral n _ (map_toLower_toDigits n)
  · exact hliteral n _ (map_toLower_hexDigits n)

/-- Twenty digits in mixed case, more than a word of 64 bits holds: the last five of them are left. -/
theorem text_value_read_off_mixedCase :
    let cs := "1234567890abDeadBEEF".toList
    cs.map Char.toLower = Nat.toDigits 16 0x1234567890ABDEADBEEF ∧
      (OutputItem.text (String.ofList ('0' :: 'x' :: cs))).value = 0xDBEEF := by
  intro cs
  have hdigits : cs.map Char.toLower = Nat.toDigits 16 0x1234567890ABDEADBEEF := by decide
  exact ⟨hdigits, text_value_read_off.2.2.2.1 0x1234567890ABDEADBEEF cs hdigits⟩

end PistonGrid
