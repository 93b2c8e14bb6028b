import Mathlib.Data.List.Forall2
import Mathlib.Data.List.Induction
import Mathlib.Data.Nat.Digits.Defs
import PistonGrid.Numeral

/-!
# Runs of digits

A run of digits is read with a reduction after every digit.  This module says what number comes out, for
runs of any length and in either base, and that the machine words it is computed in are wide enough.

* `accumulate_eq` — reducing after every digit is reducing the whole number once.
* `accumulateWithin` — the same loop in words that hold numbers below a bound, which fails as soon as a
  number does not fit; `accumulateWithin_eq` — it does not fail.
* `HexDigit` — a character writes a hexadecimal digit, in either case; `hexValue?_eq_some_iff`.
* `HexRun` — a text divided behind its longest run of such digits; `HexRun.leadingHex`, `exists_hexRun`.
* `ofDecimalDigits_eq` — what a run of decimal digits is read as; `ofDigits_of_toDigits` — what the digits
  of a number write.
-/

set_option autoImplicit false

namespace PistonGrid.Numeral

/-! ## Reduction after every digit -/

/-- **Reducing after every digit is reducing once.** -/
theorem accumulate_eq (base : Nat) (ds : List Nat) :
    accumulate base ds = Nat.ofDigits base ds.reverse % capacity := by
  induction ds using List.reverseRecOn with
  | nil => rfl
  | append_singleton ds d ih =>
    rw [accumulate_concat, ih, List.reverse_append, List.reverse_singleton, List.singleton_append,
      Nat.ofDigits_cons]
    calc
      (Nat.ofDigits base ds.reverse % capacity * base + d) % capacity
          = (Nat.ofDigits base ds.reverse * base + d) % capacity := by
        rw [Nat.add_mod, Nat.mod_mul_mod, ← Nat.add_mod]
      _ = (d + base * Nat.ofDigits base ds.reverse) % capacity := by rw [Nat.add_comm, Nat.mul_comm]

/-- One more digit in words that hold numbers below `bound`; none if the sum does not fit. -/
def addDigit? (bound base acc d : Nat) : Option Nat :=
  if acc * base + d < bound then some ((acc * base + d) % capacity) else none

/-- `accumulate` in words that hold numbers below `bound`; none if any number on the way does not fit. -/
def accumulateWithin (bound base : Nat) (digits : List Nat) : Option Nat :=
  digits.foldlM (addDigit? bound base) 0

/-- **Nothing overflows**: what is carried from digit to digit stays below `capacity`, so words with room
for one more digit are wide enough for runs of any length. -/
theorem accumulateWithin_eq {bound base : Nat} (hbound : capacity * base ≤ bound) {ds : List Nat}
    (hds : ∀ d ∈ ds, d < base) : accumulateWithin bound base ds = some (accumulate base ds) := by
  induction ds using List.reverseRecOn with
  | nil => rfl
  | append_singleton ds d ih =>
    obtain ⟨hfront, hd⟩ := List.forall_mem_append.mp hds
    have hfits : accumulate base ds * base + d < bound := by
      have hcarry : (accumulate base ds + 1) * base ≤ capacity * base :=
        Nat.mul_le_mul_right base (accumulate_lt base ds)
      have hlast : d < base := hd d List.mem_cons_self
      rw [Nat.add_mul] at hcarry
      omega
    have hbefore : ds.foldlM (addDigit? bound base) 0 = some (accumulate base ds) := ih hfront
    rw [accumulateWithin, List.foldlM_append, hbefore, accumulate_concat]
    simp [addDigit?, hfits]

/-! ## Decimal digits -/

theorem digitValue_lt {c : Char} (h : c.isDigit = true) : digitValue c < 10 := by
  simp only [Char.isDigit, Bool.and_eq_true, decide_eq_true_eq, ge_iff_le, UInt32.le_iff_toNat_le] at h
  have hhigh : c.toNat ≤ 57 := h.2
  show c.toNat - 48 < 10
  omega

/-- A run of decimal digits is read as the number it writes. -/
theorem ofDecimalDigits_eq (cs : List Char) :
    ofDecimalDigits cs = Nat.ofDigitChars 10 cs 0 % capacity := by
  have hvalue : Nat.ofDigits 10 (cs.map digitValue).reverse = Nat.ofDigitChars 10 cs 0 := by
    induction cs using List.reverseRecOn with
    | nil => rfl
    | append_singleton cs c ih =>
      rw [Nat.ofDigitChars_append, ← ih]
      simp [Nat.ofDigits_cons, Nat.ofDigitChars_cons, digitValue, Nat.add_comm]
  rw [ofDecimalDigits, accumulate_eq, hvalue]

/-! ## Hexadecimal digits -/

/-- A character writes a hexadecimal digit, in lower or in upper case. -/
def HexDigit (c : Char) (d : Nat) : Prop := d < 16 ∧ c.toLower = d.digitChar

theorem toLower_cases (c : Char) :
    (65 ≤ c.toNat ∧ c.toNat ≤ 90 ∧ c.toLower.toNat = c.toNat + 32) ∨
      (¬ (65 ≤ c.toNat ∧ c.toNat ≤ 90) ∧ c.toLower.toNat = c.toNat) := by
  have hupper : (c.val ≥ 'A'.val ∧ c.val ≤ 'Z'.val) ↔ 65 ≤ c.toNat ∧ c.toNat ≤ 90 := by
    simp only [ge_iff_le, UInt32.le_iff_toNat_le]
    rfl
  unfold Char.toLower
  simp only [hupper]
  split
  · rename_i h
    refine .inl ⟨h.1, h.2, ?_⟩
    have hsum : (c.val + 32).toNat = (c.toNat + 32) % 4294967296 := UInt32.toNat_add ..
    exact hsum.trans (Nat.mod_eq_of_lt (by omega))
  · exact .inr ⟨‹_›, rfl⟩

theorem digitChar_cases : ∀ d < 16, (d < 10 ∧ d.digitChar.toNat = 48 + d) ∨
    (10 ≤ d ∧ d.digitChar.toNat = 87 + d) := by
  decide

/-- The table of digit values knows exactly the hexadecimal digits. -/
theorem hexValue?_eq_some_iff {c : Char} {d : Nat} : hexValue? c = some d ↔ HexDigit c d := by
  have hle : ∀ {a b : Char}, a ≤ b ↔ a.toNat ≤ b.toNat := fun {a b} => by
    rw [Char.le_def, UInt32.le_iff_toNat_le]
    rfl
  have hlower := toLower_cases c
  have hdigit : d < 16 → _ := digitChar_cases d
  rw [HexDigit, ← Char.toNat_inj, hexValue?]
  simp only [hle, show '0'.toNat = 48 from rfl, show '9'.toNat = 57 from rfl, show 'a'.toNat = 97 from rfl,
    show 'f'.toNat = 102 from rfl, show 'A'.toNat = 65 from rfl, show 'F'.toNat = 70 from rfl]
  split
  · simp only [Option.some.injEq]
    omega
  split
  · simp only [Option.some.injEq]
    omega
  split
  · simp only [Option.some.injEq]
    omega
  · simp only [reduceCtorEq, false_iff]
    omega

/-- A text divided behind the longest run of hexadecimal digits at its head. -/
structure HexRun (text run rest : List Char) (ds : List Nat) : Prop where
  split : text = run ++ rest
  digits : List.Forall₂ HexDigit run ds
  longest : ∀ c ∈ rest.head?, ∀ d, ¬ HexDigit c d

theorem HexRun.leadingHex {text run rest : List Char} {ds : List Nat} (h : HexRun text run rest ds) :
    leadingHex text = ds := by
  obtain ⟨rfl, hdigits, hlongest⟩ := h
  induction hdigits with
  | nil =>
    cases rest with
    | nil => rfl
    | cons c rest =>
      have hc : hexValue? c = none := by
        rw [Option.eq_none_iff_forall_ne_some]
        exact fun d hd => hlongest c rfl d (hexValue?_eq_some_iff.mp hd)
      simp [Numeral.leadingHex, hc]
  | cons hc _ ih => simp [Numeral.leadingHex, hexValue?_eq_some_iff.mpr hc, ih]

/-- Every text has such a division, behind the digits that are read. -/
theorem exists_hexRun (text : List Char) : ∃ run rest, HexRun text run rest (leadingHex text) := by
  induction text with
  | nil => exact ⟨[], [], rfl, .nil, by simp⟩
  | cons c text ih =>
    cases hc : hexValue? c with
    | none =>
      refine ⟨[], c :: text, rfl, by simp [leadingHex, hc], ?_⟩
      intro c' hc' d hd
      cases hc'
      rw [hexValue?_eq_some_iff.mpr hd] at hc
      cases hc
    | some d =>
      obtain ⟨run, rest, hsplit, hdigits, hlongest⟩ := ih
      refine ⟨c :: run, rest, by rw [hsplit, List.cons_append], ?_, hlongest⟩
      simpa [leadingHex, hc] using ⟨hexValue?_eq_some_iff.mp hc, hdigits⟩

theorem leadingHex_lt (text : List Char) : ∀ d ∈ leadingHex text, d < 16 := by
  induction text with
  | nil => simp [leadingHex]
  | cons c text ih =>
    cases hc : hexValue? c with
    | none => simp [leadingHex, hc]
    | some d => simpa [leadingHex, hc] using ⟨(hexValue?_eq_some_iff.mp hc).1, ih⟩

/-! ## Written numbers -/

/-- The written form of a number, digit by digit. -/
theorem exists_digits (n : Nat) : ∃ ds : List Nat, (∀ d ∈ ds, d < 16) ∧
    Nat.toDigits 16 n = ds.map Nat.digitChar ∧ Nat.ofDigits 16 ds.reverse = n := by
  induction n using Nat.strongRecOn with
  | ind n ih =>
    by_cases hlt : n < 16
    · exact ⟨[n], by simpa using hlt, Nat.toDigits_of_lt_base hlt, by simp⟩
    · obtain ⟨ds, hds, hchars, hvalue⟩ := ih (n / 16) (by omega)
      refine ⟨ds ++ [n % 16], List.forall_mem_append.mpr ⟨hds, ?_⟩, ?_, ?_⟩
      · simpa using Nat.mod_lt n (by decide)
      · rw [Nat.toDigits_of_base_le (by decide) (by omega), hchars, List.map_append, List.map_singleton]
      · rw [List.reverse_append, List.reverse_singleton, List.singleton_append, Nat.ofDigits_cons, hvalue]
        omega

/-- The hexadecimal digits of a number, each in either case, write that number. -/
theorem ofDigits_of_toDigits {n : Nat} {cs : List Char} (h : cs.map Char.toLower = Nat.toDigits 16 n) :
    ∃ ds, List.Forall₂ HexDigit cs ds ∧ Nat.ofDigits 16 ds.reverse = n := by
  obtain ⟨ds, hds, hchars, hvalue⟩ := exists_digits n
  refine ⟨ds, ?_, hvalue⟩
  rw [hchars] at h
  clear hchars hvalue
  induction ds generalizing cs with
  | nil =>
    rw [List.map_eq_nil_iff.mp h]
    exact .nil
  | cons d ds ih =>
    obtain ⟨hd, hds⟩ := List.forall_mem_cons.mp hds
    obtain ⟨c, cs, rfl, hc, hcs⟩ := List.map_eq_cons_iff.mp h
    exact .cons ⟨hd, hc⟩ (ih hcs hds)

/-- Lower-case digits are their own lower-case form. -/
theorem map_toLower_toDigits (n : Nat) :
    (Nat.toDigits 16 n).map Char.toLower = Nat.toDigits 16 n := by
  have hlower : ∀ d < 16, d.digitChar.toLower = d.digitChar := by decide
  obtain ⟨ds, hds, hchars, _⟩ := exists_digits n
  rw [hchars, List.map_map]
  exact List.map_congr_left fun d hd => hlower d (hds d hd)

/-- Upper-case digits differ from lower-case ones in nothing else. -/
theorem map_toLower_hexDigits (n : Nat) : (hexDigits n).map Char.toLower = Nat.toDigits 16 n := by
  have hupper : ∀ d < 16, d.digitChar.toUpper.toLower = d.digitChar := by decide
  obtain ⟨ds, hds, hchars, _⟩ := exists_digits n
  rw [hexDigits, hchars, List.map_map, List.map_map]
  exact List.map_congr_left fun d hd => hupper d (hds d hd)

end PistonGrid.Numeral
