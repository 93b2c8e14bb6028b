/-!
# Numbers and their written forms

Coordinates, register contents and memory contents are numbers modulo `capacity` (twenty bits).

* `wrap` — the representative in `[0, capacity)` of an arbitrary integer.
* `accumulate` — the value of a run of digits, reduced modulo `capacity` after every digit, so that
  the running value stays small however long the run is (`accumulate_lt`).
* `decimal`, `signed`, `hex`, `hexPadded` — the written forms used in every output of the library.
-/

set_option autoImplicit false

namespace PistonGrid

/-- Number of values that a coordinate, a register or a memory cell can hold. -/
def capacity : Nat := 1048576

/-- The remainder of `v` modulo `capacity`, never negative. -/
def wrap (v : Int) : Nat := (v % (capacity : Int)).toNat

theorem wrap_lt (v : Int) : wrap v < capacity := by
  unfold wrap capacity
  omega

theorem wrap_natCast (n : Nat) : wrap (n : Int) = n % capacity := by
  unfold wrap capacity
  omega

theorem wrap_of_lt {n : Nat} (h : n < capacity) : wrap (n : Int) = n := by
  rw [wrap_natCast, Nat.mod_eq_of_lt h]

namespace Numeral

/-- The value of a hexadecimal digit in either case, if `c` is one. -/
def hexValue? (c : Char) : Option Nat :=
  if '0' ≤ c ∧ c ≤ '9' then some (c.toNat - '0'.toNat)
  else if 'a' ≤ c ∧ c ≤ 'f' then some (c.toNat - 'a'.toNat + 10)
  else if 'A' ≤ c ∧ c ≤ 'F' then some (c.toNat - 'A'.toNat + 10)
  else none

/-- The value of a decimal digit. -/
def digitValue (c : Char) : Nat := c.toNat - '0'.toNat

/-- Digits read from the most significant one on, reduced modulo `capacity` at every digit. -/
def accumulate (base : Nat) (digits : List Nat) : Nat :=
  digits.foldl (fun acc d => (acc * base + d) % capacity) 0

/-- The value modulo `capacity` of a run of decimal digits; the empty run counts as zero. -/
def ofDecimalDigits (cs : List Char) : Nat := accumulate 10 (cs.map digitValue)

/-- The longest run of hexadecimal digits at the head of a text. -/
def leadingHex : List Char → List Nat
  | [] => []
  | c :: cs =>
    match hexValue? c with
    | some d => d :: leadingHex cs
    | none => []

/-- The value modulo `capacity` of the hexadecimal digits at the head of a text. -/
def ofHexRun (cs : List Char) : Nat := accumulate 16 (leadingHex cs)

theorem accumulate_concat (base : Nat) (ds : List Nat) (d : Nat) :
    accumulate base (ds ++ [d]) = (accumulate base ds * base + d) % capacity := by
  simp [accumulate, List.foldl_append]

theorem accumulate_lt (base : Nat) (ds : List Nat) : accumulate base ds < capacity := by
  rcases List.eq_nil_or_concat ds with rfl | ⟨ds, d, rfl⟩
  · simp [accumulate, capacity]
  · rw [List.concat_eq_append, accumulate_concat]
    exact Nat.mod_lt _ (by decide)

/-- A natural number in decimal digits. -/
def decimal (n : Nat) : String := String.ofList (Nat.toDigits 10 n)

/-- An integer in decimal digits, with a minus sign below zero. -/
def signed (n : Int) : String := if n < 0 then "-" ++ decimal n.natAbs else decimal n.natAbs

/-- Upper-case hexadecimal digits, none of them superfluous. -/
def hexDigits (n : Nat) : List Char := (Nat.toDigits 16 n).map Char.toUpper

/-- A natural number in upper-case hexadecimal digits. -/
def hex (n : Nat) : String := String.ofList (hexDigits n)

/-- A natural number in at least `width` upper-case hexadecimal digits. -/
def hexPadded (width n : Nat) : String := String.ofList ((hexDigits n).leftpad width '0')

end Numeral

end PistonGrid
