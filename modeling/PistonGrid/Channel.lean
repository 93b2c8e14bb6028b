import PistonGrid.Numeral

/-!
# The text channel

One channel is shared by all pistons. Input is consumed from the front; reading past its end is no
error and gives zero. Output is appended, and the value of the item written last is remembered.

* `OutputItem.value` — the number that an item stands for: a text that looks like a hexadecimal
  literal is read as one, any other text counts as its first character.
* `Channel.grabNumber`, `Channel.grabChar`, `Channel.write` — the three operations.
* `Channel.numberPiece`, `Channel.charPiece` — the part of the input that the next read would take;
  `numberPiece_append`, `charPiece_append`: nothing else is lost.
* `Channel.grabChar_output`, `Channel.grabChar_lastOutput` — reading leaves the output alone.
-/

set_option autoImplicit false

namespace PistonGrid

/-- Something written to the output. -/
inductive OutputItem where
  | number (n : Int)
  | text (s : String)
deriving DecidableEq, Repr

namespace OutputItem

/-- The value of a text: hexadecimal if its second character is an `x` (after a leading zero the
digits start behind the `x`), otherwise the code point of its first character. -/
def textValue : List Char → Nat
  | [] => 0
  | '0' :: 'x' :: rest => Numeral.ofHexRun rest
  | first :: 'x' :: rest => Numeral.ofHexRun (first :: 'x' :: rest)
  | first :: _ => first.toNat

/-- The number that an item stands for. -/
def value : OutputItem → Int
  | .number n => n
  | .text s => (textValue s.toList : Nat)

/-- The characters that an item adds to the output. -/
def display : OutputItem → String
  | .number n => Numeral.signed n
  | .text s => s

/-- The item that writes one character. -/
def ofChar (c : Char) : OutputItem := .text c.toString

end OutputItem

/-- The character of a code point, the replacement character where there is none. -/
def charOfCode (n : Nat) : Char := if n.isValidChar then Char.ofNat n else Char.ofNat 0xFFFD

/-- Unread input, written output and the value of the last item written. -/
structure Channel where
  input : List Char
  output : String := ""
  lastOutput : Int := 0
deriving DecidableEq, Repr

namespace Channel

/-- A fresh channel over an input text. -/
def ofInput (input : List Char) : Channel := { input }

/-- The decimal digits at the head of the input. -/
def numberPiece (c : Channel) : List Char := c.input.takeWhile Char.isDigit

/-- The first character of the input, if there is one. -/
def charPiece (c : Channel) : List Char := c.input.take 1

/-- Take the decimal digits at the head of the input; none read as zero. -/
def grabNumber (c : Channel) : Nat × Channel :=
  (Numeral.ofDecimalDigits c.numberPiece, { c with input := c.input.dropWhile Char.isDigit })

/-- Take one character's code point, zero when the input is exhausted. -/
def grabChar (c : Channel) : Nat × Channel :=
  match c.input with
  | [] => (0, c)
  | first :: rest => (first.toNat, { c with input := rest })

/-- Append an item to the output. -/
def write (c : Channel) (item : OutputItem) : Channel :=
  { c with output := c.output ++ item.display, lastOutput := item.value }

theorem numberPiece_append (c : Channel) : c.numberPiece ++ c.grabNumber.2.input = c.input :=
  List.takeWhile_append_dropWhile

theorem charPiece_append (c : Channel) : c.charPiece ++ c.grabChar.2.input = c.input := by
  unfold charPiece grabChar
  split <;> simp_all

theorem grabChar_output (c : Channel) : c.grabChar.2.output = c.output := by
  unfold grabChar
  split <;> rfl

theorem grabChar_lastOutput (c : Channel) : c.grabChar.2.lastOutput = c.lastOutput := by
  unfold grabChar
  split <;> rfl

end Channel

end PistonGrid
