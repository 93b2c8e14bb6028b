import PistonGrid.Numeral
import PistonGrid.Quoted.CharacterClasses

/-!
# Quoted text

A text between double quotes, written so that every character of it can be seen: characters that show
nothing, or that would merge with their neighbour, are written by their code points.

* `Quoted.escape` — the written form of one character.
* `Quoted.quote` — the whole text with its quotes.
-/

set_option autoImplicit false

namespace PistonGrid.Quoted

/-- A code point in braces, lower-case and without leading zeros. -/
def bracedCode (c : Char) : String :=
  "\\u\x7b" ++ String.ofList (Nat.toDigits 16 c.toNat) ++ "\x7d"

/-- The written form of one character of a quoted text. -/
def escape (c : Char) : String :=
  if c = '"' then "\\\""
  else if c = '\\' then "\\\\"
  else if c = '\n' then "\\n"
  else if c = '\r' then "\\r"
  else if c = '\t' then "\\t"
  else if c.toNat = 0 then "\\0"
  else if isExtending c || isInvisible c then bracedCode c
  else c.toString

/-- A text in double quotes. -/
def quote (s : String) : String := "\"" ++ String.join (s.toList.map escape) ++ "\""

end PistonGrid.Quoted
