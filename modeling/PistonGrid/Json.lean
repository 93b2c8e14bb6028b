import PistonGrid.Numeral

/-!
# JSON values

The values that JSON texts denote, and their compact texts.

* `Json` — a value. A string whose escapes do not form text (a lone half of a surrogate pair) is
  `string none`; a number with a fraction or an exponent is kept as it was written; objects keep
  their members in order, repeated keys included.
* `Json.compact` — the text of a value without any blanks.
-/

set_option autoImplicit false

namespace PistonGrid

/-- A JSON value. -/
inductive Json where
  | null
  | bool (b : Bool)
  | integer (negative : Bool) (magnitude : Nat)
  | decimal (literal : List Char)
  | string (content : Option String)
  | array (elements : List Json)
  | object (members : List (Option String × Json))

namespace Json

/-- The lower-case hexadecimal digit of a number below sixteen. -/
def hexDigit (n : Nat) : Char := Nat.digitChar n

/-- The written form of one character of a string. -/
def escape (c : Char) : List Char :=
  if c = '"' then ['\\', '"']
  else if c = '\\' then ['\\', '\\']
  else if c = '\n' then ['\\', 'n']
  else if c = '\r' then ['\\', 'r']
  else if c = '\t' then ['\\', 't']
  else if c.toNat = 8 then ['\\', 'b']
  else if c.toNat = 12 then ['\\', 'f']
  else if c.toNat < 32 then
    ['\\', 'u', '0', '0', hexDigit (c.toNat / 16), hexDigit (c.toNat % 16)]
  else [c]

/-- A string in its quotes. The string that is no text is written as half a surrogate pair. -/
def stringChars : Option String → List Char
  | some s => '"' :: s.toList.flatMap escape ++ ['"']
  | none => ['"', '\\', 'u', 'd', '8', '0', '0', '"']

/-- An integer, with its sign in front. -/
def integerChars (negative : Bool) (magnitude : Nat) : List Char :=
  if negative then '-' :: Nat.toDigits 10 magnitude else Nat.toDigits 10 magnitude

mutual

/-- The compact text of a value. -/
def chars : Json → List Char
  | .null => ['n', 'u', 'l', 'l']
  | .bool true => ['t', 'r', 'u', 'e']
  | .bool false => ['f', 'a', 'l', 's', 'e']
  | .integer negative magnitude => integerChars negative magnitude
  | .decimal literal => literal
  | .string content => stringChars content
  | .array elements => '[' :: elementChars elements
  | .object members => '{' :: memberChars members

/-- The elements of an array up to and including its closing bracket. -/
def elementChars : List Json → List Char
  | [] => [']']
  | [v] => v.chars ++ [']']
  | v :: rest => v.chars ++ ',' :: elementChars rest

/-- The members of an object up to and including its closing brace. -/
def memberChars : List (Option String × Json) → List Char
  | [] => ['}']
  | [(key, v)] => stringChars key ++ ':' :: v.chars ++ ['}']
  | (key, v) :: rest => stringChars key ++ ':' :: v.chars ++ ',' :: memberChars rest

end

/-- The compact text of a value. -/
def compact (v : Json) : String := String.ofList v.chars

/-- A natural number as a value. -/
def ofNat (n : Nat) : Json := .integer false n

/-- An integer as a value. -/
def ofInt (n : Int) : Json := .integer (decide (n < 0)) n.natAbs

/-- A text as a value. -/
def ofString (s : String) : Json := .string (some s)

/-- Named fields as a value. -/
def ofFields (fields : List (String × Json)) : Json :=
  .object (fields.map fun (key, v) => (some key, v))

end Json

end PistonGrid
