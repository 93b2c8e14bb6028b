import PistonGrid.Json

/-!
# Reading JSON

A strict reader: blanks are the space, the tab and the two line ends; there are no comments and no
trailing commas; numbers have no superfluous zeros; control characters must be escaped in strings.

* `scanString` — the code units of a string up to its closing quote. Every `\u` escape is one unit.
* `joinUnits` — the text of code units, if the halves of surrogate pairs all meet.
* `readValue` — a value at the head of a text, with the rest. The fuel bounds the depth of the calls;
  of two nested calls at least one consumes a character, so twice the length of the text is enough.
* `Json.parse` — the value of a whole text.
-/

set_option autoImplicit false

namespace PistonGrid.Json

/-- The characters that may stand between the parts of a text. -/
def isBlank (c : Char) : Bool := c = ' ' || c = '\t' || c = '\n' || c = '\r'

/-- A text without the blanks at its head. -/
def skipBlanks (cs : List Char) : List Char := cs.dropWhile isBlank

/-- The character that a one-letter escape stands for. -/
def simpleEscape? (c : Char) : Option Char :=
  if c = '"' then some '"'
  else if c = '\\' then some '\\'
  else if c = '/' then some '/'
  else if c = 'n' then some '\n'
  else if c = 'r' then some '\r'
  else if c = 't' then some '\t'
  else if c = 'b' then some (Char.ofNat 8)
  else if c = 'f' then some (Char.ofNat 12)
  else none

/-- The number written by four hexadecimal digits. -/
def hexQuad? (a b c d : Char) : Option Nat :=
  match Numeral.hexValue? a, Numeral.hexValue? b, Numeral.hexValue? c, Numeral.hexValue? d with
  | some a, some b, some c, some d => some (a * 4096 + b * 256 + c * 16 + d)
  | _, _, _, _ => none

/-- The code units of a string up to its closing quote, and the rest of the text. -/
def scanString : List Char → Option (List Nat × List Char)
  | [] => none
  | '"' :: rest => some ([], rest)
  | '\\' :: 'u' :: a :: b :: c :: d :: rest =>
    match hexQuad? a b c d with
    | none => none
    | some unit => (scanString rest).map fun (units, rest) => (unit :: units, rest)
  | '\\' :: k :: rest =>
    match simpleEscape? k with
    | none => none
    | some c => (scanString rest).map fun (units, rest) => (c.toNat :: units, rest)
  | c :: rest =>
    if c = '\\' || c.toNat < 32 then none
    else (scanString rest).map fun (units, rest) => (c.toNat :: units, rest)

/-- The first half of a surrogate pair. -/
def isHighHalf (unit : Nat) : Bool := 0xD800 ≤ unit && unit < 0xDC00

/-- The second half of a surrogate pair. -/
def isLowHalf (unit : Nat) : Bool := 0xDC00 ≤ unit && unit < 0xE000

/-- The character of a surrogate pair. -/
def joinHalves (high low : Nat) : Char :=
  Char.ofNat (0x10000 + (high - 0xD800) * 0x400 + (low - 0xDC00))

/-- The text of code units; none if half of a surrogate pair stands alone. -/
def joinUnits : List Nat → Option (List Char)
  | [] => some []
  | [unit] => if isHighHalf unit || isLowHalf unit then none else some [Char.ofNat unit]
  | unit :: next :: rest =>
    if isHighHalf unit then
      if isLowHalf next then (joinUnits rest).map (joinHalves unit next :: ·) else none
    else if isLowHalf unit then none
    else (joinUnits (next :: rest)).map (Char.ofNat unit :: ·)

/-- A string behind its opening quote, and the rest of the text. -/
def readString (cs : List Char) : Option (Option String × List Char) :=
  (scanString cs).map fun (units, rest) => ((joinUnits units).map String.ofList, rest)

/-- A digit run of length one or more, and the rest of the text. -/
def readDigits (cs : List Char) : Option (List Char × List Char) :=
  let digits := cs.takeWhile Char.isDigit
  if digits.isEmpty then none else some (digits, cs.dropWhile Char.isDigit)

/-- The integral part of a number: a single zero, or digits that do not begin with one. -/
def readIntegral : List Char → Option (List Char × List Char)
  | '0' :: rest => some (['0'], rest)
  | cs => readDigits cs

/-- The fraction of a number, its point included; empty if there is none. -/
def readFraction : List Char → Option (List Char × List Char)
  | '.' :: rest => (readDigits rest).map fun (digits, rest) => ('.' :: digits, rest)
  | cs => some ([], cs)

/-- The digits of an exponent behind an optional sign. -/
def readSignedDigits : List Char → Option (List Char × List Char)
  | '+' :: rest => (readDigits rest).map fun (digits, rest) => ('+' :: digits, rest)
  | '-' :: rest => (readDigits rest).map fun (digits, rest) => ('-' :: digits, rest)
  | cs => readDigits cs

/-- The exponent of a number, its mark included; empty if there is none. -/
def readExponent : List Char → Option (List Char × List Char)
  | 'e' :: rest => (readSignedDigits rest).map fun (digits, rest) => ('e' :: digits, rest)
  | 'E' :: rest => (readSignedDigits rest).map fun (digits, rest) => ('E' :: digits, rest)
  | cs => some ([], cs)

/-- A number behind its sign. -/
def readUnsigned (negative : Bool) (cs : List Char) : Option (Json × List Char) :=
  match readIntegral cs with
  | none => none
  | some (integral, rest) =>
    match readFraction rest with
    | none => none
    | some (fraction, rest) =>
      match readExponent rest with
      | none => none
      | some (exponent, rest) =>
        if fraction.isEmpty && exponent.isEmpty then
          some (.integer negative (Nat.ofDigitChars 10 integral 0), rest)
        else
          let literal := integral ++ fraction ++ exponent
          some (.decimal (if negative then '-' :: literal else literal), rest)

/-- A number at the head of a text, and the rest. -/
def readNumber : List Char → Option (Json × List Char)
  | '-' :: rest => readUnsigned true rest
  | cs => readUnsigned false cs

mutual

/-- A value at the head of a text, and the rest. -/
def readValue : Nat → List Char → Option (Json × List Char)
  | 0, _ => none
  | fuel + 1, cs =>
    match skipBlanks cs with
    | '{' :: rest =>
      match skipBlanks rest with
      | '}' :: rest => some (.object [], rest)
      | rest => (readMembers fuel rest).map fun (members, rest) => (.object members, rest)
    | '[' :: rest =>
      match skipBlanks rest with
      | ']' :: rest => some (.array [], rest)
      | rest => (readElements fuel rest).map fun (elements, rest) => (.array elements, rest)
    | '"' :: rest => (readString rest).map fun (content, rest) => (.string content, rest)
    | 'n' :: 'u' :: 'l' :: 'l' :: rest => some (.null, rest)
    | 't' :: 'r' :: 'u' :: 'e' :: rest => some (.bool true, rest)
    | 'f' :: 'a' :: 'l' :: 's' :: 'e' :: rest => some (.bool false, rest)
    | rest => readNumber rest

/-- The elements of an array up to its closing bracket, at least one, and the rest. -/
def readElements : Nat → List Char → Option (List Json × List Char)
  | 0, _ => none
  | fuel + 1, cs =>
    match readValue fuel cs with
    | none => none
    | some (v, rest) =>
      match skipBlanks rest with
      | ',' :: rest => (readElements fuel rest).map fun (elements, rest) => (v :: elements, rest)
      | ']' :: rest => some ([v], rest)
      | _ => none

/-- The members of an object up to its closing brace, at least one, and the rest. -/
def readMembers : Nat → List Char → Option (List (Option String × Json) × List Char)
  | 0, _ => none
  | fuel + 1, cs =>
    match skipBlanks cs with
    | '"' :: rest =>
      match readString rest with
      | none => none
      | some (key, rest) =>
        match skipBlanks rest with
        | ':' :: rest =>
          match readValue fuel rest with
          | none => none
          | some (v, rest) =>
            match skipBlanks rest with
            | ',' :: rest =>
              (readMembers fuel rest).map fun (members, rest) => ((key, v) :: members, rest)
            | '}' :: rest => some ([(key, v)], rest)
            | _ => none
        | _ => none
    | _ => none

end

/-- The value of a text that holds one value and nothing else but blanks. -/
def parse (text : String) : Option Json :=
  let cs := text.toList
  match readValue (2 * cs.length + 2) cs with
  | some (v, rest) => if (skipBlanks rest).isEmpty then some v else none
  | none => none

end PistonGrid.Json
