import PistonGrid.Registry

/-!
# Reference pages

A registry documents itself: an index page with one row for each control code, and for each control
code a page with a card for each of its instructions.

* `Reference.card` — the bit layout of one instruction.
* `Reference.chapters` — the control codes in ascending order, each with its family and instructions.
* `Reference.index`, `Reference.page`, `Reference.fileName` — the pages as markdown.
-/

set_option autoImplicit false

namespace PistonGrid.Reference

/-- Lines, each with its line end. -/
def unlines (lines : List String) : String := String.join (lines.map (· ++ "\n"))

/-- The line of a card that gives the control code. -/
def codeLine (code : Nat) : String :=
  "C = Control Code (Instruction)    [4 bits] = 0x" ++ Numeral.hex code

/-- The line of a card that gives the meta command. -/
def commandLine (command : Option Nat) : String :=
  "M = Meta Command                  [3 bits] = " ++ Numeral.decimal (command.getD 0)

/-- The lines of a card that show how the words of an instruction are divided. -/
def layoutLines (i : Instruction) : List String :=
  match i.family with
  | .plain =>
    ["0bCCCCAAAAAAAAAAAAAAAAAAAA",
     codeLine i.code,
     "A = Arguments                     [20 bits]"]
  | .registerMeta =>
    ["0bCCCCMMMRRROOAAAAAAAAAAAA",
     codeLine i.code,
     commandLine i.command,
     "R = Register                      [3 bits]",
     "O = Register Options              [2 bits]",
     "A = Meta Command Arguments        [12 bits]"]
  | .genericMeta =>
    ["0bCCCCMMMAAAAAAAAAAAAAAAAA",
     codeLine i.code,
     commandLine i.command,
     "A = Meta Command Arguments        [17 bits]"]

/-- The reference card of an instruction. -/
def card (i : Instruction) : String :=
  unlines ([i.mnemonic ++ " (" ++ i.glyph.toString ++ ")", i.description, ""] ++ layoutLines i)

/-- A control code with its family and its instructions. -/
structure Chapter where
  code : Nat
  family : Family
  members : List Instruction

/-- The chapters of a registry, in ascending order of control code. -/
def chapters (r : Registry) : List Chapter :=
  r.families.map fun (code, family) => ⟨code, family, r.members code⟩

/-- The file that holds the page of a control code. -/
def fileName (code : Nat) : String := "CC_" ++ Numeral.hex code ++ ".md"

/-- The row of a chapter in the index. -/
def indexRow (c : Chapter) : String :=
  "| 0x" ++ Numeral.hex c.code ++ " | " ++ c.family.title ++ " | "
    ++ ", ".intercalate (c.members.map Instruction.mnemonic) ++ " | [spec](handlers/"
    ++ fileName c.code ++ ") |"

/-- The lines of the index above its rows, with the numbers of instructions and of control codes. -/
def indexHead (instructions codes : Nat) : List String :=
  ["# pixel_lang Instruction Reference",
   "",
   "Auto-generated from the live handler registry by `pixel-lang-spec`.",
   "",
   "**Total: " ++ Numeral.decimal instructions ++ " handlers** across " ++ Numeral.decimal codes
     ++ " control codes",
   "",
   "## Control Codes",
   "",
   "| CC | Family | Handlers | Spec |",
   "|----|--------|----------|------|"]

/-- The lines of the index below its rows. -/
def indexFoot : List String :=
  ["",
   "## Word Layouts",
   "",
   "Every word is 24 bits. The top nibble selects the family:",
   "",
   "| Family | Layout |",
   "|--------|--------|",
   "| plain | `[CC:4][ARG:20]` |",
   "| register meta | `[CC:4][MC:3][REG:3][OPT:2][ARG:12]` |",
   "| generic meta | `[CC:4][MC:3][ARG:17]` |"]

/-- The index page of a registry. -/
def index (r : Registry) : String :=
  unlines (indexHead r.size r.families.length ++ (chapters r).map indexRow ++ indexFoot)

/-- The row of an instruction in the table of its meta family. -/
def memberRow (i : Instruction) : String :=
  "| " ++ Numeral.decimal (i.command.getD 0) ++ " | `" ++ i.mnemonic ++ "` | " ++ i.glyph.toString
    ++ " | " ++ i.description ++ " |"

/-- The table of a meta family; plain families have none. -/
def memberTable (c : Chapter) : String :=
  if c.family.isMeta then
    unlines <|
      ["| MC | Mnemonic | Glyph | Description |", "|----|----------|-------|-------------|"]
      ++ c.members.map memberRow ++ [""]
  else ""

/-- The section of an instruction: its card as preformatted text. -/
def memberSection (i : Instruction) : String :=
  unlines ["## " ++ i.mnemonic, "", "```text"] ++ card i ++ unlines ["```", ""]

/-- The page of a control code above its sections. -/
def pageHead (c : Chapter) : String :=
  unlines ["# Control Code 0x" ++ Numeral.hex c.code ++ " (" ++ c.family.title ++ ")", ""]
    ++ memberTable c

/-- The page of a control code. -/
def page (c : Chapter) : String := pageHead c ++ String.join (c.members.map memberSection)

end PistonGrid.Reference
