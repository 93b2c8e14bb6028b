import PistonGrid.Config
import PistonGrid.Grid
import PistonGrid.Json.Reader
import PistonGrid.Snapshot

/-!
# Documents

The values that are stored as JSON, each with a writer `toJson` and a reader `ofJson?`.

* A record is written as an object. It may be read from an object, whose unknown members are passed
  over and whose known members may not be repeated, or from an array of its fields in order.
* Integers are accepted only as written without fraction and exponent, within their width; minus zero
  is no integer.
* A configuration has a default for each field; all other records need all their fields.
-/

set_option autoImplicit false

namespace PistonGrid

namespace Json

/-- The value of a known member: absent, there once, or (an error) repeated. -/
def member? (key : String) (members : List (Option String × Json)) : Option (Option Json) :=
  match members.filter (·.1 == some key) with
  | [] => some none
  | [(_, v)] => some (some v)
  | _ => none

/-- The fields of a record by name, each of them present or not. -/
def fields? (keys : List String) : Json → Option (List (Option Json))
  | .object members =>
    if members.all (·.1.isSome) then keys.mapM (member? · members) else none
  | .array elements =>
    if elements.length ≤ keys.length then
      some (elements.map some ++ List.replicate (keys.length - elements.length) none)
    else none
  | _ => none

/-- A natural number below `bound`. -/
def nat? (bound : Nat) : Json → Option Nat
  | .integer false n => if n < bound then some n else none
  | _ => none

/-- An integer from `-bound` up to but without `bound`; minus zero is none. -/
def int? (bound : Nat) : Json → Option Int
  | .integer false n => if n < bound then some n else none
  | .integer true n => if 0 < n ∧ n ≤ bound then some (-(n : Int)) else none
  | _ => none

/-- A byte. -/
def uint8? (v : Json) : Option UInt8 := (v.nat? 256).map .ofNat

/-- An unsigned number of 32 bits. -/
def uint32? (v : Json) : Option UInt32 := (v.nat? 4294967296).map .ofNat

/-- An unsigned number of 64 bits. -/
def uint64? (v : Json) : Option UInt64 := (v.nat? 18446744073709551616).map .ofNat

/-- A signed number of 32 bits. -/
def int32? (v : Json) : Option Int32 := (v.int? 2147483648).map .ofInt

/-- A truth value. -/
def bool? : Json → Option Bool
  | .bool b => some b
  | _ => none

/-- A text. -/
def text? : Json → Option String
  | .string content => content
  | _ => none

/-- Nothing, or what `read` makes of the value. -/
def nullable? {α : Type} (read : Json → Option α) : Json → Option (Option α)
  | .null => some none
  | v => (read v).map some

/-- An array of exactly `n` elements, each as `read` makes it. -/
def vector? {α : Type} (n : Nat) (read : Json → Option α) : Json → Option (Vector α n)
  | .array elements =>
    match elements.mapM read with
    | some values => if h : values.toArray.size = n then some ⟨values.toArray, h⟩ else none
    | none => none
  | _ => none

end Json

namespace Heading

/-- A heading is stored by name. -/
def toJson (h : Heading) : Json := .ofString h.name

/-- A heading is read from its name, or from an object with the name as only key and nothing as its
value. -/
def ofJson? : Json → Option Heading
  | .string (some name) => ofName? name
  | .object [(some name, .null)] => ofName? name
  | _ => none

end Heading

namespace RegisterTag

/-- A register number is stored as a bare byte. -/
def toJson (t : RegisterTag) : Json := .ofNat t.byte.toNat

/-- Any byte is read as a register number. -/
def ofJson? (v : Json) : Option RegisterTag := v.uint8?.map .mk

end RegisterTag

namespace OptionsTag

/-- A register hint is stored as a bare byte. -/
def toJson (t : OptionsTag) : Json := .ofNat t.byte.toNat

/-- Any byte is read as a register hint. -/
def ofJson? (v : Json) : Option OptionsTag := v.uint8?.map .mk

end OptionsTag

namespace StartPoint

/-- The stored form of a start point. -/
def toJson (s : StartPoint) : Json :=
  .ofFields [("x", .ofNat s.x.toNat), ("y", .ofNat s.y.toNat), ("direction", s.heading.toJson)]

/-- Read a start point. -/
def ofJson? (v : Json) : Option StartPoint :=
  match v.fields? ["x", "y", "direction"] with
  | some [some x, some y, some heading] => do
    let x ← x.uint32?
    let y ← y.uint32?
    let heading ← Heading.ofJson? heading
    some { x, y, heading }
  | _ => none

end StartPoint

namespace Snapshot

/-- The stored form of a snapshot. -/
def toJson (s : Snapshot) : Json :=
  .ofFields
    [("id", .ofNat s.id.toNat), ("x", .ofNat s.x.toNat), ("y", .ofNat s.y.toNat),
     ("direction", s.heading.toJson),
     ("registers", .array (s.registers.toList.map fun r => .ofNat r.toNat)),
     ("priority", .ofInt s.priority.toInt), ("ended", .bool s.ended)]

/-- Read a snapshot. -/
def ofJson? (v : Json) : Option Snapshot :=
  match v.fields? ["id", "x", "y", "direction", "registers", "priority", "ended"] with
  | some [some id, some x, some y, some heading, some registers, some priority, some ended] => do
    let id ← id.uint64?
    let x ← x.uint32?
    let y ← y.uint32?
    let heading ← Heading.ofJson? heading
    let registers ← registers.vector? 8 Json.uint32?
    let priority ← priority.int32?
    let ended ← ended.bool?
    some { id, x, y, heading, registers, priority, ended }
  | _ => none

end Snapshot

namespace Config

/-- The stored form of a configuration. -/
def toJson (c : Config) : Json :=
  .ofFields
    [("name", .ofString c.name),
     ("max_cycles", match c.maxCycles with
       | none => .null
       | some n => .ofNat n.toNat)]

/-- A field that falls back to a default when it is absent. -/
def field? {α : Type} (fallback : α) (read : Json → Option α) : Option Json → Option α
  | none => some fallback
  | some v => read v

/-- Read a configuration; absent fields take their defaults. -/
def ofJson? (v : Json) : Option Config :=
  match v.fields? ["name", "max_cycles"] with
  | some [name, maxCycles] => do
    let name ← field? standard.name Json.text? name
    let maxCycles ← field? standard.maxCycles (Json.nullable? Json.uint64?) maxCycles
    some { name, maxCycles }
  | _ => none

/-- The text of a configuration. -/
def render (c : Config) : String := c.toJson.compact

/-- Read a configuration from a text. -/
def parse? (text : String) : Option Config := (Json.parse text).bind ofJson?

end Config

/-- The snapshots of some pistons as one text. -/
def snapshotText (ps : List Piston) : String :=
  (Json.array (ps.map fun p => p.snapshot.toJson)).compact

end PistonGrid
