import PistonGrid.Heading
import PistonGrid.Word

/-!
# Planes and grids

An engine runs over a plane: a word for each cell that is inside, and the points at which pistons
start. Two kinds of plane are provided.

* `Grid` — a rectangle of words, stored row by row (`Grid.plane`).
* `SparseGrid` — a few listed cells, and one word (or the outside) everywhere else
  (`SparseGrid.plane`).
-/

set_option autoImplicit false

namespace PistonGrid

/-- Where a piston starts, and the way it faces. Coordinates are stored as they were given. -/
structure StartPoint where
  x : UInt32
  y : UInt32
  heading : Heading
deriving DecidableEq, Repr

/-- What an engine runs over. -/
structure Plane where
  /-- The word of a cell, or nothing outside the plane. -/
  wordAt? : Nat → Nat → Option Word
  /-- The start points, in the order in which their pistons are made. -/
  starts : List StartPoint

/-- A rectangle of words, stored row by row. -/
structure Grid where
  width : Nat
  height : Nat
  cells : Array Word
  starts : List StartPoint := []
deriving DecidableEq, Repr

namespace Grid

/-- A rectangle of blank words. -/
def blank (width height : Nat) : Grid :=
  { width, height, cells := Array.replicate (width * height) Word.blank }

/-- The place of a cell in storage, if it is inside. -/
def index? (g : Grid) (x y : Nat) : Option Nat :=
  if x < g.width ∧ y < g.height then some (y * g.width + x) else none

/-- The word of a cell, or nothing outside the rectangle. -/
def wordAt? (g : Grid) (x y : Nat) : Option Word := (g.index? x y).bind (g.cells[·]?)

/-- Overwrite a cell; outside the rectangle nothing happens. -/
def set (g : Grid) (x y : Nat) (w : Word) : Grid :=
  match g.index? x y with
  | some i => { g with cells := g.cells.setIfInBounds i w }
  | none => g

/-- Overwrite the cells of a row from `x` on. -/
def setRow (y : Nat) : Nat → List Nat → Grid → Grid
  | _, [], g => g
  | x, n :: rest, g => setRow y (x + 1) rest (g.set x y (.ofNat n))

/-- Overwrite rows from `y` on. -/
def setRows : Nat → List (List Nat) → Grid → Grid
  | _, [], g => g
  | y, row :: rest, g => setRows (y + 1) rest (setRow y 0 row g)

/-- The length of the longest row. -/
def longest (rows : List (List Nat)) : Nat := rows.foldl (fun n row => max n row.length) 0

/-- The grid of some rows, as wide as the longest; short rows are filled up with blanks. -/
def ofRows (rows : List (List Nat)) : Grid := setRows 0 rows (blank (longest rows) rows.length)

/-- Add a start point behind those there are. -/
def addStart (g : Grid) (s : StartPoint) : Grid := { g with starts := g.starts ++ [s] }

/-- The words row by row. -/
def rows (g : Grid) : List (List Word) :=
  (List.range g.height).map fun y => (List.range g.width).filterMap fun x => g.wordAt? x y

/-- A grid as a plane. -/
def plane (g : Grid) : Plane := ⟨g.wordAt?, g.starts⟩

end Grid

/-- Listed cells, and one answer for all others. -/
structure SparseGrid where
  cells : List ((Nat × Nat) × Word)
  elsewhere : Option Word
  starts : List StartPoint

namespace SparseGrid

/-- The word listed for a cell, or that of all others. -/
def wordAt? (g : SparseGrid) (x y : Nat) : Option Word :=
  match g.cells.lookup (x, y) with
  | some w => some w
  | none => g.elsewhere

/-- A sparse grid as a plane. -/
def plane (g : SparseGrid) : Plane := ⟨g.wordAt?, g.starts⟩

end SparseGrid

end PistonGrid
