import Mathlib.Algebra.Group.Nat.Defs
import PistonGrid.Grid

/-!
# Grids as two-dimensional arrays

A grid keeps its words in one array, row by row.  This module says that the array is a faithful picture of
the rectangle, however the grid was made and whatever was written since: no two cells share a place, no
write is lost, and no write reaches another cell.

* `Grid.index?_lt`, `Grid.index?_inj` — the cells inside have places of their own within
  `width * height`.
* `Grid.Depicts` — what a grid shows: its sides, a word in every cell, its start points, and storage of
  just that size.
* `Grid.Depicts.set`, `Grid.Depicts.addStart` — what one edit shows; `Grid.Depicts.editAll` — what a
  sequence of edits shows: in each cell the last word written there.
* `Grid.Depicts.setRow`, `Grid.Depicts.setRows` — the two loops that fill a grid from rows;
  `Grid.Depicts.ofRows` — what a grid of rows shows.
-/

set_option autoImplicit false

namespace PistonGrid

namespace Grid

/-- A cell of the rectangle. -/
def Inside (g : Grid) (x y : Nat) : Prop := x < g.width ∧ y < g.height

instance (g : Grid) (x y : Nat) : Decidable (g.Inside x y) := inferInstanceAs (Decidable (_ ∧ _))

/-! ## Places in storage -/

/-- Row by row, a cell of a rectangle has a place below the number of its cells. -/
theorem place_lt {width height x y : Nat} (hx : x < width) (hy : y < height) :
    y * width + x < width * height := by
  calc y * width + x < y * width + width := Nat.add_lt_add_left hx _
    _ = (y + 1) * width := (Nat.succ_mul y width).symm
    _ ≤ height * width := Nat.mul_le_mul_right width hy
    _ = width * height := Nat.mul_comm height width

/-- The place of a cell in a rectangle tells its column and its row. -/
theorem place_inj {width x y x' y' : Nat} (hx : x < width) (hx' : x' < width)
    (h : y * width + x = y' * width + x') : x = x' ∧ y = y' := by
  have hcolumn : x = x' := by
    rw [← Nat.mul_add_mod_of_lt (a := y) hx, ← Nat.mul_add_mod_of_lt (a := y') hx', h]
  subst hcolumn
  exact ⟨rfl, Nat.eq_of_mul_eq_mul_right (Nat.zero_lt_of_lt hx) (Nat.add_right_cancel h)⟩

section

variable {g : Grid} {x y : Nat}

theorem index?_inside (h : g.Inside x y) : g.index? x y = some (y * g.width + x) := if_pos h

theorem index?_outside (h : ¬ g.Inside x y) : g.index? x y = none := if_neg h

theorem inside_of_index? {i : Nat} (h : g.index? x y = some i) :
    g.Inside x y ∧ y * g.width + x = i := by
  by_cases hin : g.Inside x y
  · rw [index?_inside hin] at h
    exact ⟨hin, Option.some.inj h⟩
  · rw [index?_outside hin] at h
    cases h

theorem index?_lt {i : Nat} (h : g.index? x y = some i) : i < g.width * g.height := by
  obtain ⟨⟨hx, hy⟩, rfl⟩ := inside_of_index? h
  exact place_lt hx hy

/-- **No two cells share a place.** -/
theorem index?_inj {x' y' i : Nat} (h : g.index? x y = some i) (h' : g.index? x' y' = some i) :
    x = x' ∧ y = y' := by
  obtain ⟨⟨hx, _⟩, hi⟩ := inside_of_index? h
  obtain ⟨⟨hx', _⟩, hi'⟩ := inside_of_index? h'
  exact place_inj hx hx' (hi.trans hi'.symm)

theorem wordAt?_outside (h : ¬ g.Inside x y) : g.wordAt? x y = none := by
  rw [wordAt?, index?_outside h]
  rfl

theorem set_outside (h : ¬ g.Inside x y) (w : Word) : g.set x y w = g := by
  rw [set, index?_outside h]

theorem set_inside (h : g.Inside x y) (w : Word) :
    g.set x y w = { g with cells := g.cells.setIfInBounds (y * g.width + x) w } := by
  rw [set, index?_inside h]

end

/-! ## What a grid shows -/

/-- The grid has the given sides and start points and storage for all its cells, and in each of them it
has the given word. -/
structure Depicts (g : Grid) (width height : Nat) (word : Nat → Nat → Word)
    (starts : List StartPoint) : Prop where
  width_eq : g.width = width
  height_eq : g.height = height
  size_eq : g.cells.size = g.width * g.height
  words : ∀ x y, g.Inside x y → g.wordAt? x y = some (word x y)
  starts_eq : g.starts = starts

namespace Depicts

variable {g : Grid} {width height : Nat} {word word' : Nat → Nat → Word} {starts : List StartPoint}

theorem congr (h : g.Depicts width height word starts) (hwords : ∀ x y, word x y = word' x y) :
    g.Depicts width height word' starts :=
  { h with words := fun x y hin => (h.words x y hin).trans (congrArg some (hwords x y)) }

theorem blank (width height : Nat) :
    (Grid.blank width height).Depicts width height (fun _ _ => .blank) [] := by
  refine ⟨rfl, rfl, Array.size_replicate, ?_, rfl⟩
  intro x y hin
  have hplace : y * width + x < width * height := place_lt hin.1 hin.2
  rw [wordAt?, index?_inside hin]
  simp [Grid.blank, hplace]

/-- **One write** changes the word of its cell and no other.  Outside it changes nothing that is shown. -/
theorem set (h : g.Depicts width height word starts) (x y : Nat) (w : Word) :
    (g.set x y w).Depicts width height (fun a b => if a = x ∧ b = y then w else word a b) starts := by
  by_cases hxy : g.Inside x y
  · rw [set_inside hxy]
    refine ⟨h.width_eq, h.height_eq, Array.size_setIfInBounds.trans h.size_eq, ?_, h.starts_eq⟩
    intro a b hab
    have hab : g.Inside a b := hab
    have hfits : y * g.width + x < g.cells.size := by
      rw [h.size_eq]
      exact place_lt hxy.1 hxy.2
    have hold : g.cells[b * g.width + a]? = some (word a b) := by
      have hword := h.words a b hab
      rwa [wordAt?, index?_inside hab] at hword
    show (g.index? a b).bind ((g.cells.setIfInBounds (y * g.width + x) w)[·]?) = _
    rw [index?_inside hab, Option.bind_some, Array.getElem?_setIfInBounds, if_pos hfits]
    by_cases hcell : a = x ∧ b = y
    · obtain ⟨rfl, rfl⟩ := hcell
      simp
    · have hplace : y * g.width + x ≠ b * g.width + a := fun heq => by
        obtain ⟨rfl, rfl⟩ := place_inj hxy.1 hab.1 heq
        exact hcell ⟨rfl, rfl⟩
      rw [if_neg hplace, if_neg hcell, hold]
  · rw [set_outside hxy]
    refine { h with words := fun a b hab => ?_ }
    have hcell : ¬ (a = x ∧ b = y) := by
      rintro ⟨rfl, rfl⟩
      exact hxy hab
    rw [h.words a b hab, if_neg hcell]

theorem addStart (h : g.Depicts width height word starts) (s : StartPoint) :
    (g.addStart s).Depicts width height word (starts ++ [s]) :=
  ⟨h.width_eq, h.height_eq, h.size_eq, h.words, congrArg (· ++ [s]) h.starts_eq⟩

/-! ## Grids of rows -/

/-- The loop over a row writes its numbers one beside the other. -/
theorem setRow (y : Nat) (row : List Nat) :
    ∀ {g : Grid} {word : Nat → Nat → Word} (x : Nat), g.Depicts width height word starts →
      (Grid.setRow y x row g).Depicts width height
        (fun a b => if b = y ∧ x ≤ a then (row[a - x]?.map Word.ofNat).getD (word a b) else word a b)
        starts := by
  induction row with
  | nil =>
    intro g word x h
    exact h.congr fun a b => by simp
  | cons n row ih =>
    intro g word x h
    refine (ih (x + 1) (h.set x y (.ofNat n))).congr fun a b => ?_
    -- a column before that of the first number, that column itself, and one behind it
    rcases Nat.lt_trichotomy a x with hlt | rfl | hgt
    · have hnot : ¬ (b = y ∧ x ≤ a) := by omega
      have hnot' : ¬ (b = y ∧ x + 1 ≤ a) := by omega
      have hcell : ¬ (a = x ∧ b = y) := by omega
      rw [if_neg hnot, if_neg hnot', if_neg hcell]
    · have hnot' : ¬ (b = y ∧ a + 1 ≤ a) := by omega
      rw [if_neg hnot']
      by_cases hb : b = y <;> simp [hb]
    · have hbehind : b = y ∧ x ≤ a ↔ b = y ∧ x + 1 ≤ a := by omega
      have hcell : ¬ (a = x ∧ b = y) := by omega
      have hindex : a - x = a - (x + 1) + 1 := by omega
      simp only [hbehind, if_neg hcell, hindex, List.getElem?_cons_succ]

/-- The loop over rows writes them one below the other. -/
theorem setRows (rows : List (List Nat)) :
    ∀ {g : Grid} {word : Nat → Nat → Word} (y : Nat), g.Depicts width height word starts →
      (Grid.setRows y rows g).Depicts width height
        (fun a b => if y ≤ b then ((rows[b - y]?.bind (·[a]?)).map Word.ofNat).getD (word a b)
          else word a b)
        starts := by
  induction rows with
  | nil =>
    intro g word y h
    exact h.congr fun a b => by simp
  | cons row rows ih =>
    intro g word y h
    refine (ih (y + 1) (h.setRow y row 0)).congr fun a b => ?_
    -- a row above the first, the first itself, and one below it
    rcases Nat.lt_trichotomy b y with hlt | rfl | hgt
    · have hnot : ¬ y ≤ b := by omega
      have hnot' : ¬ y + 1 ≤ b := by omega
      have hrow : ¬ (b = y ∧ 0 ≤ a) := by omega
      rw [if_neg hnot, if_neg hnot', if_neg hrow]
    · have hnot' : ¬ b + 1 ≤ b := by omega
      rw [if_neg hnot']
      simp
    · have hbelow : y ≤ b ↔ y + 1 ≤ b := by omega
      have hrow : ¬ (b = y ∧ 0 ≤ a) := by omega
      have hindex : b - y = b - (y + 1) + 1 := by omega
      simp only [hbelow, if_neg hrow, hindex, List.getElem?_cons_succ]

end Depicts

/-- The word that rows of numbers give to a cell; short rows are filled up with blanks. -/
def wordOf (rows : List (List Nat)) (x y : Nat) : Word :=
  ((rows[y]?.bind (·[x]?)).map Word.ofNat).getD .blank

/-- The greatest length of a row, or zero if there are no rows. -/
theorem longest_eq (rows : List (List Nat)) : longest rows = (rows.map List.length).max?.getD 0 := by
  have hfold : longest rows = (rows.map List.length).foldl max 0 := List.foldl_map.symm
  rw [hfold, List.foldl_max, Nat.zero_max]

/-- **A grid of rows** shows them, each number cut to the width of a word. -/
theorem Depicts.ofRows (rows : List (List Nat)) :
    (Grid.ofRows rows).Depicts ((rows.map List.length).max?.getD 0) rows.length (wordOf rows) [] := by
  rw [← longest_eq]
  exact ((Depicts.blank _ _).setRows rows 0).congr fun x y => by simp [wordOf]

/-! ## Edits -/

/-- What can be done to a grid after it has been made. -/
inductive Edit where
  | set (x y : Nat) (w : Word)
  | addStart (s : StartPoint)
deriving DecidableEq, Repr

namespace Edit

/-- The word that an edit writes at a cell. -/
def word? (x y : Nat) : Edit → Option Word
  | .set a b w => if a = x ∧ b = y then some w else none
  | .addStart _ => none

/-- The start point that an edit adds. -/
def start? : Edit → Option StartPoint
  | .set _ _ _ => none
  | .addStart s => some s

end Edit

/-- Carry out an edit. -/
def edit (g : Grid) : Edit → Grid
  | .set x y w => g.set x y w
  | .addStart s => g.addStart s

/-- Carry out a sequence of edits. -/
def editAll (g : Grid) (edits : List Edit) : Grid := edits.foldl edit g

/-- The last word that a sequence of edits writes at a cell. -/
def lastWord? (edits : List Edit) (x y : Nat) : Option Word :=
  (edits.filterMap (Edit.word? x y)).getLast?

/-- What stands in a cell after a sequence of edits stands there after the first and the others. -/
theorem lastWord?_cons_getD (e : Edit) (edits : List Edit) (x y : Nat) (w : Word) :
    (lastWord? (e :: edits) x y).getD w = (lastWord? edits x y).getD ((e.word? x y).getD w) := by
  unfold lastWord?
  cases he : e.word? x y with
  | none => simp [he]
  | some v => simp [he, List.getLast?_cons]

namespace Depicts

variable {width height : Nat}

theorem edit {g : Grid} {word : Nat → Nat → Word} {starts : List StartPoint}
    (h : g.Depicts width height word starts) (e : Edit) :
    (g.edit e).Depicts width height (fun x y => (e.word? x y).getD (word x y))
      (starts ++ e.start?.toList) := by
  cases e with
  | set x y w =>
    have hstarts : starts ++ (Edit.set x y w).start?.toList = starts := List.append_nil starts
    rw [hstarts]
    refine (h.set x y w).congr fun a b => ?_
    by_cases hcell : a = x ∧ b = y
    · obtain ⟨rfl, rfl⟩ := hcell
      simp [Edit.word?]
    · have hother : ¬ (x = a ∧ y = b) := fun heq => hcell ⟨heq.1.symm, heq.2.symm⟩
      simp [Edit.word?, hcell, hother]
  | addStart s => exact h.addStart s

/-- **After any edits** every cell shows the last word written there, or what it showed before. -/
theorem editAll (edits : List Edit) :
    ∀ {g : Grid} {word : Nat → Nat → Word} {starts : List StartPoint},
      g.Depicts width height word starts →
      (g.editAll edits).Depicts width height (fun x y => (lastWord? edits x y).getD (word x y))
        (starts ++ edits.filterMap Edit.start?) := by
  induction edits with
  | nil =>
    intro g word starts h
    rw [List.filterMap_nil, List.append_nil]
    exact h
  | cons e edits ih =>
    intro g word starts h
    have hstarts : starts ++ (e :: edits).filterMap Edit.start? =
        starts ++ e.start?.toList ++ edits.filterMap Edit.start? := by
      cases he : e.start? <;> simp [he]
    rw [hstarts]
    exact (ih (h.edit e)).congr fun x y => (lastWord?_cons_getD e edits x y (word x y)).symm

end Depicts

/-! ## Grids of either origin -/

/-- How a grid is made: as a rectangle of blanks, or from rows of numbers. -/
inductive Origin where
  | blank (width height : Nat)
  | ofRows (rows : List (List Nat))
deriving DecidableEq, Repr

namespace Origin

/-- The grid that is made. -/
def grid : Origin → Grid
  | .blank width height => .blank width height
  | .ofRows rows => .ofRows rows

/-- The width of the grid: that of the longest row. -/
def width : Origin → Nat
  | .blank width _ => width
  | .ofRows rows => (rows.map List.length).max?.getD 0

/-- The height of the grid: the number of rows. -/
def height : Origin → Nat
  | .blank _ height => height
  | .ofRows rows => rows.length

/-- The word that a cell of the grid has at first. -/
def word : Origin → Nat → Nat → Word
  | .blank _ _ => fun _ _ => .blank
  | .ofRows rows => wordOf rows

/-- The number that a cell is made from, zero where there is none. -/
def number : Origin → Nat → Nat → Nat
  | .blank _ _, _, _ => 0
  | .ofRows rows, x, y => ((rows[y]?).bind (·[x]?)).getD 0

/-- A number is cut to the 24 bits of a word. -/
theorem bits_word (origin : Origin) (x y : Nat) :
    (origin.word x y).bits = origin.number x y % 2 ^ 24 := by
  cases origin with
  | blank width height => rfl
  | ofRows rows =>
    simp only [word, wordOf, number]
    cases (rows[y]?).bind (·[x]?) <;> rfl

theorem depicts (origin : Origin) :
    origin.grid.Depicts origin.width origin.height origin.word [] := by
  cases origin with
  | blank width height => exact .blank width height
  | ofRows rows => exact .ofRows rows

end Origin

end Grid

/-- **Cells are a faithful two-dimensional array**, after any sequence of writes and new start points.
Storage has exactly one place for each cell, and no two cells have the same.  A cell has a word exactly if
it is inside: the last one written there, or else the one it had at first, whose bits are those of the
number in its row modulo `2 ^ 24`, or of a blank where the row is too short.  A write outside changes
nothing. -/
theorem grid_cells_faithful (origin : Grid.Origin) (edits : List Grid.Edit) :
    let g := origin.grid.editAll edits
    g.width = origin.width ∧ g.height = origin.height ∧
    g.cells.size = g.width * g.height ∧
    (∀ x y, x < g.width → y < g.height → ∃ i, g.index? x y = some i ∧ i < g.cells.size) ∧
    (g.width < 2 ^ 32 → g.height < 2 ^ 32 → g.cells.size < 2 ^ 64) ∧
    (∀ x y x' y' i, g.index? x y = some i → g.index? x' y' = some i → x = x' ∧ y = y') ∧
    (∀ x y, g.wordAt? x y = none ↔ g.width ≤ x ∨ g.height ≤ y) ∧
    (∀ x y, x < g.width → y < g.height →
      g.wordAt? x y = some ((Grid.lastWord? edits x y).getD (origin.word x y))) ∧
    (∀ x y, x < g.width → y < g.height → Grid.lastWord? edits x y = none →
      (g.wordAt? x y).map Word.bits = some (origin.number x y % 2 ^ 24)) ∧
    (∀ x y w, g.width ≤ x ∨ g.height ≤ y → g.set x y w = g) ∧
    g.starts = edits.filterMap Grid.Edit.start? := by
  intro g
  have h := origin.depicts.editAll edits
  have houtside : ∀ {x y : Nat}, g.width ≤ x ∨ g.height ≤ y → ¬ g.Inside x y := by
    intro x y hout hin
    have hx : x < g.width := hin.1
    have hy : y < g.height := hin.2
    omega
  refine ⟨h.width_eq, h.height_eq, h.size_eq, ?_, ?_, fun _ _ _ _ _ => Grid.index?_inj, ?_,
    fun x y hx hy => h.words x y ⟨hx, hy⟩, fun x y hx hy hfirst => ?_,
    fun x y w hout => Grid.set_outside (houtside hout) w, h.starts_eq⟩
  · intro x y hx hy
    have hindex := Grid.index?_inside (g := g) ⟨hx, hy⟩
    exact ⟨_, hindex, h.size_eq.symm ▸ Grid.index?_lt hindex⟩
  · intro hwidth hheight
    calc g.cells.size = g.width * g.height := h.size_eq
      _ < 2 ^ 32 * 2 ^ 32 := Nat.mul_lt_mul'' hwidth hheight
      _ = 2 ^ 64 := rfl
  · intro x y
    constructor
    · intro hnone
      by_cases hin : g.Inside x y
      · rw [h.words x y hin] at hnone
        cases hnone
      · unfold Grid.Inside at hin
        omega
    · intro hout
      exact Grid.wordAt?_outside (houtside hout)
  · rw [h.words x y ⟨hx, hy⟩, hfirst, ← origin.bits_word]
    rfl

/-- Three rows of different lengths, the first with a number that is too long for a word. -/
def ragged : Grid.Origin := .ofRows [[0x1000001, 2, 3], [], [4]]

/-- Two writes in the same cell, one behind the end of the first row, and a start point. -/
def scribbles : List Grid.Edit :=
  [.set 1 1 (.ofNat 5), .set 3 0 (.ofNat 7), .addStart ⟨9, 9, .up⟩, .set 1 1 (.ofNat 6)]

/-- The long number is cut, the second write wins, and the write behind the first row does not reach the
second, where it would be next in storage. -/
theorem grid_cells_faithful_ragged :
    let g := ragged.grid.editAll scribbles
    g.width = 3 ∧ g.height = 3 ∧ g.cells.size = 9 ∧ g.cells.size < 2 ^ 64 ∧
      g.wordAt? 0 0 = some (.ofNat 1) ∧
      (g.wordAt? 0 0).map Word.bits = some (0x1000001 % 2 ^ 24) ∧ g.wordAt? 1 1 = some (.ofNat 6) ∧
      g.wordAt? 0 1 = some .blank ∧ g.wordAt? 3 0 = none ∧
      g.set 3 0 (.ofNat 7) = g ∧ g.starts = [⟨9, 9, .up⟩] := by
  intro g
  obtain ⟨hwidth, hheight, hsize, _, hfits, _, hnone, hwords, hbits, houtside, hstarts⟩ :=
    grid_cells_faithful ragged scribbles
  have hwidth : g.width = 3 := hwidth
  have hheight : g.height = 3 := hheight
  have hout : g.width ≤ 3 ∨ g.height ≤ 0 := .inl (Nat.le_of_eq hwidth)
  have hword : ∀ x y, x < 3 → y < 3 →
      g.wordAt? x y = some ((Grid.lastWord? scribbles x y).getD (ragged.word x y)) := by
    intro x y hx hy
    exact hwords x y (hwidth.symm ▸ hx) (hheight.symm ▸ hy)
  refine ⟨hwidth, hheight, ?_, ?_, ?_, ?_, ?_, ?_, (hnone 3 0).mpr hout, houtside 3 0 _ hout, hstarts⟩
  · rw [hsize, hwidth, hheight]
  · exact hfits (by rw [hwidth]; decide) (by rw [hheight]; decide)
  · exact hword 0 0 (by decide) (by decide)
  · exact hbits 0 0 (by rw [hwidth]; decide) (by rw [hheight]; decide) rfl
  · exact hword 1 1 (by decide) (by decide)
  · exact hword 0 1 (by decide) (by decide)

end PistonGrid
