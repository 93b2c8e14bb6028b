import Mathlib.Algebra.Ring.Int.Defs
import PistonGrid.Piston

/-!
# Where a path leads

A piston moves along its heading and turns in between.  Coordinates are reduced at every move, and the
distance of a move even before it is multiplied by the unit of the heading.  This module says that the
path leads where exact integers lead, reduced once at the end, and that the words it is computed in are
wide enough.

* `Manoeuvre`, `Piston.follow` — a path: moves, turns and new headings, one after the other.
* `legs`, `offset` — the moves of a path with the headings at which they were made, and how far they go
  together along one coordinate.
* `Piston.moveBy_eq` — one move in exact integers; `Piston.follow_eq` — a whole path.
* `Piston.moveByWithin?`, `Piston.followWithin?` — the same in words of 64 bits, which fails as soon as a
  number does not fit; `Piston.followWithin?_eq` — it does not fail.
-/

set_option autoImplicit false

namespace PistonGrid

/-! ## Reduced numbers -/

theorem natCast_wrap (v : Int) : (wrap v : Int) = v % capacity := by
  unfold wrap capacity
  omega

/-- What was reduced before may be added as it was. -/
theorem wrap_wrap_add (v d : Int) : wrap (wrap v + d) = wrap (v + d) := by
  rw [wrap, natCast_wrap, Int.emod_add_emod, wrap]

/-- A factor may be reduced first. -/
theorem wrap_add_mul_emod (v unit n : Int) : wrap (v + unit * (n % capacity)) = wrap (v + n * unit) := by
  have hfactor : (v + unit * (n % capacity)) % capacity = (v + n * unit) % capacity := by
    rw [Int.add_emod, Int.mul_emod, Int.emod_emod, ← Int.mul_emod, ← Int.add_emod, Int.mul_comm]
  rw [wrap, hfactor, wrap]

/-! ## Paths -/

/-- One part of a path. -/
inductive Manoeuvre where
  | move (n : Int)
  | turn (t : Turn)
  | face (h : Heading)
deriving DecidableEq, Repr

/-- The heading after a part of a path. -/
def Heading.after (h : Heading) : Manoeuvre → Heading
  | .move _ => h
  | .turn t => h.turn t
  | .face h' => h'

/-- The moves of a path, each with the heading at which it is made. -/
def legs : Heading → List Manoeuvre → List (Heading × Int)
  | _, [] => []
  | h, .move n :: path => (h, n) :: legs h path
  | h, .turn t :: path => legs (h.turn t) path
  | _, .face h :: path => legs h path

/-- How far the moves of a path go together, where each heading goes the given way. -/
def offset (unit : Heading → Int) (h : Heading) (path : List Manoeuvre) : Int :=
  ((legs h path).map fun leg => leg.2 * unit leg.1).sum

/-- Carry out one part of a path. -/
def Piston.manoeuvre (p : Piston) : Manoeuvre → Piston
  | .move n => p.moveBy n
  | .turn t => p.turn t
  | .face h => p.face h

/-- Carry out a path. -/
def Piston.follow (p : Piston) (path : List Manoeuvre) : Piston := path.foldl Piston.manoeuvre p

section

variable (unit : Heading → Int) (h : Heading) (path : List Manoeuvre)

@[simp] theorem offset_nil : offset unit h [] = 0 := rfl

@[simp] theorem offset_move (n : Int) :
    offset unit h (.move n :: path) = n * unit h + offset unit h path := rfl

@[simp] theorem offset_turn (t : Turn) :
    offset unit h (.turn t :: path) = offset unit (h.turn t) path := rfl

@[simp] theorem offset_face (h' : Heading) :
    offset unit h (.face h' :: path) = offset unit h' path := rfl

/-- Moves along one heading add up. -/
theorem offset_moves (ns : List Int) : offset unit h (ns.map .move) = ns.sum * unit h := by
  induction ns with
  | nil => simp
  | cons n ns ih => rw [List.map_cons, offset_move, ih, List.sum_cons, Int.add_mul]

end

namespace Piston

variable {p : Piston}

/-- **One move in exact integers.** -/
theorem moveBy_eq (p : Piston) (n : Int) :
    p.moveBy n = { p with
      x := wrap (p.x + n * p.heading.delta.1)
      y := wrap (p.y + n * p.heading.delta.2) } := by
  rw [moveBy, wrap_add_mul_emod, wrap_add_mul_emod]

/-- **A path in exact integers.** However often a path reduces its coordinates on the way, it leads where
the sum of its moves leads, reduced once. -/
theorem follow_eq (path : List Manoeuvre) :
    ∀ {p : Piston}, p.x < capacity → p.y < capacity →
      p.follow path = { p with
        x := wrap (p.x + offset (·.delta.1) p.heading path)
        y := wrap (p.y + offset (·.delta.2) p.heading path)
        heading := path.foldl Heading.after p.heading } := by
  induction path with
  | nil =>
    intro p hx hy
    simp [follow, wrap_of_lt hx, wrap_of_lt hy]
  | cons m path ih =>
    intro p hx hy
    show (p.manoeuvre m).follow path = _
    cases m with
    | move n =>
      rw [manoeuvre, ih (wrap_lt _) (wrap_lt _), moveBy_eq]
      simp only [wrap_wrap_add, offset_move, Int.add_assoc]
      rfl
    | turn t => exact ih hx hy
    | face h => exact ih hx hy

end Piston

/-! ## Words of 64 bits -/

/-- A number in a signed word of 64 bits; none if it does not fit. -/
def signedWord? (v : Int) : Option Int := if -2 ^ 63 ≤ v ∧ v < 2 ^ 63 then some v else none

/-- One coordinate of a move in such words; none if any number on the way does not fit. -/
def advanceWithin? (coordinate : Nat) (unit n : Int) : Option Nat := do
  let distance ← signedWord? (n % capacity)
  let step ← signedWord? (unit * distance)
  let sum ← signedWord? (coordinate + step)
  return wrap sum

/-- A move in such words. -/
def Piston.moveByWithin? (p : Piston) (n : Int) : Option Piston := do
  let x ← advanceWithin? p.x p.heading.delta.1 n
  let y ← advanceWithin? p.y p.heading.delta.2 n
  return { p with x, y }

/-- One part of a path in such words. -/
def Piston.manoeuvreWithin? (p : Piston) : Manoeuvre → Option Piston
  | .move n => p.moveByWithin? n
  | .turn t => some (p.turn t)
  | .face h => some (p.face h)

/-- A path in such words. -/
def Piston.followWithin? (p : Piston) (path : List Manoeuvre) : Option Piston :=
  path.foldlM Piston.manoeuvreWithin? p

/-- A coordinate, a reduced distance and their sum are far below the bounds of a word. -/
theorem advanceWithin?_eq {coordinate : Nat} {unit : Int} (hcoordinate : coordinate < capacity)
    (hunit : unit = -1 ∨ unit = 0 ∨ unit = 1) (n : Int) :
    advanceWithin? coordinate unit n = some (wrap (coordinate + unit * (n % capacity))) := by
  have hlow : 0 ≤ n % (capacity : Int) := Int.emod_nonneg n (by decide)
  have hhigh : n % (capacity : Int) < capacity := Int.emod_lt_of_pos n (by decide)
  unfold advanceWithin?
  generalize n % (capacity : Int) = distance at hlow hhigh ⊢
  unfold capacity at hcoordinate hhigh
  have hdistance : signedWord? distance = some distance := if_pos (by omega)
  have hstep : signedWord? (unit * distance) = some (unit * distance) := by
    rcases hunit with rfl | rfl | rfl <;> exact if_pos (by omega)
  have hsum : signedWord? (coordinate + unit * distance) = some (coordinate + unit * distance) := by
    rcases hunit with rfl | rfl | rfl <;> exact if_pos (by omega)
  simp [hdistance, hstep, hsum]

theorem Heading.delta_units (h : Heading) :
    (h.delta.1 = -1 ∨ h.delta.1 = 0 ∨ h.delta.1 = 1) ∧
      (h.delta.2 = -1 ∨ h.delta.2 = 0 ∨ h.delta.2 = 1) := by
  cases h <;> decide

namespace Piston

variable {p : Piston}

/-- **Nothing overflows** in a move. -/
theorem moveByWithin?_eq (hx : p.x < capacity) (hy : p.y < capacity) (n : Int) :
    p.moveByWithin? n = some (p.moveBy n) := by
  rw [moveByWithin?, advanceWithin?_eq hx p.heading.delta_units.1,
    advanceWithin?_eq hy p.heading.delta_units.2]
  rfl

/-- **Nothing overflows** on a path: every move leaves the coordinates reduced for the next. -/
theorem followWithin?_eq (path : List Manoeuvre) :
    ∀ {p : Piston}, p.x < capacity → p.y < capacity →
      p.followWithin? path = some (p.follow path) := by
  induction path with
  | nil =>
    intro p _ _
    rfl
  | cons m path ih =>
    intro p hx hy
    show (p.manoeuvreWithin? m >>= fun q => q.followWithin? path) = some ((p.manoeuvre m).follow path)
    cases m with
    | move n =>
      rw [manoeuvreWithin?, moveByWithin?_eq hx hy]
      exact ih (wrap_lt _) (wrap_lt _)
    | turn t => exact ih hx hy
    | face h => exact ih hx hy

end Piston

/-! ## Closed paths -/

/-- There and back: the way back is made at the opposite heading. -/
def thereAndBack (n : Int) : List Manoeuvre :=
  [.move n, .turn .reverse, .move n, .turn .reverse]

/-- Round a square, counter-clockwise. -/
def square (n : Int) : List Manoeuvre := (List.replicate 4 [.move n, .turn .left]).flatten

section

variable {unit : Heading → Int} (hunit : ∀ h, unit h.reverse = -unit h) (h : Heading) (n : Int)

include hunit

theorem offset_thereAndBack : offset unit h (thereAndBack n) = 0 := by
  have hback : n * unit h.reverse = -(n * unit h) := by rw [hunit, Int.mul_neg]
  simp only [thereAndBack, offset_move, offset_turn, offset_nil, Heading.turn, hback]
  omega

/-- Opposite sides of a square cancel out. -/
theorem offset_square : offset unit h (square n) = 0 := by
  have hthird : n * unit h.turnLeft.turnLeft = -(n * unit h) := by
    rw [Heading.turnLeft_turnLeft, hunit, Int.mul_neg]
  have hfourth : n * unit h.turnLeft.turnLeft.turnLeft = -(n * unit h.turnLeft) := by
    rw [Heading.turnLeft_turnLeft, hunit, Int.mul_neg]
  show n * unit h + (n * unit h.turnLeft + (n * unit h.turnLeft.turnLeft +
    (n * unit h.turnLeft.turnLeft.turnLeft + 0))) = 0
  rw [hthird, hfourth]
  omega

end

/-- A path whose moves cancel out, and whose turns do, leads back to where it began. -/
theorem Piston.follow_eq_self {p : Piston} {path : List Manoeuvre} (hx : p.x < capacity)
    (hy : p.y < capacity) (hoffset₁ : offset (·.delta.1) p.heading path = 0)
    (hoffset₂ : offset (·.delta.2) p.heading path = 0)
    (hheading : path.foldl Heading.after p.heading = p.heading) : p.follow path = p := by
  rw [follow_eq path hx hy, hoffset₁, hoffset₂, hheading, Int.add_zero, Int.add_zero, wrap_of_lt hx,
    wrap_of_lt hy]

/-- **Displacement.** Any path of moves, turns and new headings changes nothing but position and
heading, and each coordinate ends where it began plus the sum, in exact integers, of every move times
the unit of its heading, reduced once.  In words of 64 bits the path leads to the same.  So moves along
one heading add up, going back undoes a move, and a square closes. -/
theorem displacement_law (p : Piston) (hx : p.x < capacity) (hy : p.y < capacity)
    (path : List Manoeuvre) :
    let q := p.follow path
    q = { p with x := q.x, y := q.y, heading := path.foldl Heading.after p.heading } ∧
    q.x < capacity ∧ q.y < capacity ∧
    (q.x : Int) = (p.x + offset (·.delta.1) p.heading path) % capacity ∧
    (q.y : Int) = (p.y + offset (·.delta.2) p.heading path) % capacity ∧
    p.followWithin? path = some q ∧
    (∀ ns : List Int, p.follow (ns.map .move) = p.moveBy ns.sum) ∧
    (∀ n, p.follow (thereAndBack n) = p) ∧
    (∀ n, p.follow (square n) = p) := by
  intro q
  have hq : q = _ := Piston.follow_eq path hx hy
  have hreverse₁ : ∀ h : Heading, h.reverse.delta.1 = -h.delta.1 := fun h => by rw [h.delta_reverse]
  have hreverse₂ : ∀ h : Heading, h.reverse.delta.2 = -h.delta.2 := fun h => by rw [h.delta_reverse]
  refine ⟨?_, ?_, ?_, ?_, ?_, Piston.followWithin?_eq path hx hy, ?_, ?_, ?_⟩
  · rw [hq]
  · rw [hq]
    exact wrap_lt _
  · rw [hq]
    exact wrap_lt _
  · rw [hq]
    exact natCast_wrap _
  · rw [hq]
    exact natCast_wrap _
  · intro ns
    have hheading : (ns.map Manoeuvre.move).foldl Heading.after p.heading = p.heading := by
      induction ns with
      | nil => rfl
      | cons n ns ih => exact ih
    rw [Piston.follow_eq _ hx hy, Piston.moveBy_eq, offset_moves, offset_moves, hheading]
  · intro n
    exact Piston.follow_eq_self hx hy (offset_thereAndBack hreverse₁ _ n)
      (offset_thereAndBack hreverse₂ _ n) p.heading.reverse_reverse
  · intro n
    have hheading : (square n).foldl Heading.after p.heading = p.heading := by
      cases p.heading <;> rfl
    exact Piston.follow_eq_self hx hy (offset_square hreverse₁ _ n) (offset_square hreverse₂ _ n)
      hheading

/-- The longest move back and the longest move on that a word holds, with all kinds of turns around
them. -/
def longHaul : List Manoeuvre :=
  [.move (-2 ^ 63), .turn .right, .move (2 ^ 63 - 1), .face .down, .move 5, .turn .reverse, .move (-3),
    .turn .left]

/-- The moves are made upward, to the right, downward and upward again; the piston ends in the last column
and heads left. -/
theorem displacement_law_longHaul :
    let p : Piston := .spawn 0 0 0 .up
    p.x < capacity ∧ p.y < capacity ∧
      offset (·.delta.1) p.heading longHaul = 9223372036854775807 ∧
      offset (·.delta.2) p.heading longHaul = 9223372036854775816 ∧
      (p.follow longHaul).x = 1048575 ∧ (p.follow longHaul).y = 8 ∧
      p.followWithin? longHaul = some { p with x := 1048575, y := 8, heading := .left } := by
  intro p
  have hx : p.x < capacity := by decide
  have hy : p.y < capacity := by decide
  obtain ⟨hq, _, _, hqx, hqy, hwithin, _⟩ := displacement_law p hx hy longHaul
  have hqx : (p.follow longHaul).x = 1048575 := Int.ofNat.inj (hqx.trans (by decide))
  have hqy : (p.follow longHaul).y = 8 := Int.ofNat.inj (hqy.trans (by decide))
  refine ⟨hx, hy, by decide, by decide, hqx, hqy, ?_⟩
  rw [hwithin, hq, hqx, hqy]
  rfl

end PistonGrid
