import PistonGrid.Numeral

/-!
# Shared memory

A memory maps addresses to numbers below `capacity`; an address that was never written reads as zero.
The written cells are kept in ascending order of address, each address once.

* `Memory.lookup_set` — what is found in the cells after a write.
* `Memory.sorted_set` — a write keeps the cells strictly ascending.
-/

set_option autoImplicit false

namespace PistonGrid

/-- The written cells, ascending by address. -/
structure Memory where
  cells : List (Nat × Nat) := []
deriving DecidableEq, Repr

namespace Memory

/-- No cell written yet. -/
def empty : Memory := {}

/-- The contents of an address, zero if it was never written. -/
def get (m : Memory) (address : Nat) : Nat := (m.cells.lookup address).getD 0

/-- Put a cell in its place, replacing the one of the same address. -/
def insertCell (address value : Nat) : List (Nat × Nat) → List (Nat × Nat)
  | [] => [(address, value)]
  | (a, v) :: rest =>
    if address < a then (address, value) :: (a, v) :: rest
    else if address = a then (address, value) :: rest
    else (a, v) :: insertCell address value rest

/-- Write a value, reduced modulo `capacity`. -/
def set (m : Memory) (address : Nat) (value : Int) : Memory :=
  ⟨insertCell address (wrap value) m.cells⟩

/-- Number of written cells. -/
def size (m : Memory) : Nat := m.cells.length

/-- No cell is written. -/
def isEmpty (m : Memory) : Bool := m.cells.isEmpty

/-- Cells in strictly ascending order of address. -/
def Sorted (cells : List (Nat × Nat)) : Prop := cells.Pairwise (fun p q => p.1 < q.1)

theorem lookup_insertCell (address value a : Nat) (cells : List (Nat × Nat)) (h : Sorted cells) :
    (insertCell address value cells).lookup a =
      if a = address then some value else cells.lookup a := by
  induction cells with
  | nil =>
    by_cases ha : a = address
    · simp [insertCell, ha]
    · have hne : (a == address) = false := by simpa using ha
      simp [insertCell, List.lookup_cons, hne, ha]
  | cons p rest ih =>
    obtain ⟨b, v⟩ := p
    have hrest : Sorted rest := (List.pairwise_cons.1 h).2
    unfold insertCell
    by_cases ha : a = address
    · subst ha
      by_cases h1 : a < b
      · simp [h1]
      · by_cases h2 : a = b
        · simp [h2]
        · have hab : (a == b) = false := by simpa using h2
          simp [h1, h2, List.lookup_cons, hab, ih hrest]
    · have hne : (a == address) = false := by simpa using ha
      by_cases h1 : address < b
      · simp [h1, List.lookup_cons, hne, ha]
      · by_cases h2 : address = b
        · subst h2
          simp [List.lookup_cons, hne, ha]
        · by_cases hab : a = b
          · subst hab
            simp [h1, h2, ha]
          · have hab' : (a == b) = false := by simpa using hab
            simp [h1, h2, List.lookup_cons, hab', ih hrest, ha]

theorem mem_insertCell {address value : Nat} {cells : List (Nat × Nat)} {p : Nat × Nat}
    (h : p ∈ insertCell address value cells) : p = (address, value) ∨ p ∈ cells := by
  induction cells with
  | nil => simpa [insertCell] using h
  | cons q rest ih =>
    unfold insertCell at h
    split at h
    · simpa using h
    · split at h
      · rcases List.mem_cons.1 h with h | h
        · exact .inl h
        · exact .inr (List.mem_cons_of_mem _ h)
      · rcases List.mem_cons.1 h with h | h
        · exact .inr (h ▸ List.mem_cons_self)
        · exact (ih h).imp_right (List.mem_cons_of_mem _)

theorem sorted_insertCell (address value : Nat) {cells : List (Nat × Nat)} (h : Sorted cells) :
    Sorted (insertCell address value cells) := by
  induction cells with
  | nil => simp [insertCell, Sorted]
  | cons q rest ih =>
    obtain ⟨b, v⟩ := q
    have hq := List.pairwise_cons.1 h
    unfold insertCell
    split
    · rename_i hlt
      refine List.pairwise_cons.2 ⟨fun r hr => ?_, h⟩
      rcases List.mem_cons.1 hr with rfl | hr
      · exact hlt
      · exact Nat.lt_trans hlt (hq.1 r hr)
    · split
      · rename_i heq
        subst heq
        exact List.pairwise_cons.2 ⟨hq.1, hq.2⟩
      · refine List.pairwise_cons.2 ⟨fun r hr => ?_, ih hq.2⟩
        rcases mem_insertCell hr with rfl | hr
        · show b < address
          omega
        · exact hq.1 r hr

theorem lookup_set (m : Memory) (h : Sorted m.cells) (address : Nat) (value : Int) (a : Nat) :
    (m.set address value).cells.lookup a =
      if a = address then some (wrap value) else m.cells.lookup a :=
  lookup_insertCell address (wrap value) a m.cells h

theorem sorted_set (m : Memory) (h : Sorted m.cells) (address : Nat) (value : Int) :
    Sorted (m.set address value).cells := sorted_insertCell _ _ h

end Memory

end PistonGrid
