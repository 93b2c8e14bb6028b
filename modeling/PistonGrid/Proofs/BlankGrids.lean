import PistonGrid.Proofs.FirstHalt
import PistonGrid.Proofs.GridCells
import PistonGrid.Proofs.Lifecycle
import PistonGrid.Proofs.StandardWords

/-!
# Walking over a blank grid

On a grid of blanks every piston walks straight on until it has left, so the size of the grid says how
long a run takes.  Coordinates are numbers modulo `capacity`: over the left or the upper edge a piston
comes to the coordinate `capacity - 1`, which is outside every grid that is narrower than that.  A grid
that is not has no edge there, and a piston goes round it forever.

* `Grid.stay` — for how many cycles a piston stays in the list; `Grid.stay_walk` — one less after each.
* `Grid.Endless` — a walk that goes round the grid; `Piston.Circles.walk` — it never leaves.
* `Piston.walk` — what a cycle makes of a piston.  `Engine.Walks.advance` — a cycle does that to all
  pistons, and nothing else.
* `Engine.Walks.runWithin` — the loop of a run takes as long as the longest stay.
-/

set_option autoImplicit false

namespace PistonGrid

/-! ## Blank grids -/

namespace Grid

/-- Every cell holds a `BLANK`. -/
def IsBlank (g : Grid) : Prop :=
  ∀ x y, g.Inside x y → ∃ w, g.wordAt? x y = some w ∧ w.StandsFor Catalog.blank

/-- For how many cycles a piston stays in the list that walks over blanks.  In the last of them it stands
outside. -/
def stay (g : Grid) (x y : Nat) (heading : Heading) : Nat :=
  if g.Inside x y then
    match heading with
    | .right => g.width - x + 1
    | .left => x + 2
    | .down => g.height - y + 1
    | .up => y + 2
  else 1

/-- The walk goes along a side that is at least as long as coordinates go. -/
def Endless (g : Grid) (x y : Nat) (heading : Heading) : Prop :=
  g.Inside x y ∧
    match heading with
    | .left | .right => capacity ≤ g.width
    | .up | .down => capacity ≤ g.height

variable {g : Grid} {x y : Nat}

theorem isBlank_blank (width height : Nat) (starts : List StartPoint) :
    { blank width height with starts }.IsBlank := by
  intro x y hin
  exact ⟨.blank, (Depicts.blank width height).words x y hin, _, rfl, rfl⟩

theorem stay_inside (h : g.Inside x y) (heading : Heading) :
    g.stay x y heading =
      match heading with
      | .right => g.width - x + 1
      | .left => x + 2
      | .down => g.height - y + 1
      | .up => y + 2 := if_pos h

theorem stay_outside (h : ¬ g.Inside x y) (heading : Heading) : g.stay x y heading = 1 := if_neg h

theorem stay_pos (heading : Heading) : 0 < g.stay x y heading := by
  unfold stay
  split
  · cases heading <;> simp
  · exact Nat.one_pos

theorem stay_le (hwidth : g.width < capacity) (hheight : g.height < capacity) (heading : Heading) :
    g.stay x y heading ≤ capacity + 1 := by
  unfold stay
  split
  · rename_i hin
    obtain ⟨hx, hy⟩ := hin
    cases heading <;> simp only <;> omega
  · omega

end Grid

/-! ## One piston -/

/-- What a cycle over blanks makes of a piston: inside it moves on, outside it ends. -/
def Piston.walk (g : Grid) (p : Piston) : Piston :=
  if g.Inside p.x p.y then { p with executed := p.executed + 1 }.moveBy 1 else p.retire

/-- The piston goes round the grid. -/
structure Piston.Circles (g : Grid) (p : Piston) : Prop where
  x_lt : p.x < capacity
  y_lt : p.y < capacity
  endless : g.Endless p.x p.y p.heading

section

variable {g : Grid} {p : Piston}

theorem Piston.walk_inside (h : g.Inside p.x p.y) :
    p.walk g = { p with
      x := wrap (p.x + p.heading.delta.1)
      y := wrap (p.y + p.heading.delta.2)
      executed := p.executed + 1 } := by
  have hone : (1 : Int) % capacity = 1 := by decide
  simp [walk, h, moveBy, hone]

theorem Piston.walk_outside (h : ¬ g.Inside p.x p.y) : p.walk g = p.retire := if_neg h

/-- **A walk of one cell leaves one cycle less to stay.**  Over the left and the upper edge this is so
because the grid is narrower than the coordinates go. -/
theorem Grid.stay_walk (hwidth : g.width < capacity) (hheight : g.height < capacity)
    (h : g.Inside p.x p.y) :
    g.stay (p.walk g).x (p.walk g).y (p.walk g).heading = g.stay p.x p.y p.heading - 1 := by
  have hin := h
  have hwalk := Piston.walk_inside h
  unfold capacity at hwidth hheight
  by_cases hnext : g.Inside (p.walk g).x (p.walk g).y
  · -- there is a cell ahead
    rw [stay_inside hnext, stay_inside h]
    cases hh : p.heading <;>
      simp only [hwalk, hh, Inside, Heading.delta, wrap, capacity] at hin hnext ⊢ <;> omega
  · -- the piston stands at an edge and steps over it
    rw [stay_outside hnext, stay_inside h]
    cases hh : p.heading <;>
      simp only [hwalk, hh, Inside, Heading.delta, wrap, capacity] at hin hnext ⊢ <;> omega

theorem Piston.Circles.walk (h : p.Circles g) : (p.walk g).Circles g := by
  obtain ⟨hx, hy, hin, hlong⟩ := h
  rw [Piston.walk_inside hin]
  refine ⟨wrap_lt _, wrap_lt _, ?_⟩
  obtain ⟨hin₁, hin₂⟩ := hin
  cases hh : p.heading <;>
    simp only [hh, Grid.Endless, Grid.Inside, Heading.delta, wrap, capacity] at hx hy hlong ⊢ <;> omega

theorem Piston.Circles.active (h : p.Circles g) (hend : p.ended = false) : (p.walk g).ended = false := by
  rw [Piston.walk_inside h.endless.1]
  exact hend

end

/-! ## Cycles and runs -/

/-- The engine stands over a blank grid: it has not failed, nothing is queued, nobody in the list has ended
and nothing has been written. -/
structure Engine.Walks (g : Grid) (e : Engine) : Prop where
  plane : e.program.plane = g.plane
  registry : e.program.registry = .standard
  aborted : e.aborted = none
  settled : Settled e
  output : e.shared.channel.output = ""

/-- The longest stay of a piston of a list. -/
def longestStay (g : Grid) (ps : List Piston) : Nat :=
  (ps.map fun p => g.stay p.x p.y p.heading).foldr max 0

@[simp] theorem longestStay_nil (g : Grid) : longestStay g [] = 0 := rfl

@[simp] theorem longestStay_cons (g : Grid) (p : Piston) (ps : List Piston) :
    longestStay g (p :: ps) = max (g.stay p.x p.y p.heading) (longestStay g ps) := rfl

section

variable {g : Grid} {program : Program}

/-- Over a blank grid a piston takes its step without a trace in what is shared. -/
theorem Piston.step_walk (hblank : g.IsBlank) (hplane : program.plane = g.plane)
    (hreg : program.registry = .standard) (s : Shared) (p : Piston) :
    ∃ st, p.step program s = .ok st ∧ st.piston = p.walk g ∧ st.shared = s ∧ st.verdict ≠ .kill := by
  by_cases hin : g.Inside p.x p.y
  · obtain ⟨w, hw, hstands⟩ := hblank p.x p.y hin
    rw [← show program.plane.wordAt? = g.wordAt? by rw [hplane]; rfl] at hw
    exact ⟨_, hstands.step hreg hw s, (if_pos hin).symm, rfl, nofun⟩
  · have hw : program.plane.wordAt? p.x p.y = none := by
      rw [hplane]
      exact Grid.wordAt?_outside hin
    exact ⟨_, Piston.step_outside hw, (walk_outside hin).symm, rfl, nofun⟩

/-- So does the whole list. -/
theorem Steps.walk (hblank : g.IsBlank) (hplane : program.plane = g.plane)
    (hreg : program.registry = .standard) (s : Shared) (ps : List Piston) :
    ∃ sts, Steps program s ps sts s ∧ sts.map (·.piston) = ps.map (·.walk g) := by
  induction ps with
  | nil => exact ⟨[], .nil s, rfl⟩
  | cons p ps ih =>
    obtain ⟨sts, hs, hpistons⟩ := ih
    obtain ⟨st, hst, hpiston, rfl, hgoes⟩ := Piston.step_walk hblank hplane hreg s p
    exact ⟨st :: sts, .cons hst hgoes hs, by rw [List.map_cons, List.map_cons, hpiston, hpistons]⟩

end

/-- Those that end had one cycle to stay, and all others one more than after the cycle. -/
theorem longestStay_walk {g : Grid} (hwidth : g.width < capacity) (hheight : g.height < capacity)
    {ps : List Piston} (hactive : ∀ p ∈ ps, p.ended = false) :
    longestStay g ((ps.map (·.walk g)).filter (!·.ended)) = longestStay g ps - 1 := by
  induction ps with
  | nil => rfl
  | cons p ps ih =>
    obtain ⟨hp, hps⟩ := List.forall_mem_cons.mp hactive
    rw [List.map_cons, longestStay_cons]
    by_cases hin : g.Inside p.x p.y
    · have hstays : (p.walk g).ended = false := by rw [Piston.walk_inside hin, hp]
      rw [List.filter_cons_of_pos (by simp [hstays]), longestStay_cons, ih hps,
        Grid.stay_walk hwidth hheight hin]
      omega
    · have hleaves : (p.walk g).ended = true := by rw [Piston.walk_outside hin]; rfl
      rw [List.filter_cons_of_neg (by simp [hleaves]), ih hps, Grid.stay_outside hin]
      omega

namespace Engine.Walks

variable {g : Grid} {e : Engine}

/-- **A cycle over a blank grid** succeeds, walks every piston, and is counted. -/
theorem advance (h : e.Walks g) (hblank : g.IsBlank) :
    e.advance.error = none ∧ e.advance.engine.Walks g ∧
      e.advance.engine.pistons = (e.pistons.map (·.walk g)).filter (!·.ended) ∧
      e.advance.engine.cycles = e.cycles + 1 := by
  obtain ⟨sts, hs, hpistons⟩ := Steps.walk hblank h.plane h.registry e.shared e.pistons
  unfold Engine.advance
  rw [hs.stepAll_eq, hpistons]
  simp only [close, h.settled.queue, drain_nil]
  refine ⟨trivial, ⟨h.plane, h.registry, h.aborted, ⟨rfl, ?_⟩, h.output⟩, trivial, trivial⟩
  intro p hp
  simpa using (List.mem_filter.mp hp).2

theorem isEnded_iff (h : e.Walks g) : e.isEnded = true ↔ longestStay g e.pistons = 0 := by
  rw [h.settled.isEnded_iff]
  cases e.pistons with
  | nil => simp
  | cons p ps =>
    have hpos := g.stay_pos (x := p.x) (y := p.y) p.heading
    rw [longestStay_cons]
    simp only [reduceCtorEq, false_iff]
    omega

/-- The loop of a run: each cycle takes one from the longest stay, until the list is empty. -/
theorem runWithin (hblank : g.IsBlank) (hwidth : g.width < capacity) (hheight : g.height < capacity) :
    ∀ (budget : Nat) {e : Engine} (seen : Array Event), e.Walks g → longestStay g e.pistons ≤ budget →
      (e.runWithin budget seen).error = none ∧ (e.runWithin budget seen).engine.Walks g ∧
        (e.runWithin budget seen).engine.isEnded = true ∧
        (e.runWithin budget seen).engine.cycles = e.cycles + longestStay g e.pistons := by
  intro budget
  induction budget with
  | zero =>
    intro e seen h hle
    have hzero : longestStay g e.pistons = 0 := Nat.le_zero.mp hle
    have hend := h.isEnded_iff.mpr hzero
    simp [Engine.runWithin, h.aborted, hend, h, hzero]
  | succ budget ih =>
    intro e seen h hle
    cases hend : e.isEnded with
    | true => simp [Engine.runWithin, h.aborted, hend, h, h.isEnded_iff.mp hend]
    | false =>
      have hpos : longestStay g e.pistons ≠ 0 := fun hzero => by simp [h.isEnded_iff.mpr hzero] at hend
      obtain ⟨hok, hwalks, hpistons, hcount⟩ := h.advance hblank
      have hstay := longestStay_walk hwidth hheight h.settled.active
      rw [← hpistons] at hstay
      obtain ⟨herr, hwalks', hended, hcycles⟩ := ih (seen ++ e.advance.events) hwalks (by omega)
      simp only [Engine.runWithin, h.aborted, hend, hok, Bool.false_eq_true, if_false]
      exact ⟨herr, hwalks', hended, by omega⟩

/-- A piston that goes round the grid is there after any number of cycles. -/
theorem cycles (hblank : g.IsBlank) :
    ∀ (n : Nat) {e : Engine}, e.Walks g → (∃ p ∈ e.pistons, p.Circles g) →
      (e.callAll (List.replicate n .cycle)).Walks g ∧
        ∃ p ∈ (e.callAll (List.replicate n .cycle)).pistons, p.Circles g
  | 0, _, h, hp => ⟨h, hp⟩
  | n + 1, e, h, ⟨p, hp, hcircles⟩ => by
    obtain ⟨_, hwalks, hpistons, _⟩ := h.advance hblank
    have hnext : p.walk g ∈ e.advance.engine.pistons := by
      rw [hpistons, List.mem_filter]
      exact ⟨List.mem_map_of_mem hp, by simp [hcircles.active (h.settled.active p hp)]⟩
    show (e.cycle.engine.callAll (List.replicate n .cycle)).Walks g ∧
      ∃ p ∈ (e.cycle.engine.callAll (List.replicate n .cycle)).pistons, p.Circles g
    rw [cycle_of_active h.aborted (isEnded_of_mem hp)]
    exact cycles hblank n hwalks ⟨p.walk g, hnext, hcircles.walk⟩

/-- A new engine over a blank grid. -/
theorem start (g : Grid) (config : Config) (input : List Char) :
    (Engine.start ⟨g.plane, .standard, config, input⟩).engine.Walks g :=
  ⟨rfl, rfl, rfl, .reset _, rfl⟩

end Engine.Walks

/-! ## Start points -/

/-- For how many cycles the piston of a start point stays in the list. -/
def Grid.lifetime (g : Grid) (s : StartPoint) : Nat :=
  g.stay (s.x.toNat % capacity) (s.y.toNat % capacity) s.heading

/-- No lifetime on a grid with edges is longer than the way across the plane. -/
theorem Grid.foldr_lifetime_le {g : Grid} (hwidth : g.width < capacity) (hheight : g.height < capacity)
    (starts : List StartPoint) : (starts.map g.lifetime).foldr max 0 ≤ capacity + 1 := by
  induction starts with
  | nil => simp
  | cons s starts ih =>
    rw [List.map_cons, List.foldr_cons]
    exact Nat.max_le.mpr ⟨stay_le hwidth hheight s.heading, ih⟩

/-- The pistons of the start points stand at their coordinates, modulo `capacity`. -/
theorem spawnAll_places {α : Type} (f : Nat → Nat → Heading → α) (starts : List StartPoint) :
    (Engine.spawnAll starts).map (fun p => f p.x p.y p.heading) =
      starts.map fun s => f (s.x.toNat % capacity) (s.y.toNat % capacity) s.heading := by
  unfold Engine.spawnAll
  apply List.ext_getElem
  · simp
  · intro i _ _
    simp [Piston.spawn, wrap_natCast]

/-- The piston of a start point whose walk has no end goes round the grid. -/
theorem exists_circles {g : Grid} {starts : List StartPoint} {s : StartPoint} (hs : s ∈ starts)
    (h : g.Endless (s.x.toNat % capacity) (s.y.toNat % capacity) s.heading) :
    ∃ p ∈ Engine.spawnAll starts, p.Circles g := by
  have hplaces := spawnAll_places (fun x y heading => (x, y, heading)) starts
  obtain ⟨p, hp, hplace⟩ := List.mem_map.mp (hplaces ▸ List.mem_map_of_mem hs)
  simp only [Prod.mk.injEq] at hplace
  obtain ⟨hx, hy, hheading⟩ := hplace
  refine ⟨p, hp, ?_, ?_, ?_⟩
  · rw [hx]
    exact Nat.mod_lt _ (by decide)
  · rw [hy]
    exact Nat.mod_lt _ (by decide)
  · rw [hx, hy, hheading]
    exact h

/-- **Running time on blank grids, and the edge of the plane**, for any start points and without a limit
on cycles. If both sides are shorter than the coordinates go, the run succeeds and takes as many cycles
as the longest stay of a start point. If some start point inside heads along a side that is not shorter,
the engine goes on forever. -/
theorem blank_grid_running_time (g : Grid) (hblank : g.IsBlank) (config : Config)
    (hlimit : config.maxCycles = none) (input : List Char) :
    let e := (Engine.start ⟨g.plane, .standard, config, input⟩).engine
    (g.width < capacity → g.height < capacity →
      e.run.error = none ∧ e.run.engine.isEnded = true ∧
        e.run.engine.shared.channel.output = "" ∧
        e.run.engine.cycles = (g.starts.map g.lifetime).foldr max 0) ∧
    (∀ s ∈ g.starts, g.Endless (s.x.toNat % capacity) (s.y.toNat % capacity) s.heading →
      ∀ n, (e.callAll (List.replicate n .cycle)).aborted = none ∧
        (e.callAll (List.replicate n .cycle)).isEnded = false) := by
  intro e
  have hwalks : e.Walks g := .start g config input
  constructor
  · intro hwidth hheight
    have hstay : longestStay g e.pistons = (g.starts.map g.lifetime).foldr max 0 :=
      congrArg (List.foldr max 0) (spawnAll_places g.stay g.starts)
    have hbudget : longestStay g e.pistons ≤ config.cycleBound - e.cycles := by
      have hle := Grid.foldr_lifetime_le hwidth hheight g.starts
      have hbound : capacity + 1 ≤ config.cycleBound - 0 := by
        simp [Config.cycleBound, hlimit, capacity]
      rw [hstay]
      exact Nat.le_trans hle hbound
    obtain ⟨herr, hlast, hended, hcycles⟩ :=
      Engine.Walks.runWithin hblank hwidth hheight _ #[] hwalks hbudget
    refine ⟨herr, hended, hlast.output, ?_⟩
    calc e.run.engine.cycles = 0 + longestStay g e.pistons := hcycles
      _ = (g.starts.map g.lifetime).foldr max 0 := by rw [Nat.zero_add, hstay]
  · intro s hs hendless n
    obtain ⟨hlater, q, hq, _⟩ := Engine.Walks.cycles hblank n hwalks (exists_circles hs hendless)
    exact ⟨hlater.aborted, Engine.isEnded_of_mem hq⟩

/-- Two pistons leave over the right and the left edge, one over the lower edge from a column whose number
is a whole turn too high, and one starts outside. -/
def room : Grid :=
  { Grid.blank 3 2 with
    starts := [⟨1, 0, .right⟩, ⟨2, 1, .left⟩, ⟨1048576, 0, .down⟩, ⟨7, 7, .up⟩] }

/-- One row round the whole plane. -/
def belt : Grid := { Grid.blank 1048576 1 with starts := [⟨0, 0, .left⟩] }

/-- The room is empty after four cycles; the piston on the belt is never done. -/
theorem blank_grid_running_time_room :
    room.starts.map room.lifetime = [3, 4, 3, 1] ∧
      (Engine.start ⟨room.plane, .standard, .standard, []⟩).engine.run.error = none ∧
      (Engine.start ⟨room.plane, .standard, .standard, []⟩).engine.run.engine.cycles = 4 ∧
      ∀ n, ((Engine.start ⟨belt.plane, .standard, .standard, []⟩).engine.callAll
        (List.replicate n .cycle)).isEnded = false := by
  have hroom : room.IsBlank := Grid.isBlank_blank 3 2 _
  have hbelt : belt.IsBlank := Grid.isBlank_blank 1048576 1 _
  have hlifetimes : room.starts.map room.lifetime = [3, 4, 3, 1] := by decide
  have hlongest : (room.starts.map room.lifetime).foldr max 0 = 4 := by rw [hlifetimes]; rfl
  obtain ⟨herr, _, _, hcycles⟩ :=
    (blank_grid_running_time room hroom .standard rfl []).1 (by decide) (by decide)
  have hendless : belt.Endless 0 0 .left := ⟨⟨Nat.zero_lt_succ _, Nat.one_pos⟩, Nat.le_refl capacity⟩
  have hforever := (blank_grid_running_time belt hbelt .standard rfl []).2 ⟨0, 0, .left⟩
    List.mem_cons_self hendless
  exact ⟨hlifetimes, herr, hcycles.trans hlongest, fun n => (hforever n).2⟩

end PistonGrid
