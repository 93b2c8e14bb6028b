import PistonGrid.Proofs.SimultaneousChanges

/-!
# The last change of priority wins

A piston may change its priority several times before the queue is drained, and every change leaves a
request of its own.  Each of them takes the piston out of the list and puts it back somewhere else, so
what counts in the end is the last one, unless somebody has looked at the piston's place meanwhile.

* `UpToPlace` — two lists that differ at most in the place of one piston.  A move of the piston leads to
  such a list (`UpToPlace.of_move`), and from two such lists to one and the same (`UpToPlace.move_eq`).
* `removePiston_insertBeside` — to take out a piston and to bring in another one at another anchor can be
  done in either order.
* `MergeRequest.Blind` — the requests that do not look at the place of a piston.  `UpToPlace.drain` — along
  a queue of them it makes no difference whether the moves of the piston are carried out.
* `drain_withoutMoves` — all moves of the piston but the last can be left out.
-/

set_option autoImplicit false

namespace PistonGrid

/-- No two pistons of a list share the given identity. -/
def Unambiguous (id : Nat) (ps : List Piston) : Prop := (ps.map (·.id)).count id ≤ 1

/-- Two lists that differ at most in the place of one piston: the same piston is found in both, and the
same pistons in the same order are left without it. -/
structure UpToPlace (id : Nat) (ps qs : List Piston) : Prop where
  found : findPiston? id ps = findPiston? id qs
  others : removePiston id ps = removePiston id qs

namespace MergeRequest

/-- The request does not look at the place of a piston: it moves that piston, or it brings another one to
another anchor. -/
def Blind (id : Nat) : MergeRequest → Prop
  | .fork anchor entrant _ => anchor ≠ id ∧ entrant.id ≠ id
  | .reprioritize piston _ => piston = id

end MergeRequest

/-- A queue without the moves of one piston. -/
def withoutMoves (id : Nat) (queue : List MergeRequest) : List MergeRequest :=
  queue.filter (·.mover? != some id)

section

variable {id anchor : Nat} {priority : Int} {moving entrant : Piston} {side : Side}
  {ps qs : List Piston} {queue : List MergeRequest}

/-! ## Taking out and putting back -/

theorem removePiston_of_findPiston?_none (h : findPiston? id ps = none) : removePiston id ps = ps :=
  List.eraseP_of_forall_not (List.find?_eq_none.mp h)

theorem id_of_findPiston? (h : findPiston? id ps = some moving) : moving.id = id := by
  simpa [findPiston?] using List.find?_some h

/-- When the piston is taken out, nobody of its identity is left. -/
theorem Unambiguous.others_ne (hone : Unambiguous id ps) (hfind : findPiston? id ps = some moving) :
    ∀ p ∈ removePiston id ps, p.id ≠ id := by
  have hcount := ((perm_of_findPiston? hfind).map (·.id)).count_eq id
  rw [List.map_cons, id_of_findPiston? hfind, List.count_cons_self] at hcount
  have hnone : ((removePiston id ps).map (·.id)).count id = 0 := by
    unfold Unambiguous at hone
    omega
  intro p hp heq
  exact List.count_eq_zero.mp hnone (List.mem_map.mpr ⟨p, hp, heq⟩)

theorem exists_insertByPriority_eq (moving : Piston) (priority : Int) (ps : List Piston) :
    ∃ front back, insertByPriority moving priority ps = front ++ moving :: back ∧ front ++ back = ps :=
  ⟨_, _, insertByPriority_eq moving priority ps, List.takeWhile_append_dropWhile⟩

/-- A piston that was put among others is found there. -/
theorem findPiston?_insertByPriority (hmoving : moving.id = id) (hothers : ∀ p ∈ ps, p.id ≠ id) :
    findPiston? id (insertByPriority moving priority ps) = some moving := by
  obtain ⟨front, back, heq, rfl⟩ := exists_insertByPriority_eq moving priority ps
  have hfront : front.find? (·.id == id) = none := by
    refine List.find?_eq_none.mpr fun p hp => ?_
    simpa using hothers p (List.mem_append_left _ hp)
  rw [heq, findPiston?, List.find?_append, hfront, Option.none_or,
    List.find?_cons_of_pos (by simpa using hmoving)]

/-- A piston that was put among others can be taken out again. -/
theorem removePiston_insertByPriority (hmoving : moving.id = id) (hothers : ∀ p ∈ ps, p.id ≠ id) :
    removePiston id (insertByPriority moving priority ps) = ps := by
  obtain ⟨front, back, heq, rfl⟩ := exists_insertByPriority_eq moving priority ps
  have hfront : ∀ p ∈ front, ¬ (p.id == id) = true := by
    intro p hp
    simpa using hothers p (List.mem_append_left _ hp)
  rw [heq, removePiston, List.eraseP_append_right _ hfront,
    List.eraseP_cons_of_pos (by simpa using hmoving)]

theorem findPiston?_insertBeside (hentrant : entrant.id ≠ id) :
    findPiston? id (insertBeside anchor entrant side ps) = findPiston? id ps := by
  unfold findPiston?
  induction ps with
  | nil => simp [insertBeside, hentrant]
  | cons p ps ih =>
    unfold insertBeside
    split
    · cases side with
      | left => simp [hentrant]
      | right => simp [List.find?_cons, hentrant]
    · rw [List.find?_cons, List.find?_cons, ih]

/-- **Taking out and bringing in commute**, if it is another piston that is brought in, and not beside the
one that is taken out. -/
theorem removePiston_insertBeside (hanchor : anchor ≠ id) (hentrant : entrant.id ≠ id) :
    removePiston id (insertBeside anchor entrant side ps) =
      insertBeside anchor entrant side (removePiston id ps) := by
  unfold removePiston
  induction ps with
  | nil => simp [insertBeside, hentrant]
  | cons p ps ih =>
    by_cases hp : p.id = id
    · -- the entrant passes over the piston that is taken out
      simp [insertBeside, hp, hanchor.symm]
    · by_cases hpa : p.id = anchor
      · cases side with
        | left => simp [insertBeside, hpa, hentrant, hanchor]
        | right => simp [insertBeside, hpa, hentrant, hanchor]
      · simp [insertBeside, hp, hpa, ih]

/-! ## Up to the place of one piston -/

namespace UpToPlace

theorem refl (id : Nat) (ps : List Piston) : UpToPlace id ps ps := ⟨rfl, rfl⟩

/-- A move of the piston makes no other difference than its place. -/
theorem of_move (hone : Unambiguous id ps) (h : UpToPlace id ps qs) :
    UpToPlace id ((MergeRequest.reprioritize id priority).apply ps) qs := by
  cases hfind : findPiston? id ps with
  | none =>
    simp only [MergeRequest.apply, hfind]
    exact h
  | some moving =>
    have hmoving := id_of_findPiston? hfind
    have hothers := hone.others_ne hfind
    simp only [MergeRequest.apply, hfind]
    constructor
    · rw [findPiston?_insertByPriority hmoving hothers, ← hfind, h.found]
    · rw [removePiston_insertByPriority hmoving hothers, h.others]

/-- A move of the piston forgets the place it had. -/
theorem move_eq (h : UpToPlace id ps qs) (priority : Int) :
    (MergeRequest.reprioritize id priority).apply ps =
      (MergeRequest.reprioritize id priority).apply qs := by
  have hfound := h.found
  cases hfind : findPiston? id qs with
  | none =>
    -- nobody moves, and there is nobody to take out: the lists are the same
    rw [hfind] at hfound
    simp only [MergeRequest.apply, hfound, hfind]
    rw [← removePiston_of_findPiston?_none hfound, h.others, removePiston_of_findPiston?_none hfind]
  | some moving =>
    rw [hfind] at hfound
    simp only [MergeRequest.apply, hfound, hfind, h.others]

/-- An entrant that joins elsewhere takes no notice of the piston's place. -/
theorem fork (hanchor : anchor ≠ id) (hentrant : entrant.id ≠ id) (h : UpToPlace id ps qs) :
    UpToPlace id ((MergeRequest.fork anchor entrant side).apply ps)
      ((MergeRequest.fork anchor entrant side).apply qs) := by
  simp only [MergeRequest.apply]
  constructor
  · rw [findPiston?_insertBeside hentrant, findPiston?_insertBeside hentrant, h.found]
  · rw [removePiston_insertBeside hanchor hentrant, removePiston_insertBeside hanchor hentrant, h.others]

end UpToPlace

/-! ## Along a queue -/

theorem Unambiguous.drain (hone : Unambiguous id ps) (hentrants : ∀ p ∈ entrants queue, p.id ≠ id) :
    Unambiguous id (drain queue ps) := by
  have hnone : ((entrants queue).map (·.id)).count id = 0 := by
    refine List.count_eq_zero.mpr fun hmem => ?_
    obtain ⟨p, hp, heq⟩ := List.mem_map.mp hmem
    exact hentrants p hp heq
  have hcount := ((drain_perm queue ps).map (·.id)).count_eq id
  rw [List.map_append, List.count_append, hnone, Nat.add_zero] at hcount
  rw [Unambiguous, hcount]
  exact hone

theorem MergeRequest.Blind.entrant_ne {r : MergeRequest} (h : r.Blind id) :
    ∀ p ∈ entrants [r], p.id ≠ id := by
  cases r with
  | fork anchor entrant side => simpa using h.2
  | reprioritize piston priority => simp

@[simp] theorem withoutMoves_nil : withoutMoves id [] = [] := rfl

@[simp] theorem withoutMoves_fork :
    withoutMoves id (.fork anchor entrant side :: queue) =
      .fork anchor entrant side :: withoutMoves id queue := rfl

@[simp] theorem withoutMoves_reprioritize :
    withoutMoves id (.reprioritize id priority :: queue) = withoutMoves id queue := by
  simp [withoutMoves, MergeRequest.mover?]

theorem withoutMoves_of_forks (h : ∀ r ∈ queue, ∃ anchor entrant side, r = .fork anchor entrant side) :
    withoutMoves id queue = queue := by
  refine List.filter_eq_self.mpr fun r hr => ?_
  obtain ⟨anchor, entrant, side, rfl⟩ := h r hr
  rfl

theorem withoutMoves_replicate (n : Nat) :
    withoutMoves id (List.replicate n (.reprioritize id priority)) = [] :=
  List.filter_replicate_of_neg (by simp [MergeRequest.mover?])

/-- **Along a queue of requests that do not look at the piston's place** it makes no difference, except
for that place, whether the moves of the piston are carried out. -/
theorem UpToPlace.drain (hblind : ∀ r ∈ queue, r.Blind id) (hone : Unambiguous id ps)
    (h : UpToPlace id ps qs) :
    UpToPlace id (drain queue ps) (drain (withoutMoves id queue) qs) := by
  -- the two lists take the entrants side by side, and a move is carried out in the first one only
  induction queue generalizing ps qs with
  | nil => exact h
  | cons r queue ih =>
    obtain ⟨hr, hrest⟩ := List.forall_mem_cons.mp hblind
    have hone' : Unambiguous id (r.apply ps) := hone.drain hr.entrant_ne
    cases r with
    | fork anchor entrant side =>
      rw [withoutMoves_fork]
      exact ih hrest hone' (h.fork hr.1 hr.2)
    | reprioritize piston priority =>
      cases hr
      rw [withoutMoves_reprioritize]
      exact ih hrest hone' (h.of_move hone)

/-- **All moves but the last can be left out**, if the requests between them do not look at the piston's
place. -/
theorem drain_withoutMoves {before : List MergeRequest} (hblind : ∀ r ∈ queue, r.Blind id)
    (hone : Unambiguous id (drain before ps)) (priority : Int) (after : List MergeRequest) :
    drain (before ++ queue ++ [.reprioritize id priority] ++ after) ps =
      drain (before ++ withoutMoves id queue ++ [.reprioritize id priority] ++ after) ps := by
  have hsame := ((UpToPlace.refl id (drain before ps)).drain hblind hone).move_eq priority
  simp only [drain_append, drain_cons, drain_nil, hsame]

end

/-- **The last of several changes of priority wins.** If only forks that are not anchored on the piston
stand between two changes of its priority, and no entrant in front of the second has its identity, the
drained list is the same without the first.  So a repeated change does what it does once, and a piston
that changes its priority twice while it executes ends up as the second change alone makes it. -/
theorem last_priority_change_wins {id : Nat} {ps : List Piston} {q₁ q₂ : List MergeRequest}
    (hnodup : (ps.map (·.id)).Nodup) (hentrants : ∀ p ∈ entrants (q₁ ++ q₂), p.id ≠ id)
    (hforks : ∀ r ∈ q₂, ∃ anchor entrant side, r = .fork anchor entrant side ∧ anchor ≠ id)
    (p₁ p₂ : Int) (q₃ : List MergeRequest) :
    drain (q₁ ++ [.reprioritize id p₁] ++ q₂ ++ [.reprioritize id p₂] ++ q₃) ps =
        drain (q₁ ++ q₂ ++ [.reprioritize id p₂] ++ q₃) ps ∧
      (∀ n, drain (q₁ ++ List.replicate (n + 1) (.reprioritize id p₂) ++ q₃) ps =
        drain (q₁ ++ [.reprioritize id p₂] ++ q₃) ps) ∧
      ∀ c : Context, c.piston.id = id → c.shared.queue = q₁ →
        let once := (Action.setPriority p₂).apply c
        let twice := (Action.setPriority p₂).apply ((Action.setPriority p₁).apply c)
        twice.piston = once.piston ∧
          drain (twice.shared.queue ++ q₃) ps = drain (once.shared.queue ++ q₃) ps := by
  rw [entrants_append, List.forall_mem_append] at hentrants
  have hone : Unambiguous id (drain q₁ ps) :=
    Unambiguous.drain (List.nodup_iff_count.mp hnodup id) hentrants.1
  have hfirst : (MergeRequest.reprioritize id p₁).Blind id := rfl
  refine ⟨?_, ?_, ?_⟩
  · have hblind : ∀ r ∈ q₂, r.Blind id := by
      intro r hr
      obtain ⟨anchor, entrant, side, rfl, hanchor⟩ := hforks r hr
      exact ⟨hanchor, hentrants.2 entrant (List.mem_filterMap.mpr ⟨_, hr, rfl⟩)⟩
    have hkept : withoutMoves id q₂ = q₂ := by
      refine withoutMoves_of_forks fun r hr => ?_
      obtain ⟨anchor, entrant, side, hr, _⟩ := hforks r hr
      exact ⟨anchor, entrant, side, hr⟩
    rw [List.append_assoc q₁, List.singleton_append,
      drain_withoutMoves (List.forall_mem_cons.mpr ⟨hfirst, hblind⟩) hone,
      withoutMoves_reprioritize, hkept]
  · intro n
    have hblind : ∀ r ∈ List.replicate n (MergeRequest.reprioritize id p₂), r.Blind id := by
      intro r hr
      rw [List.eq_of_mem_replicate hr]
      rfl
    rw [List.replicate_succ', ← List.append_assoc, drain_withoutMoves hblind hone,
      withoutMoves_replicate, List.append_nil]
  · rintro c rfl rfl
    refine ⟨rfl, ?_⟩
    have hdrain := drain_withoutMoves (List.forall_mem_singleton.mpr hfirst) hone p₂ q₃
    rw [withoutMoves_reprioritize, withoutMoves_nil, List.append_nil] at hdrain
    exact hdrain

/-- An entrant beside the first piston, and a move of the second one. -/
def beforehand : List MergeRequest := [.fork 0 (.spawn 10 0 0 .up) .right, .reprioritize 1 4]

/-- Entrants beside the second piston, without an anchor, and beside an entrant. -/
def meantime : List MergeRequest :=
  [.fork 1 (.spawn 11 0 0 .up) .left, .fork 99 (.spawn 12 0 0 .up) .left,
    .fork 11 (.spawn 13 0 0 .up) .right]

/-- An entrant beside the third piston, and a move of the first one. -/
def afterwards : List MergeRequest := [.fork 2 (.spawn 14 0 0 .up) .right, .reprioritize 0 2]

/-- The third of four pistons, about to change its priority. -/
def wavering : Context :=
  ⟨{ Piston.spawn 2 0 2 .right with priority := 3 }, { Shared.fresh [] with queue := beforehand }⟩

/-- The first change does move the piston, and the entrants that follow find it elsewhere. -/
theorem last_priority_change_wins_wavering :
    let ps := lineUp [9, 5, 3, 1]
    let twice := (Action.setPriority 0).apply ((Action.setPriority 7).apply wavering)
    (drain (beforehand ++ [.reprioritize 2 7] ++ meantime) ps).map (·.id) = [0, 2, 11, 13, 1, 10, 3, 12] ∧
      (drain (beforehand ++ meantime) ps).map (·.id) = [0, 11, 13, 1, 10, 2, 3, 12] ∧
      (drain (beforehand ++ [.reprioritize 2 7] ++ meantime ++ [.reprioritize 2 0] ++ afterwards) ps).map
        (·.id) = [2, 0, 14, 11, 13, 1, 10, 3, 12] ∧
      drain (beforehand ++ List.replicate 3 (.reprioritize 2 0) ++ afterwards) ps =
        drain (beforehand ++ [.reprioritize 2 0] ++ afterwards) ps ∧
      drain (twice.shared.queue ++ afterwards) ps =
        drain (beforehand ++ [.reprioritize 2 0] ++ afterwards) ps := by
  have hforks : ∀ r ∈ meantime, ∃ anchor entrant side, r = .fork anchor entrant side ∧ anchor ≠ 2 := by
    simp [meantime]
  have hnodup : ((lineUp [9, 5, 3, 1]).map (·.id)).Nodup := by decide
  have hentrants : ∀ p ∈ entrants (beforehand ++ meantime), p.id ≠ 2 := by decide
  obtain ⟨hlast, hrepeated, hexecuted⟩ :=
    last_priority_change_wins hnodup hentrants hforks 7 0 afterwards
  refine ⟨by decide, by decide, ?_, hrepeated 2, (hexecuted wavering rfl rfl).2⟩
  rw [hlast]
  decide

-- An entrant beside the piston looks at its place, and so does a move of another piston.
example :
    drain [.reprioritize 1 9, .fork 1 (.spawn 10 0 0 .up) .left, .reprioritize 1 (-1)]
        [.spawn 0 0 0 .right, .spawn 1 0 1 .right] ≠
      drain [.fork 1 (.spawn 10 0 0 .up) .left, .reprioritize 1 (-1)]
        [.spawn 0 0 0 .right, .spawn 1 0 1 .right] := by decide

example :
    drain [.reprioritize 1 9, .reprioritize 2 4, .reprioritize 1 0]
        [{ Piston.spawn 0 0 0 .right with priority := 5 }, .spawn 1 0 1 .right, .spawn 2 0 2 .right] ≠
      drain [.reprioritize 2 4, .reprioritize 1 0]
        [{ Piston.spawn 0 0 0 .right with priority := 5 }, .spawn 1 0 1 .right, .spawn 2 0 2 .right] := by
  decide

end PistonGrid
