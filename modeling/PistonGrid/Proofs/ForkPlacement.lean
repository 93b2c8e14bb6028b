import PistonGrid.Engine.Basic
import PistonGrid.Proofs.Requests

/-!
# Where copies join the list

Copies join one after the other, and each of them moves the places at which later ones join.  If all
of them join beside pistons that were there before, the outcome has a closed form: every piston of the
list is surrounded by its own copies, and no piston changes its place relative to the others.

* `joining` — the entrants on one side of an anchor, in queue order.
* `surrounded` — a piston between those on its left, the last of them next to it, and those on its
  right, again the last of them next to it.
* `insertBeside_flatMap` — one more request, in a list of which every piston is surrounded.
-/

set_option autoImplicit false

namespace PistonGrid

/-- The entrants that a queue brings to one side of an anchor, in queue order. -/
def joining (anchor : Nat) (side : Side) (queue : List MergeRequest) : List Piston :=
  queue.filterMap fun
    | .fork a entrant s => if a = anchor ∧ s = side then some entrant else none
    | .reprioritize _ _ => none

/-- The entrants on the left of a piston in queue order, the piston, and those on its right in reverse
queue order. -/
def surrounded (queue : List MergeRequest) (p : Piston) : List Piston :=
  joining p.id .left queue ++ [p] ++ (joining p.id .right queue).reverse

/-! ## One more request -/

section

variable {anchor : Nat} {entrant : Piston} {side : Side} {queue : List MergeRequest}
  {p : Piston} {ps : List Piston}

theorem mem_entrants_of_mem_joining {q : Piston} (h : q ∈ joining anchor side queue) :
    q ∈ entrants queue := by
  obtain ⟨r, hr, hq⟩ := List.mem_filterMap.mp h
  refine List.mem_filterMap.mpr ⟨r, hr, ?_⟩
  cases r with
  | fork a e s =>
    simp only [Option.ite_none_right_eq_some] at hq
    exact hq.2
  | reprioritize id priority => cases hq

theorem joining_concat (a : Nat) (s : Side) :
    joining a s (queue ++ [.fork anchor entrant side]) =
      if anchor = a ∧ side = s then joining a s queue ++ [entrant] else joining a s queue := by
  unfold joining
  rw [List.filterMap_append]
  split
  · rename_i h
    simp [h]
  · rename_i h
    simp [h]

theorem surrounded_of_ne (h : p.id ≠ anchor) :
    surrounded (queue ++ [.fork anchor entrant side]) p = surrounded queue p := by
  have hne : ¬ anchor = p.id := fun heq => h heq.symm
  simp [surrounded, joining_concat, hne]

/-- An entrant passes over everyone who is not its anchor. -/
theorem insertBeside_append {front back : List Piston} (h : ∀ q ∈ front, q.id ≠ anchor) :
    insertBeside anchor entrant side (front ++ back) =
      front ++ insertBeside anchor entrant side back := by
  induction front with
  | nil => rfl
  | cons q front ih =>
    obtain ⟨hq, hfront⟩ := List.forall_mem_cons.mp h
    simp [insertBeside, hq, ih hfront]

/-- Nobody around a piston carries the identity of an anchor, except the piston itself. -/
theorem id_ne_of_mem_joining (hentrants : ∀ q ∈ entrants queue, q.id ≠ anchor) {a : Nat} {s : Side} :
    ∀ q ∈ joining a s queue, q.id ≠ anchor :=
  fun q hq => hentrants q (mem_entrants_of_mem_joining hq)

/-- At its anchor an entrant takes the place next to it. -/
theorem insertBeside_surrounded (hentrants : ∀ q ∈ entrants queue, q.id ≠ anchor)
    (hp : p.id = anchor) (back : List Piston) :
    insertBeside anchor entrant side (surrounded queue p ++ back) =
      surrounded (queue ++ [.fork anchor entrant side]) p ++ back := by
  unfold surrounded
  rw [List.append_assoc, List.append_assoc, List.singleton_append,
    insertBeside_append (id_ne_of_mem_joining hentrants)]
  cases side with
  | left => simp [insertBeside, joining_concat, hp]
  | right => simp [insertBeside, joining_concat, hp]

/-- **One more request.** If every piston of a list is surrounded by the entrants so far, the next
entrant joins those around its anchor. -/
theorem insertBeside_flatMap (hnodup : (ps.map (·.id)).Nodup) (hanchor : anchor ∈ ps.map (·.id))
    (hentrants : ∀ q ∈ entrants queue, q.id ≠ anchor) :
    insertBeside anchor entrant side (ps.flatMap (surrounded queue)) =
      ps.flatMap (surrounded (queue ++ [.fork anchor entrant side])) := by
  induction ps with
  | nil => cases hanchor
  | cons p ps ih =>
    obtain ⟨hp, hps⟩ := List.nodup_cons.mp hnodup
    rw [List.flatMap_cons, List.flatMap_cons]
    by_cases hid : p.id = anchor
    · rw [insertBeside_surrounded hentrants hid]
      have hothers : ∀ q ∈ ps, surrounded (queue ++ [.fork anchor entrant side]) q =
          surrounded queue q := by
        intro q hq
        exact surrounded_of_ne fun heq => hp (List.mem_map.mpr ⟨q, hq, heq.trans hid.symm⟩)
      rw [List.flatMap_def, List.flatMap_def, List.map_congr_left hothers]
    · have hrest : anchor ∈ ps.map (·.id) := by
        rw [List.map_cons] at hanchor
        exact (List.mem_cons.mp hanchor).resolve_left fun heq => hid heq.symm
      have hnone : ∀ q ∈ surrounded queue p, q.id ≠ anchor := by
        simp only [surrounded, List.forall_mem_append, List.forall_mem_singleton, List.mem_reverse]
        exact ⟨⟨id_ne_of_mem_joining hentrants, hid⟩, id_ne_of_mem_joining hentrants⟩
      rw [insertBeside_append hnone, ih hps hrest, surrounded_of_ne hid]

end

/-! ## A whole queue -/

/-- The rest of a queue, in a list of which every piston is surrounded by the entrants so far. -/
theorem drain_surrounded {ps : List Piston} (hnodup : (ps.map (·.id)).Nodup) :
    ∀ (rest done : List MergeRequest),
      (∀ r ∈ rest, ∃ anchor entrant side, r = .fork anchor entrant side) →
      (∀ r ∈ rest, r.target ∈ ps.map (·.id)) →
      (∀ q ∈ entrants (done ++ rest), ∀ r ∈ rest, q.id ≠ r.target) →
      drain rest (ps.flatMap (surrounded done)) = ps.flatMap (surrounded (done ++ rest))
  | [], done, _, _, _ => by rw [drain_nil, List.append_nil]
  | r :: rest, done, hforks, hanchors, hentrants => by
    obtain ⟨⟨anchor, entrant, side, rfl⟩, hforks'⟩ := List.forall_mem_cons.mp hforks
    obtain ⟨hanchor, hanchors'⟩ := List.forall_mem_cons.mp hanchors
    have hstep : insertBeside anchor entrant side (ps.flatMap (surrounded done)) =
        ps.flatMap (surrounded (done ++ [.fork anchor entrant side])) := by
      refine insertBeside_flatMap hnodup hanchor fun q hq => ?_
      refine hentrants q ?_ _ List.mem_cons_self
      rw [entrants_append]
      exact List.mem_append_left _ hq
    rw [List.append_cons] at hentrants ⊢
    rw [drain_cons, MergeRequest.apply, hstep]
    exact drain_surrounded hnodup rest _ hforks' hanchors' fun q hq r hr =>
      hentrants q hq r (List.mem_cons_of_mem _ hr)

/-- **Closed form of a drain of forks.** Take a list of pistons with distinct identities and a queue of
forks, all of them anchored in the list and none with an entrant that could be taken for an anchor.
Draining the queue puts around each piston, in list order, the entrants on its left in queue order and
those on its right in reverse queue order, and nothing else.  An engine that closes its cycle on such a
queue has that list, less the pistons that have ended, and an empty queue. -/
theorem fork_only_drain {queue : List MergeRequest} {ps : List Piston}
    (hnodup : (ps.map (·.id)).Nodup)
    (hforks : ∀ r ∈ queue, ∃ anchor entrant side, r = .fork anchor entrant side)
    (hanchors : ∀ r ∈ queue, r.target ∈ ps.map (·.id))
    (hentrants : ∀ q ∈ entrants queue, ∀ r ∈ queue, q.id ≠ r.target) :
    drain queue ps = ps.flatMap (surrounded queue) ∧
      ∀ e : Engine, e.pistons = ps → e.shared.queue = queue →
        e.close.shared.queue = [] ∧
          e.close.pistons = (ps.flatMap (surrounded queue)).filter (!·.ended) := by
  have hstart : ps.flatMap (surrounded []) = ps := List.flatMap_singleton' ps
  have hdrain := drain_surrounded hnodup queue [] hforks hanchors hentrants
  rw [hstart, List.nil_append] at hdrain
  refine ⟨hdrain, ?_⟩
  rintro e rfl rfl
  refine ⟨rfl, ?_⟩
  rw [← hdrain]
  rfl

/-- Three pistons side by side. -/
def threeAbreast : List Piston := [.spawn 0 0 0 .right, .spawn 1 0 1 .right, .spawn 2 0 2 .right]

/-- Copies on both sides of the second piston and to the right of the first, in mixed order. -/
def mixedForks : List MergeRequest :=
  [.fork 1 (.spawn 10 0 0 .up) .left, .fork 0 (.spawn 11 0 0 .up) .right,
    .fork 1 (.spawn 12 0 0 .up) .right, .fork 1 (.spawn 13 0 0 .up) .left,
    .fork 0 (.spawn 14 0 0 .up) .right, .fork 1 (.spawn 15 0 0 .up) .right]

theorem fork_only_drain_mixedForks :
    (drain mixedForks threeAbreast).map (·.id) = [0, 14, 11, 10, 13, 1, 15, 12, 2] := by
  have hforks : ∀ r ∈ mixedForks, ∃ anchor entrant side, r = .fork anchor entrant side := by
    simp [mixedForks]
  have hdrain : drain mixedForks threeAbreast = threeAbreast.flatMap (surrounded mixedForks) :=
    (fork_only_drain (by decide) hforks (by decide) (by decide)).1
  rw [hdrain]
  decide

end PistonGrid
