import PistonGrid.Proofs.Requests

/-!
# Draining keeps the order of priority

While requests are merged, a piston that waits to be moved already carries its new priority but still
stands at its old place, so the list is in order only up to the pistons that are still waiting.

* `movers` — the pistons that a queue moves.
* `Orderly` — the invariant of the drain: nobody stands behind a piston of lower priority unless it
  still waits to be moved; every request tells the truth about its piston; entrants come with the
  priority of an anchor that does not move.
* `Orderly.apply` — one request keeps it.  `drain_descending` — a drained list is in order.
-/

set_option autoImplicit false

namespace PistonGrid

/-- The piston that a request moves. -/
def MergeRequest.mover? : MergeRequest → Option Nat
  | .fork _ _ _ => none
  | .reprioritize piston _ => some piston

/-- The pistons that a queue moves, in queue order. -/
def movers (queue : List MergeRequest) : List Nat := queue.filterMap MergeRequest.mover?

@[simp] theorem movers_nil : movers [] = [] := rfl

@[simp] theorem movers_fork (anchor : Nat) (p : Piston) (side : Side) (q : List MergeRequest) :
    movers (.fork anchor p side :: q) = movers q := rfl

@[simp] theorem movers_reprioritize (id : Nat) (priority : Int) (q : List MergeRequest) :
    movers (.reprioritize id priority :: q) = id :: movers q := rfl

@[simp] theorem movers_append (q₁ q₂ : List MergeRequest) :
    movers (q₁ ++ q₂) = movers q₁ ++ movers q₂ := List.filterMap_append

theorem mem_movers {id : Nat} {q : List MergeRequest} :
    id ∈ movers q ↔ ∃ priority, MergeRequest.reprioritize id priority ∈ q := by
  simp only [movers, List.mem_filterMap]
  constructor
  · rintro ⟨r, hr, hid⟩
    cases r with
    | fork anchor entrant side => cases hid
    | reprioritize piston priority =>
      cases hid
      exact ⟨priority, hr⟩
  · rintro ⟨priority, hr⟩
    exact ⟨_, hr, rfl⟩

theorem mem_movers_cons {id : Nat} {q : List MergeRequest} (r : MergeRequest) (h : id ∈ movers q) :
    id ∈ movers (r :: q) := by
  obtain ⟨priority, hr⟩ := mem_movers.mp h
  exact mem_movers.mpr ⟨priority, List.mem_cons_of_mem _ hr⟩

/-- Priorities fall along a list, as far as the pistons that satisfy `P` are concerned. -/
def DescendingOn (P : Piston → Prop) (ps : List Piston) : Prop :=
  ps.Pairwise fun a b => P b → b.priority ≤ a.priority

/-- Priorities fall along a list. -/
def Descending (ps : List Piston) : Prop := ps.Pairwise fun a b => b.priority ≤ a.priority

/-! ## The two insertions -/

/-- The place found for a piston is right, even if others stand out of order around it: all in front
have more, and the first behind it has no more. -/
theorem insertByPriority_descendingOn {P : Piston → Prop} {moving : Piston} {ps : List Piston}
    (h : DescendingOn P ps) :
    DescendingOn P (insertByPriority moving moving.priority ps) := by
  unfold DescendingOn at *
  induction ps with
  | nil => exact List.pairwise_singleton _ _
  | cons p ps ih =>
    obtain ⟨hp, hps⟩ := List.pairwise_cons.mp h
    unfold insertByPriority
    split
    · rename_i hle
      refine List.pairwise_cons.mpr ⟨?_, h⟩
      intro b hb hPb
      rcases List.mem_cons.mp hb with rfl | hb
      · exact hle
      · exact Int.le_trans (hp b hb hPb) hle
    · rename_i hgt
      refine List.pairwise_cons.mpr ⟨?_, ih hps⟩
      intro b hb hPb
      rcases List.mem_cons.mp ((insertByPriority_perm _ _ _).mem_iff.mp hb) with rfl | hb
      · omega
      · exact hp b hb hPb

/-- An entrant with the priority of its anchor fits in on either side of it. -/
theorem insertBeside_descendingOn {P : Piston → Prop} {anchor : Nat} {entrant : Piston} {side : Side}
    {ps : List Piston} (h : DescendingOn P ps) (hex : ∃ p ∈ ps, p.id = anchor)
    (hanchor : ∀ p ∈ ps, p.id = anchor → P p ∧ p.priority = entrant.priority) :
    DescendingOn P (insertBeside anchor entrant side ps) := by
  unfold DescendingOn at *
  induction ps with
  | nil => exact List.pairwise_singleton _ _
  | cons p ps ih =>
    obtain ⟨hp, hps⟩ := List.pairwise_cons.mp h
    unfold insertBeside
    split
    · rename_i hid
      have heq := (hanchor p List.mem_cons_self hid).2
      have hbehind : ∀ b ∈ ps, P b → b.priority ≤ entrant.priority := fun b hb hPb =>
        heq ▸ hp b hb hPb
      cases side with
      | left =>
        refine List.pairwise_cons.mpr ⟨?_, h⟩
        intro b hb hPb
        rcases List.mem_cons.mp hb with rfl | hb
        · omega
        · exact hbehind b hb hPb
      | right =>
        refine List.pairwise_cons.mpr ⟨?_, List.pairwise_cons.mpr ⟨hbehind, hps⟩⟩
        intro b hb hPb
        rcases List.mem_cons.mp hb with rfl | hb
        · omega
        · exact hp b hb hPb
    · rename_i hid
      -- the anchor is further back, and the entrant is bounded because the anchor is
      obtain ⟨q, hq, hqid⟩ := hex
      have hq' : q ∈ ps := by
        rcases List.mem_cons.mp hq with rfl | hq
        · exact absurd hqid hid
        · exact hq
      have htail : ∀ p ∈ ps, p.id = anchor → P p ∧ p.priority = entrant.priority :=
        fun p hp => hanchor p (List.mem_cons_of_mem _ hp)
      refine List.pairwise_cons.mpr ⟨?_, ih hps ⟨q, hq', hqid⟩ htail⟩
      intro b hb hPb
      rcases List.mem_cons.mp ((insertBeside_perm _ _ _ _).mem_iff.mp hb) with rfl | hb
      · obtain ⟨hPq, heq⟩ := htail q hq' hqid
        have := hp q hq' hPq
        omega
      · exact hp b hb hPb

/-! ## The invariant of the drain -/

/-- The list is in order up to the pistons that the rest of the queue still moves. -/
structure Orderly (queue : List MergeRequest) (ps : List Piston) : Prop where
  descending : DescendingOn (fun p => p.id ∉ movers queue) ps
  nodup : (ps.map (·.id) ++ (entrants queue).map (·.id)).Nodup
  targets : ∀ r ∈ queue, ∃ p ∈ ps, p.id = r.target
  announced : ∀ p ∈ ps, ∀ priority, MergeRequest.reprioritize p.id priority ∈ queue →
    p.priority = priority
  anchored : ∀ anchor entrant side, MergeRequest.fork anchor entrant side ∈ queue →
    anchor ∉ movers queue ∧ ∀ p ∈ ps, p.id = anchor → p.priority = entrant.priority

namespace Orderly

variable {queue : List MergeRequest} {ps : List Piston}

/-- Moving a piston: from now on it counts as placed. -/
theorem reprioritize {id : Nat} {priority : Int}
    (h : Orderly (.reprioritize id priority :: queue) ps) :
    Orderly queue ((MergeRequest.reprioritize id priority).apply ps) := by
  have hperm : ((MergeRequest.reprioritize id priority).apply ps).Perm ps := by
    simpa using apply_perm ps (.reprioritize id priority)
  have hmem : ∀ p, p ∈ (MergeRequest.reprioritize id priority).apply ps ↔ p ∈ ps :=
    fun p => hperm.mem_iff
  refine ⟨?_, ?_, ?_, ?_, ?_⟩
  · obtain ⟨p, hp, hid⟩ := h.targets _ List.mem_cons_self
    obtain ⟨moving, hfind⟩ : ∃ moving, findPiston? id ps = some moving :=
      Option.isSome_iff_exists.mp (List.find?_isSome.mpr ⟨p, hp, by simpa using hid⟩)
    have hmoving : moving.id = id := by simpa [findPiston?] using List.find?_some hfind
    have hpri : moving.priority = priority := by
      refine h.announced moving (List.mem_of_find?_eq_some hfind) priority ?_
      rw [hmoving]
      exact List.mem_cons_self
    have happ : (MergeRequest.reprioritize id priority).apply ps =
        insertByPriority moving moving.priority (removePiston id ps) := by
      simp only [MergeRequest.apply, hfind, hpri]
    rw [happ]
    refine insertByPriority_descendingOn ?_
    -- what is left of the list has no other piston of that identity
    have hnodup : (moving :: removePiston id ps).Pairwise fun a b => a.id ≠ b.id := by
      have hn := (List.nodup_append.mp h.nodup).1
      rw [← ((perm_of_findPiston? hfind).map (·.id)).nodup_iff] at hn
      exact List.pairwise_map.mp hn
    have hother : ∀ q ∈ removePiston id ps, q.id ≠ id := by
      intro q hq
      rw [← hmoving]
      exact ((List.pairwise_cons.mp hnodup).1 q hq).symm
    have hsub : DescendingOn (fun p => p.id ∉ movers (.reprioritize id priority :: queue))
        (removePiston id ps) := h.descending.sublist List.eraseP_sublist
    refine List.Pairwise.imp_of_mem ?_ hsub
    intro a b _ hb hab hnot
    refine hab ?_
    rw [movers_reprioritize]
    intro hin
    rcases List.mem_cons.mp hin with hin | hin
    · exact hother b hb hin
    · exact hnot hin
  · exact ((hperm.map _).append_right _).nodup_iff.mpr h.nodup
  · intro r hr
    obtain ⟨p, hp, hid⟩ := h.targets r (List.mem_cons_of_mem _ hr)
    exact ⟨p, (hmem p).mpr hp, hid⟩
  · intro p hp pr hr
    exact h.announced p ((hmem p).mp hp) pr (List.mem_cons_of_mem _ hr)
  · intro anchor entrant side hr
    obtain ⟨hnot, heq⟩ := h.anchored anchor entrant side (List.mem_cons_of_mem _ hr)
    exact ⟨fun hin => hnot (mem_movers_cons _ hin), fun p hp => heq p ((hmem p).mp hp)⟩

/-- Inserting an entrant: no later request can mean it. -/
theorem fork {anchor : Nat} {entrant : Piston} {side : Side}
    (h : Orderly (.fork anchor entrant side :: queue) ps) :
    Orderly queue ((MergeRequest.fork anchor entrant side).apply ps) := by
  have hperm : ((MergeRequest.fork anchor entrant side).apply ps).Perm (entrant :: ps) :=
    insertBeside_perm anchor entrant side ps
  have hmem : ∀ p, p ∈ (MergeRequest.fork anchor entrant side).apply ps ↔ p = entrant ∨ p ∈ ps :=
    fun p => hperm.mem_iff.trans List.mem_cons
  have hfresh : ∀ p ∈ ps, p.id ≠ entrant.id := by
    intro p hp heq
    have hdis := (List.nodup_append.mp h.nodup).2.2 p.id (List.mem_map_of_mem hp) entrant.id
    exact hdis (by simp) heq
  have hstrange : ∀ r ∈ queue, r.target ≠ entrant.id := by
    intro r hr heq
    obtain ⟨p, hp, hid⟩ := h.targets r (List.mem_cons_of_mem _ hr)
    exact hfresh p hp (hid.trans heq)
  refine ⟨?_, ?_, ?_, ?_, ?_⟩
  · obtain ⟨hnot, heq⟩ := h.anchored anchor entrant side List.mem_cons_self
    refine insertBeside_descendingOn h.descending (h.targets _ List.mem_cons_self) ?_
    intro p hp hid
    refine ⟨?_, heq p hp hid⟩
    rw [hid]
    exact hnot
  · have hnd := h.nodup
    rw [entrants_fork, List.map_cons] at hnd
    refine ((hperm.map _).append_right _).nodup_iff.mpr ?_
    rw [List.map_cons, List.cons_append]
    exact List.perm_middle.nodup_iff.mp hnd
  · intro r hr
    obtain ⟨p, hp, hid⟩ := h.targets r (List.mem_cons_of_mem _ hr)
    exact ⟨p, (hmem p).mpr (.inr hp), hid⟩
  · intro p hp pr hr
    rcases (hmem p).mp hp with rfl | hp
    · exact absurd rfl (hstrange _ hr)
    · exact h.announced p hp pr (List.mem_cons_of_mem _ hr)
  · intro anchor' entrant' side' hr
    obtain ⟨hnot, heq⟩ := h.anchored anchor' entrant' side' (List.mem_cons_of_mem _ hr)
    refine ⟨hnot, ?_⟩
    intro p hp hid
    rcases (hmem p).mp hp with rfl | hp
    · exact absurd hid.symm (hstrange _ hr)
    · exact heq p hp hid

theorem apply {r : MergeRequest} (h : Orderly (r :: queue) ps) : Orderly queue (r.apply ps) := by
  cases r with
  | fork anchor entrant side => exact h.fork
  | reprioritize id priority => exact h.reprioritize

end Orderly

/-- **A drained list is in order of priority.** -/
theorem drain_descending {queue : List MergeRequest} {ps : List Piston} (h : Orderly queue ps) :
    Descending (drain queue ps) := by
  induction queue generalizing ps with
  | nil =>
    rw [drain_nil]
    exact h.descending.imp fun hab => hab (by simp)
  | cons r queue ih =>
    rw [drain_cons]
    exact ih h.apply

end PistonGrid
