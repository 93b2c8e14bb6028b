import PistonGrid.Proofs.SimultaneousChanges

/-!
# Draining any queue

In a run of an engine every request finds its target and every identity is its own.  What a drain does to
the list does not depend on that: this module says what holds of every list and every queue, with
identities that occur twice, anchors that are missing and moves of pistons that are not there.

* `sublist_insertBeside` — an entrant joins, and nobody else moves.
* `apply_filter_sublist` — one request leaves all pistons in order but the one it moves;
  `drain_filter_sublist` — a queue leaves those in order that none of its requests moves.
* `drain_filter_eq` — they are all that is left when entrants and moved pistons are taken away.
-/

set_option autoImplicit false

namespace PistonGrid

theorem sublist_insertBeside (anchor : Nat) (entrant : Piston) (side : Side) (ps : List Piston) :
    ps.Sublist (insertBeside anchor entrant side ps) := by
  induction ps with
  | nil => exact List.nil_sublist _
  | cons p ps ih =>
    unfold insertBeside
    split
    · cases side with
      | left => exact List.sublist_cons_self entrant (p :: ps)
      | right => exact (List.sublist_cons_self entrant ps).cons_cons p
    · exact ih.cons_cons p

section

variable {keep : Piston → Bool}

/-- **One request** leaves those in order that it does not move. -/
theorem apply_filter_sublist {r : MergeRequest}
    (hkeep : ∀ p, keep p = true → r.mover? ≠ some p.id) (ps : List Piston) :
    (ps.filter keep).Sublist ((r.apply ps).filter keep) := by
  cases r with
  | fork anchor entrant side => exact (sublist_insertBeside anchor entrant side ps).filter keep
  | reprioritize id priority =>
    have hothers : ∀ l : List Piston, (l.filter (·.id != id)).filter keep = l.filter keep := by
      intro l
      rw [List.filter_filter]
      refine List.filter_congr fun p _ => ?_
      cases hp : keep p with
      | false => rfl
      | true =>
        have hne : p.id ≠ id := fun heq => hkeep p hp (congrArg some heq.symm)
        simpa using hne
    have hsame : ps.filter keep = ((MergeRequest.reprioritize id priority).apply ps).filter keep := by
      rw [← hothers ps, ← apply_reprioritize_filter id priority ps, hothers]
    exact hsame ▸ List.Sublist.refl _

/-- **A whole queue** leaves those in order that none of its requests moves. -/
theorem drain_filter_sublist {queue : List MergeRequest}
    (hkeep : ∀ p, keep p = true → p.id ∉ movers queue) (ps : List Piston) :
    (ps.filter keep).Sublist ((drain queue ps).filter keep) := by
  induction queue generalizing ps with
  | nil => exact List.Sublist.refl _
  | cons r queue ih =>
    have hfirst : ∀ p, keep p = true → r.mover? ≠ some p.id := fun p hp hmoved =>
      hkeep p hp (List.mem_filterMap.mpr ⟨r, List.mem_cons_self, hmoved⟩)
    have hrest : ∀ p, keep p = true → p.id ∉ movers queue := fun p hp hmoved =>
      hkeep p hp (mem_movers_cons r hmoved)
    exact (apply_filter_sublist hfirst ps).trans (ih hrest (r.apply ps))

/-- If no entrant counts among them, they are what they were: there are as many as before. -/
theorem drain_filter_eq {queue : List MergeRequest}
    (hkeep : ∀ p, keep p = true → p.id ∉ movers queue)
    (hentrants : ∀ p ∈ entrants queue, keep p = false) (ps : List Piston) :
    (drain queue ps).filter keep = ps.filter keep := by
  have hnone : (entrants queue).filter keep = [] := by
    rw [List.filter_eq_nil_iff]
    intro p hp
    simp [hentrants p hp]
  have hperm := (drain_perm queue ps).filter keep
  rw [List.filter_append, hnone, List.append_nil] at hperm
  exact ((drain_filter_sublist hkeep ps).eq_of_length hperm.length_eq.symm).symm

end

/-- **Any drain is lossless and leaves bystanders in order**, also with identities that occur twice,
missing anchors and missing pistons.  The drained list has the pistons it had and the entrants of the
queue, each as often and with everything as it was; those that no request moves keep their order.  An
engine that closes its cycle keeps of that list those that have not ended. -/
theorem drain_lossless (queue : List MergeRequest) (ps : List Piston) :
    (drain queue ps).Perm (ps ++ entrants queue) ∧
    (ps.filter (·.id ∉ movers queue)).Sublist (drain queue ps) ∧
    (∀ keep : Piston → Bool, (∀ p, keep p = true → p.id ∉ movers queue) →
      (∀ p ∈ entrants queue, keep p = false) → (drain queue ps).filter keep = ps.filter keep) ∧
    ∀ e : Engine, e.pistons = ps → e.shared.queue = queue →
      e.close.shared.queue = [] ∧ e.close.pistons = (drain queue ps).filter (!·.ended) := by
  refine ⟨drain_perm queue ps, ?_, fun keep hkeep hentrants => drain_filter_eq hkeep hentrants ps, ?_⟩
  · refine (drain_filter_sublist ?_ ps).trans List.filter_sublist
    intro p hp
    simpa using hp
  · rintro e rfl rfl
    exact ⟨rfl, rfl⟩

/-- Four pistons, two of them with the same identity. -/
def crowd : List Piston :=
  [.spawn 0 0 0 .right, { Piston.spawn 1 0 1 .right with priority := 5 },
    { Piston.spawn 1 0 2 .right with priority := 3 }, { Piston.spawn 2 0 3 .right with priority := 1 }]

/-- A move of a piston that is not there, an entrant without an anchor, a move of one of two namesakes, an
entrant with the identity of a piston that is there, and a move of an entrant. -/
def muddle : List MergeRequest :=
  [.reprioritize 7 9, .fork 9 (.spawn 10 1 0 .up) .left, .reprioritize 1 0,
    .fork 0 (.spawn 2 2 0 .up) .right, .reprioritize 10 4]

/-- An engine that is about to close a cycle on them. -/
def jammed : Engine where
  program := ⟨⟨fun _ _ => none, []⟩, .empty, .standard, []⟩
  pistons := crowd
  shared := { Shared.fresh [] with queue := muddle }
  cycles := 0
  runs := 1
  aborted := none

/-- The first and the last of the four are not moved, and the heading tells the last from its namesake
among the entrants. -/
theorem drain_lossless_muddle :
    (drain muddle crowd).map (·.id) = [1, 10, 0, 2, 1, 2] ∧
      (drain muddle crowd).Perm (crowd ++ entrants muddle) ∧
      (crowd.filter (·.id ∉ movers muddle)).map (·.id) = [0, 2] ∧
      (crowd.filter (·.id ∉ movers muddle)).Sublist (drain muddle crowd) ∧
      ((drain muddle crowd).filter fun p => p.id ∈ [0, 2] && p.heading == .right) =
        [.spawn 0 0 0 .right, { Piston.spawn 2 0 3 .right with priority := 1 }] ∧
      jammed.close.shared.queue = [] := by
  obtain ⟨hperm, hsublist, hexact, hclose⟩ := drain_lossless muddle crowd
  have hstay : ∀ p : Piston, (p.id ∈ [0, 2] && p.heading == .right) = true → p.id ∉ movers muddle := by
    intro p hp
    have hid : p.id = 0 ∨ p.id = 2 := by simpa using (Bool.and_eq_true_iff.mp hp).1
    rcases hid with hid | hid <;> rw [hid] <;> decide
  refine ⟨by decide, hperm, by decide, hsublist, ?_, (hclose jammed rfl rfl).1⟩
  exact (hexact _ hstay (by decide)).trans (by decide)

end PistonGrid
