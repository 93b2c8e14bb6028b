import Mathlib.Data.List.Perm.Subperm
import PistonGrid.Proofs.Requests
import PistonGrid.Proofs.Runs
import PistonGrid.Proofs.Standard

/-!
# Identities

A piston is looked up by its identity when requests are merged, so two pistons of one identity would
be taken for each other.  That never happens, whatever instructions there are.

* `Engine.identities` — the identities in use: of the active pistons and of the waiting entrants.
* `Identified` — the invariant: these are distinct and below the next free identity, and the
  identities given out since the last reset are exactly those below it, each once and in order.
* `Identified.maintained` — it is kept by resets, kills and cycles, also by cycles that are stopped.
-/

set_option autoImplicit false

namespace PistonGrid

/-- The identities in use: those of the active pistons, then those of the waiting entrants. -/
def Engine.identities (e : Engine) : List Nat :=
  e.pistons.map (·.id) ++ (entrants e.shared.queue).map (·.id)

/-- Distinct identities below the next free one, and none given out twice. -/
structure Identified (past : List Event) (e : Engine) : Prop where
  nodup : e.identities.Nodup
  below : ∀ i ∈ e.identities, i < e.shared.nextId
  handedOut : handedOut past = List.range e.shared.nextId

theorem spawnAll_ids (starts : List StartPoint) :
    (Engine.spawnAll starts).map (·.id) = List.range starts.length := by
  unfold Engine.spawnAll
  apply List.ext_getElem
  · simp
  · intro i h₁ h₂
    simp [Piston.spawn]

namespace Identified

variable {past events : List Event} {e : Engine}

/-- Events that give out nothing do not matter. -/
theorem quiet (h : Identified past e) (hq : ∀ ev ∈ events, ∀ ids, ev.handOut ids = ids) :
    Identified (past ++ events) e := by
  refine ⟨h.nodup, h.below, ?_⟩
  rw [handedOut_append, ← h.handedOut]
  induction events with
  | nil => rfl
  | cons ev events ih =>
    rw [List.foldl_cons, hq ev List.mem_cons_self]
    exact ih fun ev' hev' => hq ev' (List.mem_cons_of_mem _ hev')

theorem reset (past : List Event) (e : Engine) :
    Identified (past ++ e.reset.events) e.reset.engine := by
  have hids : e.reset.engine.identities = List.range e.program.plane.starts.length := by
    simp [Engine.identities, Engine.reset, Shared.fresh, spawnAll_ids]
  refine ⟨?_, ?_, ?_⟩
  · rw [hids]
    exact List.nodup_range
  · intro i hi
    rw [hids] at hi
    exact List.mem_range.mp hi
  · rw [handedOut_append]
    rfl

/-- With fewer pistons and nothing waiting, the identities are as distinct as before. -/
theorem shrink {e' : Engine} (h : Identified past e)
    (hsub : (e'.pistons.map (·.id)).Subperm e.identities) (hq : e'.shared.queue = [])
    (hn : e'.shared.nextId = e.shared.nextId) : Identified past e' := by
  have hids : e'.identities = e'.pistons.map (·.id) := by simp [Engine.identities, hq]
  refine ⟨?_, ?_, ?_⟩
  · rw [hids]
    obtain ⟨l, hperm, hl⟩ := hsub
    exact hperm.nodup_iff.mp (h.nodup.sublist hl)
  · intro i hi
    rw [hids] at hi
    rw [hn]
    exact h.below i (hsub.subset hi)
  · rw [hn, h.handedOut]

theorem kill (h : Identified past e) : Identified past e.kill :=
  h.shrink (List.nil_subperm) rfl rfl

/-- A pass gives out the next identities, in order, to the entrants it queues. -/
theorem pass (h : Identified past e) :
    Identified (past ++ (stepAll e.program e.shared e.pistons).events)
      { e with
        pistons := (stepAll e.program e.shared e.pistons).pistons
        shared := (stepAll e.program e.shared e.pistons).shared } := by
  obtain ⟨added, hq⟩ := stepAll_queued e.program e.shared e.pistons
  have hids := stepAll_ids e.program e.shared e.pistons
  refine ⟨?_, ?_, ?_⟩
  · simp only [Engine.identities]
    rw [hids]
    exact hq.nodup h.nodup h.below
  · simp only [Engine.identities]
    rw [hids]
    exact hq.below h.below
  · rw [handedOut_append, hq.handOut, hq.ids, h.handedOut]
    have happ := List.range'_append_1 (s := 0) (m := e.shared.nextId) (n := (entrants added).length)
    rw [Nat.zero_add] at happ
    simp only [hq.nextId]
    rw [List.range_eq_range', List.range_eq_range', happ]

theorem close (h : Identified past e) : Identified past e.close := by
  refine h.shrink ?_ rfl rfl
  have hperm := (drain_perm e.shared.queue e.pistons).map (·.id)
  rw [List.map_append] at hperm
  exact ((List.filter_sublist.map _).subperm).trans hperm.subperm

/-- **Identities stay distinct** through every call, and none is given out twice. -/
theorem maintained (program : Program) : Maintained program Identified where
  reset past e _ := reset past e
  kill past e _ h := h.kill
  advance past e _ _ _ h := by
    have hpass := h.pass
    unfold Engine.advance
    simp only
    split
    · rw [← List.append_assoc]
      exact Identified.quiet ⟨hpass.nodup, hpass.below, hpass.handedOut⟩ (by simp [Event.handOut])
    · rw [← List.append_assoc]
      exact hpass.kill.close.quiet (by simp [Event.handOut])
    · rw [← List.append_assoc]
      exact hpass.close.quiet (by simp [Event.handOut])

end Identified

/-- **Identity.** After every sequence of calls on an engine over any registry, the identities of the
active pistons and of the entrants waiting in the queue are distinct and below the next free one, and
the identities given out since the last reset are those below the next free one, each once. -/
theorem identities_distinct (program : Program) (calls : List Call) :
    (program.after calls).identities.Nodup ∧
      (∀ i ∈ (program.after calls).identities, i < (program.after calls).shared.nextId) ∧
      (handedOut (program.chronicle calls)).Nodup ∧
      handedOut (program.chronicle calls) = List.range (program.after calls).shared.nextId := by
  have h := (Identified.maintained program).after calls
  refine ⟨h.nodup, h.below, ?_, h.handedOut⟩
  rw [h.handedOut]
  exact List.nodup_range

/-- One piston forks, and the other meets a word that means nothing. -/
def stranded : Program :=
  .onBlank [((0, 0), .plain 0x4 0), ((0, 1), .plain 0x2 0)] [⟨0, 0, .right⟩, ⟨0, 1, .right⟩]

/-- The entrant that an abort leaves in the queue has an identity of its own. -/
theorem identities_distinct_stranded :
    (stranded.after [.cycle]).identities = [0, 1, 2] ∧
      2 < (stranded.after [.cycle]).shared.nextId :=
  ⟨rfl, (identities_distinct stranded [.cycle]).2.1 2 (by decide)⟩

end PistonGrid
