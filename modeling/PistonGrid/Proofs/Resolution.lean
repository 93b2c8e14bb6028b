import PistonGrid.Proofs.Lifecycle
import PistonGrid.Proofs.Requests

/-!
# Every merge request finds its target

A request names a piston by its identity, and is carried out on a list that earlier requests have
changed.  The drain has an answer for a target that is missing, with a warning in the log.  No engine
ever gives it: requests are made on behalf of pistons in the list, draining takes nobody out of it, and
those that ended leave only after the drain.

* `Resolved` — every request of a queue finds its target when its turn comes.
* `Engine.pass_resolved` — so it is with whatever a pass of a settled engine has queued.
* `Event.Warns` — the events that leave a warning: a missing target, or an abort (`Event.warns_cases`).
* `Engine.advance_warns` — a cycle leaves no warning but that of an abort.
-/

set_option autoImplicit false

namespace PistonGrid

/-! ## Targets -/

/-- Every request of a queue finds its target in the list as the requests before it leave it. -/
def Resolved : List MergeRequest → List Piston → Prop
  | [], _ => True
  | r :: rest, ps => (findPiston? r.target ps).isSome = true ∧ Resolved rest (r.apply ps)

theorem findPiston?_isSome {id : Nat} {ps : List Piston} (h : id ∈ ps.map (·.id)) :
    (findPiston? id ps).isSome = true := by
  obtain ⟨p, hp, hid⟩ := List.mem_map.mp h
  exact List.find?_isSome.mpr ⟨p, hp, by simpa using hid⟩

/-- A request takes no identity out of the list. -/
theorem mem_ids_apply {id : Nat} {ps : List Piston} (r : MergeRequest) (h : id ∈ ps.map (·.id)) :
    id ∈ (r.apply ps).map (·.id) := by
  obtain ⟨p, hp, rfl⟩ := List.mem_map.mp h
  exact List.mem_map_of_mem ((apply_perm ps r).mem_iff.mpr (List.mem_append_left _ hp))

theorem Resolved.of_targets {queue : List MergeRequest} {ps : List Piston}
    (h : ∀ r ∈ queue, r.target ∈ ps.map (·.id)) : Resolved queue ps := by
  induction queue generalizing ps with
  | nil => trivial
  | cons r queue ih =>
    obtain ⟨hr, hqueue⟩ := List.forall_mem_cons.mp h
    exact ⟨findPiston?_isSome hr, ih fun r' hr' => mem_ids_apply r (hqueue r' hr')⟩

/-- **A pass queues nothing in vain**, however it ends. -/
theorem Engine.pass_resolved {e : Engine} (h : Settled e) :
    Resolved (stepAll e.program e.shared e.pistons).shared.queue
      (stepAll e.program e.shared e.pistons).pistons := by
  obtain ⟨added, hadd⟩ := stepAll_queued e.program e.shared e.pistons
  refine .of_targets ?_
  rw [stepAll_ids, hadd.queue, h.queue, List.nil_append]
  exact hadd.target

/-! ## Warnings -/

/-- The event leaves a warning in the log. -/
def Event.Warns (ev : Event) : Prop := ∃ r, ev.record? = some r ∧ r.level = .warn

/-- The event tells of an abort. -/
def Event.isAbort : Event → Bool
  | .aborted _ _ _ _ _ => true
  | _ => false

/-- The placement tells of a missing target. -/
def Placement.isMissing : Placement → Bool
  | .anchorMissing _ _ => true
  | .pistonMissing _ => true
  | _ => false

theorem Placement.isMissing_iff {p : Placement} : p.isMissing = true ↔ p.record.level = .warn := by
  cases p <;> simp [isMissing, record]

theorem Event.warns_placed_iff {p : Placement} : (Event.placed p).Warns ↔ p.isMissing = true := by
  simp [Warns, record?, Placement.isMissing_iff]

/-- Two kinds of events leave a warning. -/
theorem Event.warns_cases {ev : Event} (h : ev.Warns) :
    ev.isAbort = true ∨ ∃ p : Placement, ev = .placed p ∧ p.isMissing = true := by
  cases ev with
  | aborted => exact .inl rfl
  | placed p => exact .inr ⟨p, rfl, warns_placed_iff.mp h⟩
  | _ => simp [Warns, record?] at h

/-- What is found leaves no warning. -/
theorem Resolved.found {queue : List MergeRequest} {ps : List Piston} (h : Resolved queue ps) :
    ∀ p ∈ placements queue ps, p.isMissing = false := by
  induction queue generalizing ps with
  | nil => simp [placements]
  | cons r queue ih =>
    refine List.forall_mem_cons.mpr ⟨?_, ih h.2⟩
    obtain ⟨target, htarget⟩ := Option.isSome_iff_exists.mp h.1
    cases r with
    | fork anchor entrant side =>
      rw [MergeRequest.target_fork] at htarget
      simp [MergeRequest.placement, htarget, Placement.isMissing]
    | reprioritize id priority =>
      rw [MergeRequest.target_reprioritize] at htarget
      simp only [MergeRequest.placement, htarget]
      split <;> rfl

/-- Nothing that a piston does leaves a warning. -/
theorem Event.not_warns_of_isDeed {ev : Event} (h : ev.isDeed = true) : ¬ev.Warns := by
  intro hwarns
  rcases warns_cases hwarns with habort | ⟨p, rfl, _⟩
  · cases ev with
    | aborted => cases h
    | _ => cases habort
  · cases h

/-- **A cycle leaves no warning but that of an abort.** -/
theorem Engine.advance_warns {e : Engine} (h : Settled e) :
    ∀ ev ∈ e.advance.events, ev.Warns → ev.isAbort = true := by
  have hpass : ∀ ev ∈ (stepAll e.program e.shared e.pistons).events,
      ev.Warns → ev.isAbort = true := by
    intro ev hev hwarns
    exact absurd hwarns (Event.not_warns_of_isDeed (stepAll_deeds _ _ _ ev hev))
  unfold Engine.advance
  simp only
  split
  · exact List.forall_mem_append.mpr ⟨hpass, by simp [Event.isAbort]⟩
  · exact List.forall_mem_append.mpr ⟨hpass, by simp [Event.Warns, Event.record?]⟩
  · refine List.forall_mem_append.mpr ⟨hpass, ?_⟩
    intro ev hev hwarns
    obtain ⟨p, hp, rfl⟩ := List.mem_map.mp hev
    rw [Event.warns_placed_iff, (Engine.pass_resolved h).found p hp] at hwarns
    cases hwarns

/-- **The fallbacks of the drain are dead.** After every sequence of calls on an engine over any registry:
if it is not aborted, the next pass queues requests that all find their targets, each at the moment
when it is carried out.  In all that has happened no entrant missed its anchor, no piston to be moved
was gone, and every warning in the log is the record of an abort. -/
theorem merge_fallbacks_dead (program : Program) (calls : List Call) :
    let e := program.after calls
    let pass := stepAll e.program e.shared e.pistons
    (e.aborted = none → Resolved pass.shared.queue pass.pistons) ∧
    (∀ anchor entrant, Event.placed (.anchorMissing anchor entrant) ∉ program.chronicle calls) ∧
    (∀ piston, Event.placed (.pistonMissing piston) ∉ program.chronicle calls) ∧
    ∀ r ∈ logOf (program.chronicle calls), r.level = .warn →
      ∃ name piston x y cause, Event.aborted name piston x y cause ∈ program.chronicle calls ∧
        (Event.aborted name piston x y cause).record? = some r := by
  have hsettled := Settled.maintained program
  have htold : Told program (fun _ e => e.aborted = none → Settled e)
      fun ev => ev.Warns → ev.isAbort = true :=
    ⟨fun e => by simp [Engine.reset, Event.Warns, Event.record?],
      fun _ e _ hab _ h => Engine.advance_warns (h hab)⟩
  have hwarns := hsettled.chronicle htold calls
  refine ⟨fun hab => Engine.pass_resolved (hsettled.after calls hab), ?_, ?_, ?_⟩
  · intro anchor entrant hmem
    exact absurd (hwarns _ hmem (Event.warns_placed_iff.mpr rfl)) Bool.false_ne_true
  · intro piston hmem
    exact absurd (hwarns _ hmem (Event.warns_placed_iff.mpr rfl)) Bool.false_ne_true
  · intro r hr hlevel
    obtain ⟨ev, hmem, hrecord⟩ := List.mem_filterMap.mp hr
    have habort := hwarns ev hmem ⟨r, hrecord, hlevel⟩
    cases ev with
    | aborted name piston x y cause => exact ⟨name, piston, x, y, cause, hmem, hrecord⟩
    | _ => cases habort

/-- Sends off a copy, changes the priority and ends the piston, all in one step. -/
def partingShot : Instruction where
  code := 0x0
  glyph := '*'
  mnemonic := "PART"
  description := "Fork, change the priority and end"
  script _ := .ofActions [.fork .left, .setPriority 3, .retire] .proceed

/-- Two pistons on a plane full of that instruction. -/
def parting : Program where
  plane := SparseGrid.plane ⟨[], some .blank, [⟨0, 0, .right⟩, ⟨5, 0, .right⟩]⟩
  registry := ⟨[(0x0, .plain)], [partingShot]⟩
  config := .standard
  input := []

/-- Both have ended when their requests are carried out, and are found all the same. -/
theorem merge_fallbacks_dead_parting :
    let pass := stepAll parting (parting.after []).shared (parting.after []).pistons
    (parting.after []).aborted = none ∧
      pass.pistons.map (fun p => (p.id, p.ended)) = [(0, true), (1, true)] ∧
      pass.shared.queue.map (·.target) = [0, 0, 1, 1] ∧
      Resolved pass.shared.queue pass.pistons :=
  ⟨rfl, rfl, rfl, (merge_fallbacks_dead parting []).1 rfl⟩

end PistonGrid
