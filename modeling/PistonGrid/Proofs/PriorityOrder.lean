import PistonGrid.Proofs.DrainOrder
import PistonGrid.Proofs.LockStep
import PistonGrid.Proofs.Standard

/-!
# The active list stays in order of priority

Under the standard catalog only `PRIORITY` changes a priority.  It does not move its piston, and its
argument is not negative, so a piston that has executed it stays on that word and keeps that priority:
priorities only rise, and a piston that sends off a copy still has priority zero.

* `Ranked` — a piston has priority zero or stands on the word that gave it its priority.
* `Rising`, `Round` — a step, and a pass, in which priorities rise and moves are queued for those that
  changed.  `Piston.step_rising`, `Steps.round` — those of the standard catalog are of this kind.
* `Round.orderly` — after such a pass the list is ready to be drained in order.
* `PriorityOrder` — the invariant: the list is in order and its members are ranked.
-/

set_option autoImplicit false

namespace PistonGrid

/-! ## Ranked pistons -/

/-- A piston has priority zero, or stands on a `PRIORITY` word with the priority that it has. -/
def Ranked (program : Program) (p : Piston) : Prop :=
  p.priority = 0 ∨ ∃ w d, program.plane.wordAt? p.x p.y = some w ∧
    program.registry.decode w = .ok d ∧ d.instruction.key = Catalog.priority.key ∧
    p.priority = d.args.argument

namespace Ranked

variable {program : Program} {p : Piston}

theorem of_outside (h : Ranked program p) (hw : program.plane.wordAt? p.x p.y = none) :
    p.priority = 0 := by
  rcases h with h | ⟨w, _, hw', _⟩
  · exact h
  · rw [hw] at hw'
    cases hw'

/-- On a word it has in front of it, a ranked piston has priority zero, or that word's. -/
theorem of_inside (h : Ranked program p) {w : Word} {d : Decoded}
    (hw : program.plane.wordAt? p.x p.y = some w) (hd : program.registry.decode w = .ok d) :
    p.priority = 0 ∨ (d.instruction.key = Catalog.priority.key ∧ p.priority = d.args.argument) := by
  rcases h with h | ⟨w', d', hw', hd', hkey, harg⟩
  · exact .inl h
  · rw [hw] at hw'
    cases hw'
    rw [hd] at hd'
    cases hd'
    exact .inr ⟨hkey, harg⟩

end Ranked

/-! ## Passes with rising priorities -/

/-- What the step of one piston may do to its priority: raise it, if a move to the new priority is
queued; and copies may be sent off if none is, with the priority that the piston has. -/
structure Rising (p p' : Piston) (requests : List MergeRequest) : Prop where
  id : p'.id = p.id
  le : p.priority ≤ p'.priority
  own : ∀ r ∈ requests, r.target = p.id
  kept : p.id ∉ movers requests → p'.priority = p.priority
  announced : ∀ priority, MergeRequest.reprioritize p.id priority ∈ requests → p'.priority = priority
  anchored : ∀ anchor entrant side, MergeRequest.fork anchor entrant side ∈ requests →
    p.id ∉ movers requests ∧ p'.priority = entrant.priority

namespace Rising

variable {p p' : Piston}

theorem keep (hid : p'.id = p.id) (hsame : p'.priority = p.priority) : Rising p p' [] where
  id := hid
  le := by omega
  own := by simp
  kept _ := hsame
  announced := by simp
  anchored := by simp

theorem fork {entrant : Piston} (side : Side) (hid : p'.id = p.id)
    (hsame : p'.priority = p.priority) (hentrant : entrant.priority = p.priority) :
    Rising p p' [.fork p.id entrant side] where
  id := hid
  le := by omega
  own := by simp
  kept _ := hsame
  announced := by simp
  anchored := by
    intro anchor entrant' side' hr
    cases List.mem_singleton.mp hr
    exact ⟨by simp, by omega⟩

theorem rise (hid : p'.id = p.id) (hle : p.priority ≤ p'.priority) :
    Rising p p' [.reprioritize p.id p'.priority] where
  id := hid
  le := hle
  own := by simp
  kept hnot := absurd (by simp) hnot
  announced := by
    intro priority hr
    cases List.mem_singleton.mp hr
    rfl
  anchored := by simp

end Rising

/-- **A standard step of a ranked piston only raises its priority**, and leaves it and its copies
ranked. -/
theorem Piston.step_rising {program : Program} {s : Shared} {p : Piston} {st : Step}
    (hreg : program.registry = .standard) (hp : Ranked program p) (h : p.step program s = .ok st) :
    ∃ requests, st.shared.queue = s.queue ++ requests ∧ Rising p st.piston requests ∧
      Ranked program st.piston ∧ ∀ q ∈ entrants requests, Ranked program q := by
  have hid := (Piston.step_effect h).1
  rcases Piston.step_cases h with ⟨hw, rfl⟩ | ⟨w, d, hw, hd, rfl⟩
  · exact ⟨[], (List.append_nil _).symm, .keep hid rfl, .inl (hp.of_outside hw), by simp⟩
  · have hmem := Catalog.mem_of_decode hreg hd
    rcases Catalog.requests hmem d.args ⟨{ p with executed := p.executed + 1 }, s⟩ with
      ⟨hi, hrun⟩ | ⟨hkey, hpri, hqueue⟩
    · -- the piston stays on this word, which has just given it its priority
      have hle : p.priority ≤ (d.args.argument : Int) := by
        rcases hp.of_inside hw hd with hzero | ⟨_, hsame⟩ <;> omega
      simp only [Piston.execute, hrun]
      exact ⟨_, rfl, .rise rfl hle, .inr ⟨w, d, hw, hd, by rw [hi], rfl⟩, by simp⟩
    · have hzero : p.priority = 0 := by
        rcases hp.of_inside hw hd with hzero | ⟨hkey', _⟩
        · exact hzero
        · exact absurd hkey' hkey
      have hsame : (p.execute s w d).piston.priority = p.priority := by
        simp only [Piston.execute]
        split <;> exact hpri
      have hranked : Ranked program (p.execute s w d).piston := .inl (hsame.trans hzero)
      rcases hqueue with hqueue | ⟨t, hqueue⟩
      · exact ⟨[], hqueue.trans (List.append_nil _).symm, .keep hid hsame, hranked, by simp⟩
      · refine ⟨_, hqueue, .fork _ hid hsame rfl, hranked, ?_⟩
        intro q hq
        cases List.mem_singleton.mp hq
        exact .inl hzero

/-- A pass in which every step is `Rising`: the list before, the list after, and what was queued. -/
inductive Round : List Piston → List Piston → List MergeRequest → Prop where
  | nil : Round [] [] []
  | cons {p p' : Piston} {ps ps' : List Piston} {requests queue : List MergeRequest}
      (head : Rising p p' requests) (rest : Round ps ps' queue) :
      Round (p :: ps) (p' :: ps') (requests ++ queue)

/-- **Under the standard catalog every completed pass is a round**, and leaves all pistons ranked. -/
theorem Steps.round {program : Program} {s s' : Shared} {ps : List Piston} {sts : List Step}
    (hreg : program.registry = .standard) (h : Steps program s ps sts s')
    (hps : ∀ p ∈ ps, Ranked program p) :
    ∃ queue, s'.queue = s.queue ++ queue ∧ Round ps (sts.map (·.piston)) queue ∧
      (∀ p ∈ sts.map (·.piston), Ranked program p) ∧ ∀ p ∈ entrants queue, Ranked program p := by
  induction h with
  | nil s => exact ⟨[], by simp, .nil, by simp, by simp⟩
  | cons step _ _ ih =>
    obtain ⟨hp, hps⟩ := List.forall_mem_cons.mp hps
    obtain ⟨requests, hr, hrising, hst, hent⟩ := Piston.step_rising hreg hp step
    obtain ⟨queue, hq, hround, hst', hent'⟩ := ih hps
    refine ⟨requests ++ queue, by rw [hq, hr, List.append_assoc], .cons hrising hround,
      List.forall_mem_cons.mpr ⟨hst, hst'⟩, ?_⟩
    rw [entrants_append]
    exact List.forall_mem_append.mpr ⟨hent, hent'⟩

namespace Round

variable {ps ps' : List Piston} {queue : List MergeRequest}

theorem ids (h : Round ps ps' queue) : ps'.map (·.id) = ps.map (·.id) := by
  induction h with
  | nil => rfl
  | cons head _ ih => rw [List.map_cons, List.map_cons, head.id, ih]

theorem targets (h : Round ps ps' queue) : ∀ r ∈ queue, r.target ∈ ps.map (·.id) := by
  induction h with
  | nil => simp
  | cons head _ ih =>
    intro r hr
    rcases List.mem_append.mp hr with hr | hr
    · rw [head.own r hr]
      exact List.mem_cons_self
    · exact List.mem_cons_of_mem _ (ih r hr)

/-- Nobody's priority falls, and only the movers' change. -/
theorem origin (h : Round ps ps' queue) {b : Piston} (hb : b ∈ ps') :
    ∃ a ∈ ps, a.priority ≤ b.priority ∧ (b.id ∉ movers queue → b.priority = a.priority) := by
  induction h with
  | nil => cases hb
  | @cons p p' _ _ requests queue head _ ih =>
    rw [movers_append]
    rcases List.mem_cons.mp hb with rfl | hb
    · refine ⟨p, List.mem_cons_self, head.le, fun hnot => head.kept fun hin => hnot ?_⟩
      rw [head.id]
      exact List.mem_append_left _ hin
    · obtain ⟨a, ha, hle, heq⟩ := ih hb
      exact ⟨a, List.mem_cons_of_mem _ ha, hle, fun hnot =>
        heq fun hin => hnot (List.mem_append_right _ hin)⟩

/-- A list that was in order is in order up to the movers. -/
theorem descendingOn (h : Round ps ps' queue) (hps : Descending ps) :
    DescendingOn (fun p => p.id ∉ movers queue) ps' := by
  unfold Descending DescendingOn at *
  induction h with
  | nil => exact List.Pairwise.nil
  | cons head rest ih =>
    obtain ⟨hp, hps⟩ := List.pairwise_cons.mp hps
    rw [movers_append]
    refine List.pairwise_cons.mpr ⟨?_, (ih hps).imp fun hab hnot =>
      hab fun hin => hnot (List.mem_append_right _ hin)⟩
    -- the piston in front has risen, the one behind it has not moved
    intro b hb hnot
    obtain ⟨a, ha, _, heq⟩ := rest.origin hb
    have hsame := heq fun hin => hnot (List.mem_append_right _ hin)
    have hbefore := hp a ha
    have hrise := head.le
    omega

/-- A piston that did not take part is neither in the new list nor meant by a request. -/
theorem apart (h : Round ps ps' queue) {id : Nat} (hid : id ∉ ps.map (·.id)) :
    (∀ r ∈ queue, r.target ≠ id) ∧ ∀ b ∈ ps', b.id ≠ id := by
  constructor
  · intro r hr heq
    exact hid (heq ▸ h.targets r hr)
  · intro b hb heq
    have hmem := List.mem_map_of_mem (f := (·.id)) hb
    rw [h.ids] at hmem
    exact hid (heq ▸ hmem)

/-- Every queued move carries the priority that its piston has now. -/
theorem announced (h : Round ps ps' queue) (hn : (ps.map (·.id)).Nodup) :
    ∀ p ∈ ps', ∀ priority, MergeRequest.reprioritize p.id priority ∈ queue →
      p.priority = priority := by
  induction h with
  | nil => simp
  | cons head rest ih =>
    obtain ⟨hfresh, hn⟩ := List.nodup_cons.mp hn
    obtain ⟨hreq, hlist⟩ := rest.apart hfresh
    refine List.forall_mem_cons.mpr ⟨?_, ?_⟩
    · intro priority hr
      rw [head.id] at hr
      rcases List.mem_append.mp hr with hr | hr
      · exact head.announced priority hr
      · exact absurd rfl (hreq _ hr)
    · intro b hb priority hr
      rcases List.mem_append.mp hr with hr | hr
      · exact absurd (head.own _ hr) (hlist b hb)
      · exact ih hn b hb priority hr

/-- A piston that sends off a copy does not move, and the copy has its priority. -/
theorem anchored (h : Round ps ps' queue) (hn : (ps.map (·.id)).Nodup) :
    ∀ anchor entrant side, MergeRequest.fork anchor entrant side ∈ queue →
      anchor ∉ movers queue ∧ ∀ p ∈ ps', p.id = anchor → p.priority = entrant.priority := by
  induction h with
  | nil => simp
  | cons head rest ih =>
    obtain ⟨hfresh, hn⟩ := List.nodup_cons.mp hn
    obtain ⟨hreq, hlist⟩ := rest.apart hfresh
    intro anchor entrant side hr
    rw [movers_append, List.mem_append, not_or]
    rcases List.mem_append.mp hr with hr | hr
    · obtain ⟨hstays, hsame⟩ := head.anchored anchor entrant side hr
      have hanchor := head.own _ hr
      rw [MergeRequest.target_fork] at hanchor
      subst hanchor
      refine ⟨⟨hstays, fun hin => ?_⟩, List.forall_mem_cons.mpr ⟨fun _ => hsame, ?_⟩⟩
      · obtain ⟨priority, hmove⟩ := mem_movers.mp hin
        exact hreq _ hmove rfl
      · exact fun b hb hid => absurd hid (hlist b hb)
    · obtain ⟨hnot, heq⟩ := ih hn anchor entrant side hr
      refine ⟨⟨fun hin => ?_, hnot⟩, List.forall_mem_cons.mpr ⟨fun hid => ?_, heq⟩⟩
      · obtain ⟨priority, hmove⟩ := mem_movers.mp hin
        have hown := head.own _ hmove
        rw [MergeRequest.target_reprioritize] at hown
        exact hreq _ hr hown
      · exact absurd (hid.symm.trans head.id) (hreq _ hr)

/-- **After a round the drain finds the list as it must be**, if it was in order before. -/
theorem orderly (h : Round ps ps' queue) (hps : Descending ps)
    (hn : (ps.map (·.id) ++ (entrants queue).map (·.id)).Nodup) : Orderly queue ps' where
  descending := h.descendingOn hps
  nodup := by rwa [h.ids]
  targets := by
    intro r hr
    have hmem := h.targets r hr
    rw [← h.ids] at hmem
    obtain ⟨p, hp, hid⟩ := List.mem_map.mp hmem
    exact ⟨p, hp, hid⟩
  announced := h.announced (List.nodup_append.mp hn).1
  anchored := h.anchored (List.nodup_append.mp hn).1

end Round

/-! ## The invariant -/

/-- The list is in order of priority, and all its members are ranked. -/
structure PriorityOrder (program : Program) (e : Engine) : Prop where
  descending : Descending e.pistons
  ranked : ∀ p ∈ e.pistons, Ranked program p

namespace PriorityOrder

theorem of_priority_zero {program : Program} {e : Engine} (h : ∀ p ∈ e.pistons, p.priority = 0) :
    PriorityOrder program e := by
  refine ⟨?_, fun p hp => .inl (h p hp)⟩
  refine List.pairwise_iff_forall_sublist.mpr ?_
  intro a b hab
  have ha := h a (hab.subset (by simp))
  have hb := h b (hab.subset (by simp))
  omega

/-- A completed cycle: the pass is a round, the drain puts the list in order, and letting pistons leave
does not disturb it. -/
theorem completed {program : Program} {past : List Event} {e : Engine}
    (hreg : program.registry = .standard) (hp : e.program = program) (hids : Identified past e)
    (hq : e.shared.queue = []) (h : PriorityOrder program e) {sts : List Step} {s' : Shared}
    (hs : Steps e.program e.shared e.pistons sts s') :
    PriorityOrder program { e with
      pistons := (drain s'.queue (sts.map (·.piston))).filter (!·.ended)
      shared := { s' with queue := [] }
      cycles := e.cycles + 1 } := by
  obtain ⟨added, hadd⟩ := hs.queued
  rw [hp] at hs
  obtain ⟨q, hqueue, hround, hst, hent⟩ := hs.round hreg h.ranked
  rw [hq, List.nil_append] at hqueue
  have hnodup := hadd.nodup hids.nodup hids.below
  rw [hqueue] at hnodup
  rw [hqueue]
  constructor
  · exact (drain_descending (hround.orderly h.descending hnodup)).filter _
  · intro p hp
    have hmem := (drain_perm _ _).mem_iff.mp (List.mem_filter.mp hp).1
    rcases List.mem_append.mp hmem with hmem | hmem
    · exact hst p hmem
    · exact hent p hmem

/-- **The list stays in order** in every engine over the standard registry that is not aborted. -/
theorem maintained {program : Program} (hreg : program.registry = .standard) :
    Maintained program fun past e =>
      (Identified past e ∧ (e.aborted = none → InStep program.plane.starts.length e)) ∧
        (e.aborted = none → PriorityOrder program e) := by
  refine (InStep.maintained program).and ?_ ?_ ?_
  · intro past e _ _
    refine of_priority_zero ?_
    intro p hp
    obtain ⟨i, hi, rfl⟩ := List.mem_mapIdx.mp hp
    rfl
  · intro past e _ _ _ _
    exact of_priority_zero (by simp [Engine.kill])
  · intro past e hp hab _ hI h hab'
    rcases e.advance_cases with ⟨sts, s', hs, heq⟩ | ⟨_, _, _, _, _, _, _, _, _, heq⟩ |
      ⟨_, _, _, _, _, _, _, _, _, _, heq⟩
    · rw [heq]
      exact (h hab).completed hreg hp hI.1 (hI.2 hab).queue hs
    · rw [heq] at hab'
      cases hab'
    · rw [heq]
      exact of_priority_zero (by simp)

end PriorityOrder

/-- **Priority order.** Over the standard registry, whatever the plane, the start points, the
configuration and the input, and after every sequence of calls: unless the engine is aborted, its
active list is in order of falling priority. -/
theorem active_list_in_priority_order (plane : Plane) (config : Config) (input : List Char)
    (calls : List Call)
    (halive : ((Program.mk plane .standard config input).after calls).aborted = none) :
    ((Program.mk plane .standard config input).after calls).pistons.Pairwise
      fun p q => q.priority ≤ p.priority :=
  (((PriorityOrder.maintained rfl).after calls).2 halive).descending

/-- Three pistons, of which the last two change their priorities in one cycle. -/
def overtaking : Program :=
  .onBlank [((0, 1), .registerMeta 0xD 6 (.ofBits 0) .none 3),
      ((0, 2), .registerMeta 0xD 6 (.ofBits 0) .none 5)]
    [⟨0, 0, .right⟩, ⟨0, 1, .right⟩, ⟨0, 2, .right⟩]

/-- Both overtake the first, and the last overtakes both. -/
theorem active_list_in_priority_order_overtaking :
    (overtaking.after [.cycle]).aborted = none ∧
      (overtaking.after [.cycle]).pistons.map (fun p => (p.id, p.priority)) =
        [(2, 5), (1, 3), (0, 0)] ∧
      (overtaking.after [.cycle]).pistons.Pairwise fun p q => q.priority ≤ p.priority :=
  ⟨rfl, rfl, active_list_in_priority_order overtaking.plane overtaking.config overtaking.input
    [.cycle] rfl⟩

end PistonGrid
