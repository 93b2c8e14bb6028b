import PistonGrid.Proofs.Steps

/-!
# What is queued, and what becomes of it

Whatever an instruction does to the list of active pistons it does through the merge queue.  This
module says, for every instruction there can be, what a script, a step and a pass add to the queue,
and what draining a queue does to the members of the list.

* `drain_perm` — a drained list has the pistons it had and the entrants of the queue, and no others.
* `Queued` — what a stretch of execution adds to the queue: requests on behalf of the pistons that
  stepped, with entrants that carry the next free identities in order.
* `Effect` — what every script does to the piston that executes it and to the queue
  (`Effect.composable`, `Piston.step_effect`).
* `stepAll_ids`, `stepAll_queued` — the same for a whole pass, however it ends.
-/

set_option autoImplicit false

namespace PistonGrid

namespace MergeRequest

/-- The identity that a request looks up: the anchor of an entrant, or the piston to be moved. -/
def target : MergeRequest → Nat
  | .fork anchor _ _ => anchor
  | .reprioritize piston _ => piston

/-- The piston that a request brings into the list. -/
def entrant? : MergeRequest → Option Piston
  | .fork _ entrant _ => some entrant
  | .reprioritize _ _ => none

@[simp] theorem target_fork (anchor : Nat) (p : Piston) (side : Side) :
    (fork anchor p side).target = anchor := rfl

@[simp] theorem target_reprioritize (id : Nat) (priority : Int) :
    (reprioritize id priority).target = id := rfl

end MergeRequest

/-- The pistons that a queue brings into the list, in queue order. -/
def entrants (queue : List MergeRequest) : List Piston := queue.filterMap MergeRequest.entrant?

@[simp] theorem entrants_nil : entrants [] = [] := rfl

@[simp] theorem entrants_append (q₁ q₂ : List MergeRequest) :
    entrants (q₁ ++ q₂) = entrants q₁ ++ entrants q₂ := List.filterMap_append

@[simp] theorem entrants_fork (anchor : Nat) (p : Piston) (side : Side) (q : List MergeRequest) :
    entrants (.fork anchor p side :: q) = p :: entrants q := rfl

@[simp] theorem entrants_reprioritize (id : Nat) (priority : Int) (q : List MergeRequest) :
    entrants (.reprioritize id priority :: q) = entrants q := rfl

/-! ## Draining loses nothing -/

theorem perm_of_findPiston? {id : Nat} {ps : List Piston} {moving : Piston}
    (h : findPiston? id ps = some moving) : (moving :: removePiston id ps).Perm ps := by
  induction ps with
  | nil => cases h
  | cons p ps ih =>
    unfold findPiston? removePiston at *
    by_cases hp : p.id = id
    · simp only [List.find?_cons, hp, beq_self_eq_true, Option.some.injEq] at h
      subst h
      simp [hp]
    · have hne : (p.id == id) = false := by simpa using hp
      rw [List.find?_cons, hne] at h
      rw [List.eraseP_cons, hne]
      exact (List.Perm.swap _ _ _).trans ((ih h).cons p)

theorem apply_perm (ps : List Piston) (r : MergeRequest) :
    (r.apply ps).Perm (ps ++ entrants [r]) := by
  cases r with
  | fork anchor entrant side =>
    exact (insertBeside_perm anchor entrant side ps).trans (List.perm_append_singleton _ _).symm
  | reprioritize id priority =>
    simp only [MergeRequest.apply, entrants_reprioritize, entrants_nil, List.append_nil]
    split
    · exact .refl _
    · rename_i moving hfind
      exact (insertByPriority_perm moving priority _).trans (perm_of_findPiston? hfind)

theorem drain_perm (queue : List MergeRequest) (ps : List Piston) :
    (drain queue ps).Perm (ps ++ entrants queue) := by
  induction queue generalizing ps with
  | nil => rw [drain_nil, entrants_nil, List.append_nil]
  | cons r queue ih =>
    rw [drain_cons]
    refine (ih _).trans ?_
    rw [← List.singleton_append, entrants_append, ← List.append_assoc]
    exact (apply_perm ps r).append_right _

/-! ## Copies and identities in the events -/

/-- The copy that an event sends off. -/
def Event.copy? : Event → Option Piston
  | .forked parent entrant turn => some (parent.forked entrant turn)
  | _ => none

/-- The copies that were sent off, in order. -/
def copies (events : List Event) : List Piston := events.filterMap Event.copy?

/-- The identities given out since the last reset, one event later. -/
def Event.handOut (ids : List Nat) : Event → List Nat
  | .reset _ _ pistons => List.range pistons
  | .forked _ entrant _ => ids ++ [entrant]
  | _ => ids

/-- The identities given out since the last reset, in order. -/
def handedOut (events : List Event) : List Nat := events.foldl Event.handOut []

theorem handedOut_append (past events : List Event) :
    handedOut (past ++ events) = events.foldl Event.handOut (handedOut past) := by
  simp [handedOut, List.foldl_append]

/-! ## Additions to the queue -/

/-- A stretch of execution with the given events took the shared state from `s` to `s'` and added some
requests to the queue, all of them on behalf of `owners`.  The entrants among them are the copies sent
off meanwhile; they are new, and they carry the next identities in order. -/
structure Queued (owners : List Nat) (s s' : Shared) (events : List Event)
    (added : List MergeRequest) : Prop where
  queue : s'.queue = s.queue ++ added
  target : ∀ r ∈ added, r.target ∈ owners
  entrants_eq : entrants added = copies events
  handOut : ∀ ids, events.foldl Event.handOut ids = ids ++ (entrants added).map (·.id)
  ids : (entrants added).map (·.id) = List.range' s.nextId (entrants added).length
  nextId : s'.nextId = s.nextId + (entrants added).length
  newborn : ∀ p ∈ entrants added, p.ended = false ∧ p.executed = 0

namespace Queued

variable {owners : List Nat} {s s' s'' : Shared} {events first second : List Event}
  {added added' : List MergeRequest}

/-- Execution that leaves the queue and the identities alone adds nothing. -/
theorem nothing (hq : s'.queue = s.queue) (hn : s'.nextId = s.nextId)
    (hc : events.filterMap Event.copy? = [])
    (hh : ∀ ids, events.foldl Event.handOut ids = ids) : Queued owners s s' events [] where
  queue := by simpa using hq
  target := by simp
  entrants_eq := by simp [copies, hc]
  handOut := by simpa using hh
  ids := rfl
  nextId := by simpa using hn
  newborn := by simp

theorem mono {owners' : List Nat} (h : Queued owners s s' events added)
    (hsub : ∀ i ∈ owners, i ∈ owners') : Queued owners' s s' events added :=
  { h with target := fun r hr => hsub _ (h.target r hr) }

theorem trans (h : Queued owners s s' first added) (h' : Queued owners s' s'' second added') :
    Queued owners s s'' (first ++ second) (added ++ added') where
  queue := by rw [h'.queue, h.queue, List.append_assoc]
  target := by
    intro r hr
    rcases List.mem_append.mp hr with hr | hr
    · exact h.target r hr
    · exact h'.target r hr
  entrants_eq := by
    simp only [copies, List.filterMap_append, entrants_append, h.entrants_eq, h'.entrants_eq]
  handOut := by
    intro ids
    rw [List.foldl_append, h.handOut, h'.handOut, entrants_append, List.map_append,
      List.append_assoc]
  ids := by
    rw [entrants_append, List.map_append, h.ids, h'.ids, h.nextId, List.length_append,
      List.range'_append_1]
  nextId := by rw [h'.nextId, h.nextId, entrants_append, List.length_append, Nat.add_assoc]
  newborn := by
    intro p hp
    rw [entrants_append] at hp
    rcases List.mem_append.mp hp with hp | hp
    · exact h.newborn p hp
    · exact h'.newborn p hp

/-- Fresh identities collide neither with those in use nor with each other. -/
theorem nodup (h : Queued owners s s' events added) {ids : List Nat}
    (hn : (ids ++ (entrants s.queue).map (·.id)).Nodup)
    (hb : ∀ i ∈ ids ++ (entrants s.queue).map (·.id), i < s.nextId) :
    (ids ++ (entrants s'.queue).map (·.id)).Nodup := by
  rw [h.queue, entrants_append, List.map_append, ← List.append_assoc, List.nodup_append, h.ids]
  refine ⟨hn, List.nodup_range', ?_⟩
  intro i hi j hj hij
  have := hb i hi
  rw [List.mem_range'_1] at hj
  omega

theorem below (h : Queued owners s s' events added) {ids : List Nat}
    (hb : ∀ i ∈ ids ++ (entrants s.queue).map (·.id), i < s.nextId) :
    ∀ i ∈ ids ++ (entrants s'.queue).map (·.id), i < s'.nextId := by
  intro i hi
  rw [h.queue, entrants_append, List.map_append, ← List.append_assoc] at hi
  rw [h.nextId]
  rcases List.mem_append.mp hi with hi | hi
  · have := hb i hi
    omega
  · rw [h.ids, List.mem_range'_1] at hi
    omega

end Queued

/-! ## What scripts and steps do -/

/-- What every script does: the piston keeps its identity and its count of instructions, and the queue
grows by requests on its behalf. -/
structure Effect (c : Context) (events : List Event) (c' : Context) : Prop where
  id : c'.piston.id = c.piston.id
  executed : c'.piston.executed = c.piston.executed
  queued : ∃ added, Queued [c.piston.id] c.shared c'.shared events added

/-- Effects on the executing piston alone. -/
theorem Effect.of_piston {c : Context} {p : Piston} (hid : p.id = c.piston.id)
    (hex : p.executed = c.piston.executed) : Effect c [] { c with piston := p } :=
  ⟨hid, hex, [], .nothing rfl rfl rfl fun _ => rfl⟩

/-- Effects on memory or channel alone. -/
theorem Effect.of_shared {c : Context} {s : Shared} {events : List Event}
    (hq : s.queue = c.shared.queue) (hn : s.nextId = c.shared.nextId)
    (hc : events.filterMap Event.copy? = [])
    (hh : ∀ ids, events.foldl Event.handOut ids = ids) : Effect c events { c with shared := s } :=
  ⟨rfl, rfl, [], .nothing hq hn hc hh⟩

theorem Effect.fork (c : Context) (t : Turn) :
    Effect c ((Action.fork t).events c) ((Action.fork t).apply c) := by
  refine ⟨rfl, rfl, [.fork c.piston.id (c.piston.forked c.shared.nextId t) (.ofTurn t)], ?_⟩
  constructor
  · rfl
  · intro r hr
    rw [List.mem_singleton] at hr
    subst hr
    exact List.mem_singleton.mpr rfl
  · rfl
  · intro ids
    rfl
  · rfl
  · rfl
  · intro p hp
    simp only [entrants_fork, entrants_nil, List.mem_singleton] at hp
    subst hp
    exact ⟨rfl, rfl⟩

theorem Effect.setPriority (c : Context) (priority : Int) :
    Effect c ((Action.setPriority priority).events c) ((Action.setPriority priority).apply c) := by
  refine ⟨rfl, rfl, [.reprioritize c.piston.id priority], ?_⟩
  refine ⟨rfl, ?_, rfl, fun ids => by simp [Action.events, Event.handOut], rfl, rfl, by simp⟩
  intro r hr
  rw [List.mem_singleton] at hr
  subst hr
  exact List.mem_singleton.mpr rfl

theorem Effect.composable : Composable Effect where
  refl c := ⟨rfl, rfl, [], .nothing rfl rfl rfl fun _ => rfl⟩
  trans := by
    intro a b c first second h h'
    obtain ⟨added, hq⟩ := h.queued
    obtain ⟨added', hq'⟩ := h'.queued
    refine ⟨h'.id.trans h.id, h'.executed.trans h.executed, added ++ added', ?_⟩
    rw [h.id] at hq'
    exact hq.trans hq'
  action c a := by
    cases a with
    | move n => exact .of_piston rfl rfl
    | turn t => exact .of_piston rfl rfl
    | face h => exact .of_piston rfl rfl
    | goTo x y => exact .of_piston rfl rfl
    | setRegister r value o => exact .of_piston rfl rfl
    | retire => exact .of_piston rfl rfl
    | fork t => exact .fork c t
    | setPriority priority => exact .setPriority c priority
    | store address value => exact .of_shared rfl rfl rfl fun _ => rfl
    | clearMemory => exact .of_shared rfl rfl rfl fun _ => rfl
    | write item => exact .of_shared rfl rfl rfl fun _ => rfl
  load c address := .of_shared rfl rfl rfl fun _ => rfl
  grabNumber c := .of_shared rfl rfl rfl fun _ => rfl
  grabChar c := .of_shared rfl rfl rfl fun _ => rfl

section

variable {program : Program} {s s' : Shared} {p : Piston} {ps : List Piston} {st : Step}
  {sts : List Step}

/-- **What every step does**, whatever the piston executes: it keeps its identity, counts one
instruction unless it ends, and adds to the queue on its own behalf. -/
theorem Piston.step_effect (h : p.step program s = .ok st) :
    st.piston.id = p.id ∧ (st.piston.ended = true ∨ st.piston.executed = p.executed + 1) ∧
      ∃ added, Queued [p.id] s st.shared st.events added := by
  rcases Piston.step_cases h with ⟨_, rfl⟩ | ⟨w, d, _, _, rfl⟩
  · exact ⟨rfl, .inl rfl, [], .nothing rfl rfl rfl fun _ => rfl⟩
  · have heff := Effect.composable.run (d.instruction.script d.args)
      ⟨{ p with executed := p.executed + 1 }, s⟩
    obtain ⟨added, hq⟩ := heff.queued
    refine ⟨?_, ?_, added, ?_⟩
    · simp only [Piston.execute]
      split <;> exact heff.id
    · simp only [Piston.execute]
      split
      · exact .inl rfl
      · exact .inr heff.executed
    · have hhead : Queued [p.id] s s [.executed p.id p.x p.y w d.instruction.mnemonic] [] :=
        .nothing rfl rfl rfl fun _ => rfl
      exact hhead.trans hq

theorem Steps.ids (h : Steps program s ps sts s') :
    (sts.map (·.piston)).map (·.id) = ps.map (·.id) := by
  induction h with
  | nil => rfl
  | cons step _ _ ih =>
    simp only [List.map_cons]
    rw [ih, (Piston.step_effect step).1]

theorem Steps.queued (h : Steps program s ps sts s') :
    ∃ added, Queued (ps.map (·.id)) s s' (sts.flatMap (·.events)) added := by
  induction h with
  | nil s => exact ⟨[], .nothing rfl rfl rfl fun _ => rfl⟩
  | cons step _ _ ih =>
    obtain ⟨added, hq⟩ := (Piston.step_effect step).2.2
    obtain ⟨added', hq'⟩ := ih
    refine ⟨added ++ added', ?_⟩
    rw [List.flatMap_cons]
    exact (hq.mono (by simp)).trans (hq'.mono fun i hi => List.mem_cons_of_mem _ hi)

/-- A pass keeps the identities in the list, in their order. -/
theorem stepAll_ids (program : Program) (s : Shared) (ps : List Piston) :
    (stepAll program s ps).pistons.map (·.id) = ps.map (·.id) := by
  rcases stepAll_cases program s ps with ⟨sts, s', hs, heq⟩ |
    ⟨pre, p, post, sts, s', cause, rfl, hs, _, heq⟩ |
    ⟨pre, p, post, sts, s', st, rfl, hs, hst, _, heq⟩
  · rw [heq, hs.ids]
  · simp only [heq, List.map_append, List.map_cons]
    rw [hs.ids]
  · simp only [heq, List.map_append, List.map_cons]
    rw [hs.ids, (Piston.step_effect hst).1]

/-- A pass adds to the queue on behalf of the pistons in the list, also if it is stopped. -/
theorem stepAll_queued (program : Program) (s : Shared) (ps : List Piston) :
    ∃ added, Queued (ps.map (·.id)) s (stepAll program s ps).shared (stepAll program s ps).events
      added := by
  rcases stepAll_cases program s ps with ⟨sts, s', hs, heq⟩ |
    ⟨pre, p, post, sts, s', cause, rfl, hs, _, heq⟩ |
    ⟨pre, p, post, sts, s', st, rfl, hs, hst, _, heq⟩
  · rw [heq]
    exact hs.queued
  · rw [heq]
    obtain ⟨added, hq⟩ := hs.queued
    refine ⟨added, hq.mono fun i hi => ?_⟩
    rw [List.map_append]
    exact List.mem_append_left _ hi
  · rw [heq]
    obtain ⟨added, hq⟩ := hs.queued
    obtain ⟨added', hq'⟩ := (Piston.step_effect hst).2.2
    refine ⟨added ++ added', (hq.mono fun i hi => ?_).trans (hq'.mono fun i hi => ?_)⟩
    · rw [List.map_append]
      exact List.mem_append_left _ hi
    · rw [List.mem_singleton] at hi
      simp [hi]

end

end PistonGrid
