import Mathlib.Data.Multiset.Bind
import PistonGrid.Proofs.Lifecycle
import PistonGrid.Proofs.LockStep

/-!
# Start points superpose

Under the standard catalog a piston goes its own way: where it goes next, with what heading, priority
and count, and which copies it sends off depends on the words of the plane and on nothing that another
piston can touch.  As long as nobody stops the engine, an engine therefore carries the sum of what its
start points would lead to alone.

* `Track` — what is seen of a piston from outside.  `Track.next` — the tracks that follow on one.
* `Piston.Parallel`, `Catalog.parallel`, `Piston.step_parallel` — pistons on the same track step to the
  same track, in whatever engines they are.
* `Swarm.next`, `Swarm.FreeFor` — a number of tracks followed by one cycle, and for some cycles without
  a stop; both are additive.
* `Engine.Carries` — an engine carries a swarm.  `Engine.Carries.cycles` — it carries it on for as long
  as nobody is stopped, and is undisturbed for exactly as long.
-/

set_option autoImplicit false

namespace PistonGrid

/-! ## Tracks -/

/-- Place, heading, priority and count of a piston. -/
structure Track where
  x : Nat
  y : Nat
  heading : Heading
  priority : Int
  executed : Nat
deriving DecidableEq, Repr

/-- The track a piston is on. -/
def Piston.track (p : Piston) : Track := ⟨p.x, p.y, p.heading, p.priority, p.executed⟩

/-- A piston on a track, with empty registers. -/
def Track.piston (t : Track) : Piston :=
  { id := 0, x := t.x, y := t.y, heading := t.heading, priority := t.priority, executed := t.executed }

/-- The track on which a start point sets its piston. -/
def StartPoint.track (s : StartPoint) : Track := (Piston.spawn 0 s.x.toNat s.y.toNat s.heading).track

/-- The tracks of the active pistons. -/
def Engine.tracks (e : Engine) : Multiset Track := (e.pistons.map Piston.track : List Track)

/-- Two pistons are on the same track, and both have ended or neither has. -/
structure Piston.Parallel (p q : Piston) : Prop where
  x : p.x = q.x
  y : p.y = q.y
  heading : p.heading = q.heading
  priority : p.priority = q.priority
  executed : p.executed = q.executed
  ended : p.ended = q.ended

namespace Piston.Parallel

variable {p q : Piston}

theorem track (h : Parallel p q) : p.track = q.track := by
  rw [Piston.track, Piston.track, h.x, h.y, h.heading, h.priority, h.executed]

theorem of_track (h : p.ended = false) : Parallel p p.track.piston := ⟨rfl, rfl, rfl, rfl, rfl, h⟩

theorem count (h : Parallel p q) :
    Parallel { p with executed := p.executed + 1 } { q with executed := q.executed + 1 } :=
  { h with executed := congrArg (· + 1) h.executed }

theorem moveBy (h : Parallel p q) (n : Int) : Parallel (p.moveBy n) (q.moveBy n) := by
  refine { h with x := ?_, y := ?_ }
  · simp only [Piston.moveBy, h.x, h.heading]
  · simp only [Piston.moveBy, h.y, h.heading]

theorem turn (h : Parallel p q) (t : Turn) : Parallel (p.turn t) (q.turn t) :=
  { h with heading := congrArg (Heading.turn · t) h.heading }

theorem setRegister (h : Parallel p q) (r : Register) (v v' : Int) (o o' : RegisterOptions) :
    Parallel (p.setRegister r v o) (q.setRegister r v' o') := { h with }

theorem setPriority (h : Parallel p q) (priority : Int) :
    Parallel { p with priority } { q with priority } := { h with priority := rfl }

theorem retire (h : Parallel p q) : Parallel p.retire q.retire := { h with ended := rfl }

theorem forked (h : Parallel p q) (id id' : Nat) (t : Turn) :
    Parallel (p.forked id t) (q.forked id' t) := by
  have hcopy : Parallel (p.copyAs id) (q.copyAs id') := { h with executed := rfl, ended := rfl }
  exact (hcopy.turn t).moveBy 1

end Piston.Parallel

/-! ## Standard steps -/

/-- From `s` to `s'` and from `u` to `u'` copies were queued for the same tracks. -/
def SameCopies (s s' u u' : Shared) : Prop :=
  ∃ q r, s'.queue = s.queue ++ q ∧ u'.queue = u.queue ++ r ∧
    (entrants q).map Piston.track = (entrants r).map Piston.track

theorem SameCopies.none {s s' u u' : Shared} (hs : s'.queue = s.queue) (hu : u'.queue = u.queue) :
    SameCopies s s' u u' := ⟨[], [], by simp [hs], by simp [hu], rfl⟩

/-- **A standard instruction leads from the same track to the same track**, whatever the rest of the
piston and the shared state are like. -/
theorem Catalog.parallel {i : Instruction} (hi : i ∈ Catalog.instructions) (args : Args)
    {c d : Context} (h : Piston.Parallel c.piston d.piston) :
    ((i.script args).run c).verdict = ((i.script args).run d).verdict ∧
      Piston.Parallel ((i.script args).run c).context.piston ((i.script args).run d).context.piston ∧
      SameCopies c.shared ((i.script args).run c).context.shared
        d.shared ((i.script args).run d).context.shared := by
  cases i, hi using Catalog.cases with
  | blank | start => exact ⟨rfl, h.moveBy 1, .none rfl rfl⟩
  | direction =>
    simp only [direction]
    split
    · exact ⟨rfl, h.moveBy 1, .none rfl rfl⟩
    · exact ⟨rfl, (h.turn _).moveBy 1, .none rfl rfl⟩
  | fork =>
    refine ⟨rfl, h.moveBy 1, [.fork _ _ _], [.fork _ _ _], rfl, rfl, ?_⟩
    exact congrArg (fun t => [t]) (h.forked _ _ _).track
  | load | inNumber | inChar =>
    cases args with
    | register r o argument => exact ⟨rfl, (h.setRegister r _ _ o o).moveBy 1, .none rfl rfl⟩
    | plain payload => exact ⟨rfl, h.moveBy 1, .none rfl rfl⟩
    | generic argument => exact ⟨rfl, h.moveBy 1, .none rfl rfl⟩
  | store | outNumber | outChar =>
    cases args <;> exact ⟨rfl, h.moveBy 1, .none rfl rfl⟩
  | posX | posY =>
    cases args with
    | register r o argument => exact ⟨rfl, h.setRegister r _ _ _ _, .none rfl rfl⟩
    | plain payload => exact ⟨rfl, h, .none rfl rfl⟩
    | generic argument => exact ⟨rfl, h, .none rfl rfl⟩
  | priority =>
    exact ⟨rfl, h.setPriority _, [.reprioritize _ _], [.reprioritize _ _], rfl, rfl, rfl⟩
  | kill | stop => exact ⟨rfl, h, .none rfl rfl⟩

/-- The step of pistons on the same track, over the same words: both fail, or both succeed alike. -/
theorem Piston.step_parallel {P Q : Program} {s u : Shared} {p q : Piston}
    (hwords : P.plane.wordAt? = Q.plane.wordAt?) (hP : P.registry = .standard)
    (hQ : Q.registry = .standard) (h : Parallel p q) :
    (∃ cause, p.step P s = .error cause ∧ q.step Q u = .error cause) ∨
      ∃ st st', p.step P s = .ok st ∧ q.step Q u = .ok st' ∧ st.verdict = st'.verdict ∧
        Parallel st.piston st'.piston ∧ SameCopies s st.shared u st'.shared := by
  cases hw : P.plane.wordAt? p.x p.y with
  | none =>
    have hw' : Q.plane.wordAt? q.x q.y = none := by rw [← hwords, ← h.x, ← h.y, hw]
    exact .inr ⟨_, _, step_outside hw, step_outside hw', rfl, h.retire, .none rfl rfl⟩
  | some w =>
    have hw' : Q.plane.wordAt? q.x q.y = some w := by rw [← hwords, ← h.x, ← h.y, hw]
    have hreg : Q.registry = P.registry := hQ.trans hP.symm
    cases hd : P.registry.decode w with
    | error cause =>
      exact .inl ⟨cause, step_undecodable hw hd, step_undecodable hw' (by rw [hreg, hd])⟩
    | ok d =>
      refine .inr ⟨_, _, step_inside hw hd, step_inside hw' (by rw [hreg, hd]), ?_⟩
      obtain ⟨hv, hpiston, hcopies⟩ := Catalog.parallel (Catalog.mem_of_decode hP hd) d.args
        (c := ⟨_, s⟩) (d := ⟨_, u⟩) h.count
      refine ⟨hv, ?_, hcopies⟩
      simp only [Piston.execute]
      rw [hv]
      split
      · exact hpiston.retire
      · exact hpiston

/-! ## What follows on a track -/

/-- These words under the standard registry, and nothing else. -/
def Program.bare (words : Nat → Nat → Option Word) : Program := ⟨⟨words, []⟩, .standard, .standard, []⟩

/-- The tracks of a piston that stepped, if it goes on, and of the copies it sent off. -/
def following (p : Piston) (queued : List MergeRequest) : List Track :=
  ([p].filter (!·.ended) ++ entrants queued).map Piston.track

/-- The tracks that follow on one in a cycle, or nothing if its piston kills the engine or meets a word
that means nothing.  A piston of no account is set on the track, and steps. -/
def Track.next (words : Nat → Nat → Option Word) (t : Track) : Option (List Track) :=
  match t.piston.step (.bare words) (.fresh []) with
  | .error _ => none
  | .ok st => if st.verdict = .kill then none else some (following st.piston st.shared.queue)

section

variable {program : Program} {words : Nat → Nat → Option Word} {s s' : Shared} {p : Piston}
  {ps : List Piston} {st : Step} {sts : List Step}

/-- A piston that can step and does not kill the engine goes on as its track says. -/
theorem Piston.step_next (hwords : program.plane.wordAt? = words)
    (hreg : program.registry = .standard) (hp : p.ended = false) (hst : p.step program s = .ok st)
    (hgoes : st.verdict ≠ .kill) :
    ∃ added, st.shared.queue = s.queue ++ added ∧
      p.track.next words = some (following st.piston added) := by
  rcases Piston.step_parallel (P := program) (Q := .bare words) (s := s) (u := .fresh []) hwords hreg
      rfl (.of_track hp) with ⟨cause, herr, _⟩ | ⟨st₁, st₂, hst₁, hst₂, hv, hpar, q, r, hq, hr, hqr⟩
  · rw [hst] at herr
    cases herr
  · rw [hst] at hst₁
    cases hst₁
    have hempty : st₂.shared.queue = r := hr
    refine ⟨q, hq, ?_⟩
    simp only [Track.next, hst₂, ← hv, if_neg hgoes, hempty]
    have hself : ([st₂.piston].filter (!·.ended)).map Piston.track =
        ([st.piston].filter (!·.ended)).map Piston.track := by
      simp only [List.filter_cons, List.filter_nil, hpar.ended]
      split
      · rw [List.map_singleton, List.map_singleton, hpar.track]
      · rfl
    rw [following, following, List.map_append, List.map_append, hself, hqr]

/-- A piston that cannot step is stopped on its track. -/
theorem Piston.step_stopped (hwords : program.plane.wordAt? = words)
    (hreg : program.registry = .standard) (hp : p.ended = false)
    (hstop : (∃ cause, p.step program s = .error cause) ∨
      ∃ st, p.step program s = .ok st ∧ st.verdict = .kill) : p.track.next words = none := by
  rcases Piston.step_parallel (P := program) (Q := .bare words) (s := s) (u := .fresh []) hwords hreg
      rfl (.of_track hp) with ⟨cause, _, herr⟩ | ⟨st₁, st₂, hst₁, hst₂, hv, _⟩
  · simp [Track.next, herr]
  · rcases hstop with ⟨cause, herr⟩ | ⟨st, hst, hkill⟩
    · rw [hst₁] at herr
      cases herr
    · rw [hst₁] at hst
      cases hst
      simp [Track.next, hst₂, ← hv, hkill]

end

/-! ## Swarms -/

namespace Swarm

variable (words : Nat → Nat → Option Word)

/-- A number of tracks one cycle later, each gone its own way. -/
def next (ts : Multiset Track) : Multiset Track :=
  ts.bind fun t => ((t.next words).getD [] : List Track)

/-- None of the tracks is stopped. -/
def Free (ts : Multiset Track) : Prop := ∀ t ∈ ts, (t.next words).isSome = true

/-- None of the tracks is stopped for so many cycles. -/
def FreeFor : Nat → Multiset Track → Prop
  | 0, _ => True
  | n + 1, ts => Free words ts ∧ FreeFor n (next words ts)

variable {words}

theorem next_add (ts us : Multiset Track) :
    next words (ts + us) = next words ts + next words us := Multiset.add_bind _ _ _

theorem next_cons (t : Track) (ts : List Track) :
    next words (t :: ts : List Track) =
      ((t.next words).getD [] : List Track) + next words (ts : List Track) := by
  rw [← Multiset.cons_coe, next, Multiset.cons_bind]
  rfl

theorem free_cons {t : Track} {ts : List Track} :
    Free words (t :: ts : List Track) ↔
      (t.next words).isSome = true ∧ Free words (ts : List Track) := by
  simp [Free]

theorem free_add {ts us : Multiset Track} :
    Free words (ts + us) ↔ Free words ts ∧ Free words us := by
  simp only [Free, Multiset.mem_add, or_imp, forall_and]

theorem freeFor_add {n : Nat} {ts us : Multiset Track} :
    FreeFor words n (ts + us) ↔ FreeFor words n ts ∧ FreeFor words n us := by
  induction n generalizing ts us with
  | zero => simp [FreeFor]
  | succ n ih =>
    simp only [FreeFor, next_add, free_add, ih]
    tauto

theorem iterate_next_add (n : Nat) (ts us : Multiset Track) :
    (next words)^[n] (ts + us) = (next words)^[n] ts + (next words)^[n] us := by
  induction n generalizing ts us with
  | zero => rfl
  | succ n ih => rw [Function.iterate_succ_apply, next_add, ih]; rfl

end Swarm

/-- **A completed pass follows every track.** Those that go on and the copies sent off are on the tracks
that follow on those of the list. -/
theorem Steps.tracks {program : Program} {words : Nat → Nat → Option Word} {s s' : Shared}
    {ps : List Piston} {sts : List Step} (hwords : program.plane.wordAt? = words)
    (hreg : program.registry = .standard) (h : Steps program s ps sts s')
    (hps : ∀ p ∈ ps, p.ended = false) :
    ∃ added, s'.queue = s.queue ++ added ∧
      Swarm.Free words (ps.map Piston.track : List Track) ∧
      (((sts.map (·.piston)).filter (!·.ended) ++ entrants added).map Piston.track : List Track) =
        Swarm.next words (ps.map Piston.track : List Track) := by
  induction h with
  | nil s => exact ⟨[], by simp, by simp [Swarm.Free], by simp [Swarm.next]⟩
  | @cons s s' p ps st sts step goes rest ih =>
    obtain ⟨hp, hps⟩ := List.forall_mem_cons.mp hps
    obtain ⟨q, hq, hnext⟩ := Piston.step_next hwords hreg hp step goes
    obtain ⟨added, hadded, hfree, heq⟩ := ih hps
    refine ⟨q ++ added, by rw [hadded, hq, List.append_assoc], ?_, ?_⟩
    · rw [List.map_cons, Swarm.free_cons, hnext]
      exact ⟨rfl, hfree⟩
    · -- the copies queued by the first piston stand behind the others in the list
      have hfilter : (st.piston :: sts.map (·.piston)).filter (!·.ended) =
          [st.piston].filter (!·.ended) ++ (sts.map (·.piston)).filter (!·.ended) :=
        List.filter_append [st.piston] _
      rw [List.map_cons, List.map_cons, Swarm.next_cons, hnext, ← heq, hfilter, entrants_append,
        Option.getD_some, following]
      simp only [List.map_append, ← Multiset.coe_add]
      rw [add_add_add_comm]

/-! ## Engines -/

/-- The engine runs over these words and the standard registry, between two cycles, and its pistons are
on these tracks. -/
structure Engine.Carries (words : Nat → Nat → Option Word) (ts : Multiset Track) (e : Engine) :
    Prop where
  words : e.program.plane.wordAt? = words
  standard : e.program.registry = .standard
  aborted : e.aborted = none
  settled : Settled e
  tracks : e.tracks = ts

/-- For so many cycles the engine returns no error and no piston kills it. -/
def Engine.Undisturbed (n : Nat) (e : Engine) : Prop :=
  e.results (List.replicate n .cycle) = List.replicate n none ∧
    ∀ ev ∈ e.history (List.replicate n .cycle), ev.isKill = false

theorem Engine.undisturbed_succ {n : Nat} {e : Engine} :
    e.Undisturbed (n + 1) ↔
      (e.cycle.error = none ∧ ∀ ev ∈ e.cycle.events, ev.isKill = false) ∧
        e.cycle.engine.Undisturbed n := by
  simp only [Undisturbed, List.replicate_succ, results, history, call, List.cons.injEq,
    List.forall_mem_append]
  tauto

theorem Event.isKill_of_isDeed {ev : Event} (h : ev.isDeed = true) : ev.isKill = false := by
  cases ev with
  | killed => cases h
  | _ => rfl

namespace Engine.Carries

variable {words : Nat → Nat → Option Word} {ts : Multiset Track} {e : Engine}

/-- A fresh engine carries its start points. -/
theorem start (words : Nat → Nat → Option Word) (starts : List StartPoint) (config : Config)
    (input : List Char) :
    Carries words (starts.map StartPoint.track : List Track)
      (Engine.start ⟨⟨words, starts⟩, .standard, config, input⟩).engine := by
  refine ⟨rfl, rfl, rfl, .reset _, ?_⟩
  show ((spawnAll starts).map Piston.track : Multiset Track) = _
  congr 1
  apply List.ext_getElem
  · simp [spawnAll]
  · intro i _ _
    simp [spawnAll, Piston.spawn, Piston.track, StartPoint.track]

/-- A piston that is stopped stops its track. -/
theorem not_free (h : Carries words ts e) {p : Piston} (hp : p ∈ e.pistons) {s : Shared}
    (hstop : (∃ cause, p.step e.program s = .error cause) ∨
      ∃ st, p.step e.program s = .ok st ∧ st.verdict = .kill) : ¬Swarm.Free words ts := by
  intro hfree
  have hmem : p.track ∈ ts := by
    rw [← h.tracks]
    exact Multiset.mem_coe.mpr (List.mem_map_of_mem hp)
  have hsome := hfree _ hmem
  rw [Piston.step_stopped h.words h.standard (h.settled.active p hp) hstop] at hsome
  cases hsome

/-- **One cycle.** Either no track is stopped, and the engine carries the swarm on without a disturbance;
or one is, and the engine is disturbed. -/
theorem advance (h : Carries words ts e) (hend : e.isEnded = false) :
    (Swarm.Free words ts ∧
      (e.advance.error = none ∧ ∀ ev ∈ e.advance.events, ev.isKill = false) ∧
      Carries words (Swarm.next words ts) e.advance.engine) ∨
    (¬Swarm.Free words ts ∧
      ¬(e.advance.error = none ∧ ∀ ev ∈ e.advance.events, ev.isKill = false)) := by
  rcases e.advance_cases with ⟨sts, s', hs, heq⟩ |
    ⟨pre, p, post, sts, s', cause, hps, _, hp, heq⟩ |
    ⟨pre, p, post, sts, s', st, hps, _, hp, hk, heq⟩
  · left
    obtain ⟨added, hadded, hfree, htracks⟩ := hs.tracks h.words h.standard h.settled.active
    obtain ⟨added', hqueued⟩ := hs.queued
    rw [h.settled.queue, List.nil_append] at hadded
    have hsame : added' = added := by
      rw [← hadded, hqueued.queue, h.settled.queue, List.nil_append]
    subst hsame
    have hts : (e.pistons.map Piston.track : Multiset Track) = ts := h.tracks
    rw [hts] at hfree htracks
    have hsettled : Settled e.advance.engine :=
      (Settled.maintained e.program).advance [] e rfl h.aborted hend (fun _ => h.settled)
        (by rw [heq]; exact h.aborted)
    refine ⟨hfree, ⟨by rw [heq], ?_⟩, ?_⟩
    · rw [heq]
      refine List.forall_mem_append.mpr ⟨?_, by simp [Event.isKill]⟩
      exact fun ev hev => Event.isKill_of_isDeed (hs.deeds ev hev)
    · refine ⟨by rw [heq]; exact h.words, by rw [heq]; exact h.standard,
        by rw [heq]; exact h.aborted, hsettled, ?_⟩
      rw [← htracks, heq, hadded]
      refine Multiset.coe_eq_coe.mpr (List.Perm.map _ (drain_filter_perm ?_))
      exact fun p hp => (hqueued.newborn p hp).1
  · right
    have hmem : p ∈ e.pistons := by simp [hps]
    refine ⟨h.not_free hmem (.inl ⟨cause, hp⟩), ?_⟩
    rw [heq]
    simp
  · right
    have hmem : p ∈ e.pistons := by simp [hps]
    refine ⟨h.not_free hmem (.inr ⟨st, hp, hk⟩), ?_⟩
    rw [heq]
    rintro ⟨_, hquiet⟩
    have hkilled := hquiet (.killed e.name e.cycles) (by simp)
    cases hkilled

/-- The same for an engine that may have ended: it carries nothing, and goes on carrying nothing. -/
theorem cycle (h : Carries words ts e) :
    (Swarm.Free words ts ∧
      (e.cycle.error = none ∧ ∀ ev ∈ e.cycle.events, ev.isKill = false) ∧
      Carries words (Swarm.next words ts) e.cycle.engine) ∨
    (¬Swarm.Free words ts ∧
      ¬(e.cycle.error = none ∧ ∀ ev ∈ e.cycle.events, ev.isKill = false)) := by
  cases hend : e.isEnded with
  | false =>
    rw [Engine.cycle_of_active h.aborted hend]
    exact h.advance hend
  | true =>
    left
    have hcycle : e.cycle = ⟨e, none, []⟩ := by simp [Engine.cycle, h.aborted, hend]
    have hts : ts = 0 := by
      rw [← h.tracks, Engine.tracks, h.settled.isEnded_iff.mp hend]
      rfl
    rw [hcycle, hts]
    refine ⟨by simp [Swarm.Free], ⟨rfl, by simp⟩, ?_⟩
    rw [Swarm.next, Multiset.zero_bind, ← hts]
    exact h

/-- **Cycle after cycle.** An engine is undisturbed for as long as none of the tracks it carries is
stopped, and for so long it carries them on. -/
theorem cycles (h : Carries words ts e) (n : Nat) :
    (e.Undisturbed n ↔ Swarm.FreeFor words n ts) ∧
      (Swarm.FreeFor words n ts →
        Carries words ((Swarm.next words)^[n] ts) (e.callAll (List.replicate n .cycle))) := by
  induction n generalizing ts e with
  | zero => exact ⟨by simp [Undisturbed, results, history, Swarm.FreeFor], fun _ => h⟩
  | succ n ih =>
    rw [undisturbed_succ, Swarm.FreeFor]
    rcases h.cycle with ⟨hfree, hok, h'⟩ | ⟨hstop, hbad⟩
    · obtain ⟨hiff, hcarry⟩ := ih h'
      exact ⟨and_congr (iff_of_true hok hfree) hiff, fun hf => hcarry hf.2⟩
    · exact ⟨iff_of_false (fun hu => hbad hu.1) fun hf => hstop hf.1, fun hf => absurd hf.1 hstop⟩

end Engine.Carries

/-- **Superposition.** Take any words and two lists of start points over the standard registry, with any
configurations and inputs.  If for `n` cycles neither engine executes a `KILL` or meets a decode error,
then the same holds of the engine of both lists together, in whatever order its start points are
listed: it succeeds for `n` cycles, and then its active pistons are, in place, heading, priority and
count, those of the first engine together with those of the second. -/
theorem start_points_superpose (words : Nat → Nat → Option Word)
    (starts₁ starts₂ starts : List StartPoint) (hstarts : starts.Perm (starts₁ ++ starts₂))
    (config₁ config₂ config : Config) (input₁ input₂ input : List Char) (n : Nat) :
    let program₁ : Program := ⟨⟨words, starts₁⟩, .standard, config₁, input₁⟩
    let program₂ : Program := ⟨⟨words, starts₂⟩, .standard, config₂, input₂⟩
    let program : Program := ⟨⟨words, starts⟩, .standard, config, input⟩
    (Engine.start program₁).engine.Undisturbed n → (Engine.start program₂).engine.Undisturbed n →
      (Engine.start program).engine.Undisturbed n ∧
        (program.after (List.replicate n .cycle)).tracks =
          (program₁.after (List.replicate n .cycle)).tracks +
            (program₂.after (List.replicate n .cycle)).tracks := by
  intro program₁ program₂ program h₁ h₂
  obtain ⟨hiff₁, hcarry₁⟩ := (Engine.Carries.start words starts₁ config₁ input₁).cycles n
  obtain ⟨hiff₂, hcarry₂⟩ := (Engine.Carries.start words starts₂ config₂ input₂).cycles n
  obtain ⟨hiff, hcarry⟩ := (Engine.Carries.start words starts config input).cycles n
  have hfree₁ := hiff₁.mp h₁
  have hfree₂ := hiff₂.mp h₂
  have hsum : (starts.map StartPoint.track : Multiset Track) =
      (starts₁.map StartPoint.track : List Track) + (starts₂.map StartPoint.track : List Track) := by
    rw [Multiset.coe_add, ← List.map_append]
    exact Multiset.coe_eq_coe.mpr (hstarts.map _)
  have hfree : Swarm.FreeFor words n (starts.map StartPoint.track : List Track) := by
    rw [hsum]
    exact Swarm.freeFor_add.mpr ⟨hfree₁, hfree₂⟩
  refine ⟨hiff.mpr hfree, ?_⟩
  calc (program.after (List.replicate n .cycle)).tracks
      = (Swarm.next words)^[n] (starts.map StartPoint.track : List Track) := (hcarry hfree).tracks
    _ = (Swarm.next words)^[n] (starts₁.map StartPoint.track : List Track) +
          (Swarm.next words)^[n] (starts₂.map StartPoint.track : List Track) := by
        rw [hsum, Swarm.iterate_next_add]
    _ = (program₁.after (List.replicate n .cycle)).tracks +
          (program₂.after (List.replicate n .cycle)).tracks :=
        congrArg₂ (· + ·) (hcarry₁ hfree₁).tracks.symm (hcarry₂ hfree₂).tracks.symm

/-- A fork at a crossing, with a change of priority below it and an end to the right of it. -/
def crossing : Nat → Nat → Option Word :=
  SparseGrid.wordAt? ⟨[((1, 1), .plain 0x4 1), ((1, 2), .registerMeta 0xD 6 (.ofBits 0) .none 5),
    ((2, 1), .plain 0xF 0)], some .blank, []⟩

/-- The engine of that plane with given start points. -/
def crossingFrom (starts : List StartPoint) : Program := ⟨⟨crossing, starts⟩, .standard, .standard, []⟩

/-- From the left a piston ends and its copy takes priority five; from above a piston takes priority
five and its copy leaves over the edge.  Together, in either order, they do both. -/
theorem start_points_superpose_crossing :
    (Engine.start (crossingFrom [⟨0, 1, .right⟩])).engine.Undisturbed 3 ∧
      (Engine.start (crossingFrom [⟨1, 0, .down⟩])).engine.Undisturbed 3 ∧
      ((crossingFrom [⟨0, 1, .right⟩]).after (List.replicate 3 .cycle)).pistons.map Piston.track =
        [⟨1, 2, .down, 5, 1⟩] ∧
      ((crossingFrom [⟨1, 0, .down⟩]).after (List.replicate 3 .cycle)).pistons.map Piston.track =
        [⟨1, 2, .down, 5, 3⟩, ⟨1048575, 1, .left, 0, 1⟩] ∧
      ((crossingFrom [⟨1, 0, .down⟩, ⟨0, 1, .right⟩]).after (List.replicate 3 .cycle)).tracks =
        ((crossingFrom [⟨0, 1, .right⟩]).after (List.replicate 3 .cycle)).tracks +
          ((crossingFrom [⟨1, 0, .down⟩]).after (List.replicate 3 .cycle)).tracks := by
  have h₁ : (Engine.start (crossingFrom [⟨0, 1, .right⟩])).engine.Undisturbed 3 :=
    ⟨rfl, by decide⟩
  have h₂ : (Engine.start (crossingFrom [⟨1, 0, .down⟩])).engine.Undisturbed 3 :=
    ⟨rfl, by decide⟩
  refine ⟨h₁, h₂, rfl, rfl, ?_⟩
  exact (start_points_superpose crossing [⟨0, 1, .right⟩] [⟨1, 0, .down⟩] [⟨1, 0, .down⟩, ⟨0, 1, .right⟩]
    (.swap _ _ _) .standard .standard .standard [] [] [] 3 h₁ h₂).2

end PistonGrid
