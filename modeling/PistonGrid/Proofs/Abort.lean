import PistonGrid.Proofs.Identity
import PistonGrid.Proofs.Lifecycle

/-!
# A decode error stops where it happened

A piston that meets a word that means nothing stops the cycle in the middle: those in front of it have
stepped, nobody else has, and what they queued stays in the queue.  From then on the engine refuses
every run and every cycle, until it is reset.

* `Engine.advance_decode` — the state in which a failed cycle leaves the engine.
* `Engine.refuses` — an aborted engine refuses, whatever else was called meanwhile.
-/

set_option autoImplicit false

namespace PistonGrid

namespace Engine

variable {e : Engine}

/-- Of the three ways of a cycle only one returns an error.  The list is cut at the piston `k` that
failed: the steps in front of it count, and from it on everything is as before. -/
theorem advance_decode {id x y : Nat} {cause : DecodeError}
    (h : e.advance.error = some (.decode id x y cause)) :
    ∃ k p sts s', e.pistons[k]? = some p ∧ p.id = id ∧ p.x = x ∧ p.y = y ∧
      Steps e.program e.shared (e.pistons.take k) sts s' ∧ p.step e.program s' = .error cause ∧
      e.advance.engine =
        { e with
          pistons := sts.map (·.piston) ++ e.pistons.drop k
          shared := s'
          aborted := some cause } := by
  rcases e.advance_cases with ⟨_, _, _, heq⟩ | ⟨pre, p, post, sts, s', c, hps, hs, hp, heq⟩ |
    ⟨_, _, _, _, _, _, _, _, _, _, heq⟩
  · rw [heq] at h
    cases h
  · rw [heq] at h
    cases h
    have htake : e.pistons.take pre.length = pre := by rw [hps, List.take_left]
    have hdrop : e.pistons.drop pre.length = p :: post := by rw [hps, List.drop_left]
    refine ⟨pre.length, p, sts, s', ?_, rfl, rfl, rfl, ?_, hp, ?_⟩
    · rw [hps, List.getElem?_append_right (Nat.le_refl _), Nat.sub_self]
      rfl
    · rwa [htake]
    · rw [heq, hdrop]
  · rw [heq] at h
    cases h

/-- An identity tells the place in the list. -/
theorem index_of_id {past : List Event} (h : Identified past e) {j k : Nat} {p q : Piston}
    (hp : e.pistons[k]? = some p) (hq : e.pistons[j]? = some q) (hid : q.id = p.id) : j = k := by
  have hnodup : (e.pistons.map (·.id)).Nodup := (List.nodup_append.mp h.nodup).1
  obtain ⟨hj, -⟩ := List.getElem?_eq_some_iff.mp hq
  refine (List.getElem?_inj (by simpa using hj) hnodup).mp ?_
  rw [List.getElem?_map, List.getElem?_map, hp, hq, Option.map_some, Option.map_some, hid]

/-- **An aborted engine refuses** every cycle and every run, whatever was called since, and stays as
it is. -/
theorem refuses {cause : DecodeError} (h : e.aborted = some cause) {later : List Call}
    (hlater : .reset ∉ later) :
    (e.callAll later).cycle = ⟨e.callAll later, some (.aborted cause), []⟩ ∧
      (e.callAll later).run = ⟨e.callAll later, some (.aborted cause), []⟩ := by
  have hforward := status_onward.callAll later e hlater
  rw [status_eq_aborted_iff.mpr h] at hforward
  have hab : (e.callAll later).aborted = some cause :=
    status_eq_aborted_iff.mp hforward.eq_of_aborted
  constructor
  · simp [cycle, hab]
  · unfold run runWithin
    simp [hab]

end Engine

/-- **A decode error stops exactly where it happened.** The piston that the error names is the one at
some place `k` of the list: it stands where the error says, on a word that has that error, those in
front of it have stepped once, and it and all behind it are as they were.  Neither the cycle nor a run
is counted, and every call is refused for the same cause until a reset. -/
theorem decode_error_stops_in_place (program : Program) (calls : List Call)
    (halive : (program.after calls).aborted = none) (hgoing : (program.after calls).isEnded = false)
    (id x y : Nat) (cause : DecodeError)
    (herr : (program.after calls).cycle.error = some (.decode id x y cause)) :
    let e := program.after calls
    let failed := e.cycle.engine
    ∃ k p steps s', e.pistons[k]? = some p ∧ p.id = id ∧
      (∀ j q, e.pistons[j]? = some q → q.id = id → j = k) ∧
      p.x = x ∧ p.y = y ∧
      (∃ w, program.plane.wordAt? x y = some w ∧ program.registry.decode w = .error cause) ∧
      Steps program e.shared (e.pistons.take k) steps s' ∧
      failed =
        { e with
          pistons := steps.map (·.piston) ++ e.pistons.drop k
          shared := s'
          aborted := some cause } ∧
      failed.pistons.map (·.id) = e.pistons.map (·.id) ∧
      ∀ later : List Call, .reset ∉ later →
        (failed.callAll later).cycle = ⟨failed.callAll later, some (.aborted cause), []⟩ ∧
        (failed.callAll later).run = ⟨failed.callAll later, some (.aborted cause), []⟩ ∧
        (failed.callAll later).reset.engine.aborted = none := by
  intro e failed
  have hcycle : e.cycle = e.advance := Engine.cycle_of_active halive hgoing
  have hprogram : e.program = program := program.after_program calls
  rw [show (program.after calls).cycle = e.advance from hcycle] at herr
  obtain ⟨k, p, sts, s', hp, hid, hx, hy, hs, hstep, heq⟩ := Engine.advance_decode herr
  have hfailed : failed = _ := (congrArg Outcome.engine hcycle).trans heq
  rw [hprogram] at hs hstep
  obtain ⟨w, hw, hd⟩ := Piston.step_error hstep
  refine ⟨k, p, sts, s', hp, hid, ?_, hx, hy, ⟨w, ?_, hd⟩, hs, hfailed, ?_, ?_⟩
  · intro j q hq hqid
    exact Engine.index_of_id ((Identified.maintained program).after calls) hp hq
      (hqid.trans hid.symm)
  · rw [← hx, ← hy, hw]
  · rw [hfailed, List.map_append, hs.ids, ← List.map_append, List.take_append_drop]
  · intro later hlater
    have haborted : failed.aborted = some cause := by rw [hfailed]
    obtain ⟨hrefused, hrefused'⟩ := Engine.refuses haborted hlater
    exact ⟨hrefused, hrefused', rfl⟩

/-- Of four pistons the first forks, the second ends and the third meets a word that means nothing. -/
def thirdFails : Program :=
  .onBlank [((0, 0), .plain 0x4 0), ((0, 1), .plain 0xF 0), ((0, 2), .plain 0x2 7)]
    [⟨0, 0, .right⟩, ⟨0, 1, .right⟩, ⟨0, 2, .right⟩, ⟨0, 3, .right⟩]

/-- The first two have stepped, the one that ended is still listed, the copy waits, and the last two
are as they were; a kill does not lift the abort. -/
theorem decode_error_stops_in_place_thirdFails :
    let failed := (thirdFails.after []).cycle.engine
    (thirdFails.after []).cycle.error =
        some (.decode 2 0 2 (.unknownControlCode 2 (.plain 0x2 7))) ∧
      failed.pistons.map (fun p => (p.id, p.x, p.executed, p.ended)) =
        [(0, 1, 1, false), (1, 0, 1, true), (2, 0, 0, false), (3, 0, 0, false)] ∧
      (entrants failed.shared.queue).map (·.id) = [4] ∧
      (failed.callAll [.kill]).run =
        ⟨failed.callAll [.kill], some (.aborted (.unknownControlCode 2 (.plain 0x2 7))), []⟩ := by
  obtain ⟨_, _, _, _, _, _, _, _, _, _, _, _, _, hlater⟩ :=
    decode_error_stops_in_place thirdFails [] rfl rfl 2 0 2
      (.unknownControlCode 2 (.plain 0x2 7)) rfl
  exact ⟨rfl, rfl, rfl, (hlater [.kill] (by decide)).2.1⟩

end PistonGrid
