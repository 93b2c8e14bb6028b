import PistonGrid.Engine.Basic

/-!
# Scripts, steps and passes, case by case

What can happen when a script runs, when a piston steps and when the whole list steps, said once, so
that no later proof has to open these functions again.

* `Composable` — a relation between contexts, with the events in between, that holds of every single
  effect and composes.  `Composable.run` — it holds of every script.
* `Piston.step_cases` — a piston that steps either has left the plane or executes a decoded word.
* `Steps` — a list of pistons stepping one after the other, each in the shared state left by the one
  before it.
* `stepAll_cases` — a pass comes to its end, meets a word that means nothing, or is killed; before it
  stops it is a chain of `Steps`.
* `Engine.advance_cases` — the same for a cycle, with all that it leaves behind.
* `Event.isDeed` — the events in which a piston does something; `stepAll_deeds` — a pass tells of
  nothing else.
-/

set_option autoImplicit false

namespace PistonGrid

/-! ## Scripts -/

/-- A relation that holds of doing nothing and of each effect alone, and that composes. -/
structure Composable (R : Context → List Event → Context → Prop) : Prop where
  refl : ∀ c, R c [] c
  trans : ∀ {a b c : Context} {first second : List Event}, R a first b → R b second c →
    R a (first ++ second) c
  action : ∀ (c : Context) (a : Action), R c (a.events c) (a.apply c)
  load : ∀ (c : Context) (address : Nat),
    R c [.loaded c.piston.id address (c.shared.memory.get address)] c
  grabNumber : ∀ c : Context, R c [.grabbedNumber c.piston.id c.shared.channel.numberPiece]
    { c with shared := { c.shared with channel := c.shared.channel.grabNumber.2 } }
  grabChar : ∀ c : Context, R c [.grabbedChar c.piston.id c.shared.channel.charPiece]
    { c with shared := { c.shared with channel := c.shared.channel.grabChar.2 } }

/-- **What every effect does, every script does.** -/
theorem Composable.run {R : Context → List Event → Context → Prop} (hR : Composable R) (s : Script)
    (c : Context) : R c (s.run c).events (s.run c).context := by
  induction s generalizing c with
  | finish verdict => exact hR.refl c
  | perform action next ih => exact hR.trans (hR.action c action) (ih _)
  | load address next ih => exact hR.trans (hR.load c address) (ih _ c)
  | grabNumber next ih => exact hR.trans (hR.grabNumber c) (ih _ _)
  | grabChar next ih => exact hR.trans (hR.grabChar c) (ih _ _)
  | inspect next ih => exact ih c c

/-! ## Steps -/

/-- The step of a piston that executes a decoded word. -/
def Piston.execute (p : Piston) (s : Shared) (w : Word) (d : Decoded) : Step :=
  let r := (d.instruction.script d.args).run ⟨{ p with executed := p.executed + 1 }, s⟩
  ⟨if r.verdict = .retire then r.context.piston.retire else r.context.piston, r.context.shared,
    r.verdict, .executed p.id p.x p.y w d.instruction.mnemonic :: r.events⟩

/-- The step of a piston that stands outside the plane. -/
def Piston.leave (p : Piston) (s : Shared) : Step :=
  ⟨p.retire, s, .retire, [.leftPlane p.id p.x p.y]⟩

section

variable {program : Program} {s : Shared} {p : Piston}

theorem Piston.step_outside (hw : program.plane.wordAt? p.x p.y = none) :
    p.step program s = .ok (p.leave s) := by
  simp [step, hw, leave]

theorem Piston.step_inside {w : Word} {d : Decoded} (hw : program.plane.wordAt? p.x p.y = some w)
    (hd : program.registry.decode w = .ok d) : p.step program s = .ok (p.execute s w d) := by
  simp [step, hw, hd, execute]

theorem Piston.step_undecodable {w : Word} {cause : DecodeError}
    (hw : program.plane.wordAt? p.x p.y = some w)
    (hd : program.registry.decode w = .error cause) : p.step program s = .error cause := by
  simp [step, hw, hd]

theorem Piston.step_cases {st : Step} (h : p.step program s = .ok st) :
    (program.plane.wordAt? p.x p.y = none ∧ st = p.leave s) ∨
      ∃ w d, program.plane.wordAt? p.x p.y = some w ∧ program.registry.decode w = .ok d ∧
        st = p.execute s w d := by
  cases hw : program.plane.wordAt? p.x p.y with
  | none =>
    rw [step_outside hw] at h
    cases h
    exact .inl ⟨rfl, rfl⟩
  | some w =>
    cases hd : program.registry.decode w with
    | error cause => rw [step_undecodable hw hd] at h; cases h
    | ok d =>
      rw [step_inside hw hd] at h
      cases h
      exact .inr ⟨w, d, rfl, hd, rfl⟩

/-- A piston that cannot step stands on a word that means nothing. -/
theorem Piston.step_error {cause : DecodeError} (h : p.step program s = .error cause) :
    ∃ w, program.plane.wordAt? p.x p.y = some w ∧ program.registry.decode w = .error cause := by
  cases hw : program.plane.wordAt? p.x p.y with
  | none => rw [step_outside hw] at h; cases h
  | some w =>
    cases hd : program.registry.decode w with
    | ok d => rw [step_inside hw hd] at h; cases h
    | error c =>
      rw [step_undecodable hw hd] at h
      cases h
      exact ⟨w, rfl, hd⟩

end

/-! ## Passes -/

/-- The pistons of a list step one after the other, and none of them kills the engine. -/
inductive Steps (program : Program) : Shared → List Piston → List Step → Shared → Prop where
  | nil (s : Shared) : Steps program s [] [] s
  | cons {s s' : Shared} {p : Piston} {ps : List Piston} {st : Step} {sts : List Step}
      (step : p.step program s = .ok st) (goes : st.verdict ≠ .kill)
      (rest : Steps program st.shared ps sts s') : Steps program s (p :: ps) (st :: sts) s'

/-- **The three ways of a pass.** All pistons step; or one of them meets a word that means nothing; or
one of them kills the engine.  The pistons behind it are then left as they were. -/
theorem stepAll_cases (program : Program) (s : Shared) (ps : List Piston) :
    (∃ sts s', Steps program s ps sts s' ∧
      stepAll program s ps = ⟨sts.map (·.piston), s', none, sts.flatMap (·.events)⟩) ∨
    (∃ pre p post sts s' cause, ps = pre ++ p :: post ∧ Steps program s pre sts s' ∧
      p.step program s' = .error cause ∧
      stepAll program s ps =
        ⟨sts.map (·.piston) ++ p :: post, s', some (.fault p cause), sts.flatMap (·.events)⟩) ∨
    (∃ pre p post sts s' st, ps = pre ++ p :: post ∧ Steps program s pre sts s' ∧
      p.step program s' = .ok st ∧ st.verdict = .kill ∧
      stepAll program s ps =
        ⟨sts.map (·.piston) ++ st.piston :: post, st.shared, some .kill,
          sts.flatMap (·.events) ++ st.events⟩) := by
  induction ps generalizing s with
  | nil => exact .inl ⟨[], s, .nil s, rfl⟩
  | cons p ps ih =>
    cases hst : p.step program s with
    | error cause =>
      exact .inr (.inl ⟨[], p, ps, [], s, cause, rfl, .nil s, hst, by simp [stepAll, hst]⟩)
    | ok st =>
      by_cases hk : st.verdict = .kill
      · exact .inr (.inr ⟨[], p, ps, [], s, st, rfl, .nil s, hst, hk, by simp [stepAll, hst, hk]⟩)
      · have hall : stepAll program s (p :: ps) =
            let rest := stepAll program st.shared ps
            ⟨st.piston :: rest.pistons, rest.shared, rest.halt, st.events ++ rest.events⟩ := by
          simp [stepAll, hst, hk]
        rw [hall]
        rcases ih st.shared with ⟨sts, s', hs, heq⟩ |
          ⟨pre, q, post, sts, s', cause, rfl, hs, hq, heq⟩ |
          ⟨pre, q, post, sts, s', st', rfl, hs, hq, hk', heq⟩
        · exact .inl ⟨st :: sts, s', .cons hst hk hs, by simp [heq]⟩
        · exact .inr (.inl ⟨p :: pre, q, post, st :: sts, s', cause, rfl, .cons hst hk hs, hq,
            by simp [heq]⟩)
        · exact .inr (.inr ⟨p :: pre, q, post, st :: sts, s', st', rfl, .cons hst hk hs, hq, hk',
            by simp [heq]⟩)

/-- Two programs under which every piston of a list steps alike have the same pass over it. -/
theorem stepAll_congr {program program' : Program} {ps : List Piston}
    (h : ∀ p ∈ ps, ∀ s, p.step program' s = p.step program s) (s : Shared) :
    stepAll program' s ps = stepAll program s ps := by
  induction ps generalizing s with
  | nil => rfl
  | cons p ps ih =>
    obtain ⟨hp, hps⟩ := List.forall_mem_cons.mp h
    unfold stepAll
    rw [hp s]
    cases p.step program s with
    | error cause => rfl
    | ok st => simp only [ih hps]

/-! ## What a pass tells of -/

/-- The event tells of something that a piston did in its step, and not of the list or the engine. -/
def Event.isDeed : Event → Bool
  | .reset _ _ _ => false
  | .placed _ => false
  | .killed _ _ => false
  | .aborted _ _ _ _ _ => false
  | _ => true

theorem Script.deeds (script : Script) (c : Context) :
    ∀ ev ∈ (script.run c).events, ev.isDeed = true := by
  have h : Composable fun _ events _ => ∀ ev ∈ events, ev.isDeed = true := by
    refine ⟨by simp, ?_, ?_, ?_, ?_, ?_⟩
    · intro _ _ _ first second h₁ h₂
      exact List.forall_mem_append.mpr ⟨h₁, h₂⟩
    · intro c a
      cases a <;> simp [Action.events, Event.isDeed]
    · simp [Event.isDeed]
    · simp [Event.isDeed]
    · simp [Event.isDeed]
  exact h.run script c

section

variable {program : Program} {s s' : Shared} {p : Piston} {ps : List Piston} {st : Step}
  {sts : List Step}

theorem Piston.step_deeds (h : p.step program s = .ok st) : ∀ ev ∈ st.events, ev.isDeed = true := by
  rcases Piston.step_cases h with ⟨_, rfl⟩ | ⟨w, d, _, _, rfl⟩
  · simp [Piston.leave, Event.isDeed]
  · exact List.forall_mem_cons.mpr ⟨rfl, Script.deeds _ _⟩

theorem Steps.deeds (h : Steps program s ps sts s') :
    ∀ ev ∈ sts.flatMap (·.events), ev.isDeed = true := by
  induction h with
  | nil => simp
  | cons step _ _ ih =>
    rw [List.flatMap_cons]
    exact List.forall_mem_append.mpr ⟨Piston.step_deeds step, ih⟩

theorem stepAll_deeds (program : Program) (s : Shared) (ps : List Piston) :
    ∀ ev ∈ (stepAll program s ps).events, ev.isDeed = true := by
  rcases stepAll_cases program s ps with ⟨sts, s', hs, heq⟩ |
    ⟨pre, p, post, sts, s', cause, _, hs, _, heq⟩ |
    ⟨pre, p, post, sts, s', st, _, hs, hst, _, heq⟩
  · rw [heq]
    exact hs.deeds
  · rw [heq]
    exact hs.deeds
  · rw [heq]
    exact List.forall_mem_append.mpr ⟨hs.deeds, Piston.step_deeds hst⟩

end

/-! ## Cycles -/

/-- **The three ways of a cycle.** It completes: what was queued is merged, and those that ended leave.
Or it stops at a word that means nothing, and nothing is merged.  Or it is killed, and all is dropped. -/
theorem Engine.advance_cases (e : Engine) :
    (∃ sts s', Steps e.program e.shared e.pistons sts s' ∧
      e.advance =
        ⟨{ e with
            pistons := (drain s'.queue (sts.map (·.piston))).filter (!·.ended)
            shared := { s' with queue := [] }
            cycles := e.cycles + 1 }, none,
          sts.flatMap (·.events) ++ (placements s'.queue (sts.map (·.piston))).map .placed⟩) ∨
    (∃ pre p post sts s' cause, e.pistons = pre ++ p :: post ∧
      Steps e.program e.shared pre sts s' ∧ p.step e.program s' = .error cause ∧
      e.advance =
        ⟨{ e with
            pistons := sts.map (·.piston) ++ p :: post
            shared := s'
            aborted := some cause }, some (.decode p.id p.x p.y cause),
          sts.flatMap (·.events) ++ [.aborted e.name p.id p.x p.y cause]⟩) ∨
    (∃ pre p post sts s' st, e.pistons = pre ++ p :: post ∧
      Steps e.program e.shared pre sts s' ∧ p.step e.program s' = .ok st ∧ st.verdict = .kill ∧
      e.advance =
        ⟨{ e with
            pistons := []
            shared := { st.shared with queue := [] }
            cycles := e.cycles + 1 }, none,
          sts.flatMap (·.events) ++ st.events ++ [.killed e.name e.cycles]⟩) := by
  unfold advance
  rcases stepAll_cases e.program e.shared e.pistons with ⟨sts, s', hs, heq⟩ |
    ⟨pre, p, post, sts, s', cause, hps, hs, hp, heq⟩ |
    ⟨pre, p, post, sts, s', st, hps, hs, hp, hk, heq⟩
  · exact .inl ⟨sts, s', hs, by simp [heq, close]⟩
  · exact .inr (.inl ⟨pre, p, post, sts, s', cause, hps, hs, hp, by simp [heq]⟩)
  · exact .inr (.inr ⟨pre, p, post, sts, s', st, hps, hs, hp, hk,
      by simp [heq, kill, close, drain_nil]⟩)

end PistonGrid
