import PistonGrid.Proofs.Standard
import PistonGrid.Proofs.Trace

/-!
# The channel accounts for everything

All pistons read from one input and write to one output.  Whatever their number and their order, the
pieces that were read and the rest make up the input, and the output is made up of the items that were
written.

* `Transfer` — one dealing with the channel: a number read, a character read, an item written.
* `Program.transfers` — those since the last reset, in the order in which they happened: cycle by cycle,
  piston by piston in list order, and in the order within each step.
* `Accounted` — the invariant: the channel is what these leave of a fresh one.  `Accounted.composable`,
  `Accounted.kept` — every script keeps it, and so does every run.
-/

set_option autoImplicit false

namespace PistonGrid

/-- One dealing with the channel. -/
inductive Transfer where
  /-- A number was read, and took this piece of the input. -/
  | number (piece : List Char)
  /-- A character was read, and took this piece of the input. -/
  | char (piece : List Char)
  /-- An item was written. -/
  | write (item : OutputItem)
deriving DecidableEq, Repr

namespace Transfer

/-- What a transfer takes from the input. -/
def taken : Transfer → List Char
  | .number piece => piece
  | .char piece => piece
  | .write _ => []

/-- What a transfer adds to the output. -/
def item? : Transfer → Option OutputItem
  | .write item => some item
  | _ => none

/-- A transfer takes what it should when the given input is left: a number takes all digits at its head,
a character takes one character, or nothing if nothing is left. -/
def Fits (left : List Char) : Transfer → Prop
  | .number piece => piece = left.takeWhile Char.isDigit
  | .char piece => piece = left.take 1
  | .write _ => True

end Transfer

/-- The dealing with the channel that an event tells of. -/
def Event.transfer? : Event → Option Transfer
  | .grabbedNumber _ piece => some (.number piece)
  | .grabbedChar _ piece => some (.char piece)
  | .wrote _ item => some (.write item)
  | _ => none

/-- The dealings with the channel that a list of events tells of, in order. -/
def transfersOf (events : List Event) : List Transfer := events.filterMap Event.transfer?

/-- The dealings with the channel since the last reset, in the order of the steps. -/
def Program.transfers (program : Program) (calls : List Call) : List Transfer :=
  (program.trace calls).flatMap fun m => transfersOf m.step.events

/-! ## The invariant -/

/-- After the transfers `done` the channel holds what they left of the text, and what they wrote; each of
them took what it should of what was left at its time. -/
structure Accounted (text : List Char) (done : List Transfer) (c : Channel) : Prop where
  input : text = done.flatMap Transfer.taken ++ c.input
  reads : Throughout
    (fun before t => ∃ left, text = before.flatMap Transfer.taken ++ left ∧ t.Fits left) done
  output : c.output = String.join ((done.filterMap Transfer.item?).map OutputItem.display)
  lastOutput : c.lastOutput = ((done.filterMap Transfer.item?).getLast?.map OutputItem.value).getD 0

namespace Accounted

variable {text : List Char} {done : List Transfer} {c c' : Channel}

theorem fresh (text : List Char) : Accounted text [] (.ofInput text) :=
  ⟨rfl, .nil, rfl, rfl⟩

/-- Events that tell of no dealing leave the books alone. -/
theorem quiet (h : Accounted text done c) {events : List Event} (hnone : transfersOf events = []) :
    Accounted text (done ++ transfersOf events) c := by
  rwa [hnone, List.append_nil]

/-- Reading takes a piece from the head of the input and leaves the output alone. -/
theorem read (h : Accounted text done c) {t : Transfer} (htaken : t.taken ++ c'.input = c.input)
    (hfits : t.Fits c.input) (hitem : t.item? = none) (hout : c'.output = c.output)
    (hlast : c'.lastOutput = c.lastOutput) : Accounted text (done ++ [t]) c' := by
  have hitems : (done ++ [t]).filterMap Transfer.item? = done.filterMap Transfer.item? := by
    simp [hitem]
  refine ⟨?_, h.reads.concat ⟨c.input, h.input, hfits⟩, ?_, ?_⟩
  · calc
      text = done.flatMap Transfer.taken ++ c.input := h.input
      _ = done.flatMap Transfer.taken ++ (t.taken ++ c'.input) := by rw [htaken]
      _ = (done ++ [t]).flatMap Transfer.taken ++ c'.input := by simp
  · rw [hout, hitems, h.output]
  · rw [hlast, hitems, h.lastOutput]

/-- Writing adds to the end of the output and leaves the input alone. -/
theorem write (h : Accounted text done c) (item : OutputItem) :
    Accounted text (done ++ [.write item]) (c.write item) := by
  refine ⟨?_, h.reads.concat ⟨c.input, h.input, trivial⟩, ?_, ?_⟩
  · simpa [Transfer.taken, Channel.write] using h.input
  · simp [Transfer.item?, Channel.write, h.output, String.join_append]
  · simp [Transfer.item?, Channel.write]

theorem grabNumber (h : Accounted text done c) :
    Accounted text (done ++ [.number c.numberPiece]) c.grabNumber.2 :=
  h.read c.numberPiece_append rfl rfl rfl rfl

theorem grabChar (h : Accounted text done c) :
    Accounted text (done ++ [.char c.charPiece]) c.grabChar.2 :=
  h.read c.charPiece_append rfl rfl c.grabChar_output c.grabChar_lastOutput

/-- **Every script accounts for its dealings with the channel.** -/
theorem composable (text : List Char) : Composable fun c events c' =>
    ∀ done, Accounted text done c.shared.channel →
      Accounted text (done ++ transfersOf events) c'.shared.channel where
  refl _ _ h := h.quiet rfl
  trans := by
    intro _ _ _ first second h₁ h₂ done h
    have := h₂ _ (h₁ done h)
    rwa [List.append_assoc, transfersOf, transfersOf, ← List.filterMap_append] at this
  action c a done h := by
    cases a with
    | write item => exact h.write item
    | move | turn | face | goTo | setRegister | retire | fork | setPriority | store | clearMemory =>
      exact h.quiet rfl
  load _ _ _ h := h.quiet rfl
  grabNumber _ _ h := h.grabNumber
  grabChar _ _ h := h.grabChar

/-- **Every run accounts for its dealings with the channel.** -/
theorem kept (program : Program) : Kept program (fun _ => True) fun trace s =>
    Accounted program.input (trace.flatMap fun m => transfersOf m.step.events) s.channel where
  spawn _ _ := trivial
  fresh _ := .fresh program.input
  step := by
    intro trace s p st _ h hst
    refine ⟨trivial, ?_⟩
    rw [List.flatMap_append, List.flatMap_singleton]
    rcases Piston.step_cases hst with ⟨_, rfl⟩ | ⟨w, d, _, _, rfl⟩
    · exact h.quiet rfl
    · exact (composable program.input).run (d.instruction.script d.args)
        ⟨{ p with executed := p.executed + 1 }, s⟩ _ h
  waiting _ _ _ := trivial
  dequeue h := h

end Accounted

/-- **Channel accounting**, over any registry and after any calls.  The input is made up of the pieces
that were taken since the last reset, in the order of the steps, and of what is left; each piece is the
one at the head of what was left at its time.  The output is made up of the items that were written, in
that order, and the last output is the value of the last of them, or zero. -/
theorem channel_accounts_for_everything (program : Program) (calls : List Call) :
    let done := program.transfers calls
    let items := done.filterMap Transfer.item?
    let channel := (program.after calls).shared.channel
    done = transfersOf (deedsSinceReset (program.chronicle calls)) ∧
    program.input = done.flatMap Transfer.taken ++ channel.input ∧
    (∀ before t after, done = before ++ t :: after →
      ∃ left, program.input = before.flatMap Transfer.taken ++ left ∧ t.Fits left) ∧
    channel.output = String.join (items.map OutputItem.display) ∧
    channel.lastOutput = (items.getLast?.map OutputItem.value).getD 0 := by
  intro done items channel
  have h := ((Accounted.kept program).after calls).2
  have hdeeds : done = transfersOf (deedsSinceReset (program.chronicle calls)) := by
    rw [← program.trace_deeds calls, transfersOf, List.filterMap_flatMap]
    rfl
  exact ⟨hdeeds, h.input, h.reads, h.output, h.lastOutput⟩

/-- Two pistons side by side.  The first reads a number, writes it and tries for a character; the second
reads a character, writes it and meets a word without a family. -/
def twoReaders : Program where
  plane := SparseGrid.plane
    ⟨[((0, 0), .registerMeta 0xC 0 (.ofBits 1) .none 0), ((1, 0), .registerMeta 0xC 2 (.ofBits 1) .none 0),
      ((2, 0), .registerMeta 0xC 1 (.ofBits 1) .none 0), ((0, 1), .registerMeta 0xC 1 (.ofBits 1) .none 0),
      ((1, 1), .registerMeta 0xC 3 (.ofBits 1) .none 0), ((2, 1), .plain 0x2 0)],
      some .blank, [⟨0, 0, .right⟩, ⟨0, 1, .right⟩]⟩
  registry := .standard
  config := .standard
  input := ['1', '2', 'x']

/-- The third cycle aborts, and the empty read that came before that is on the books as well: there was
nothing left to take. -/
theorem channel_accounts_for_everything_two_readers :
    let calls := [Call.cycle, .cycle, .cycle]
    (twoReaders.after calls).aborted.isSome = true ∧
      twoReaders.transfers calls =
        [.number ['1', '2'], .char ['x'], .write (.number 12), .write (.ofChar 'x'), .char []] ∧
      (twoReaders.after calls).shared.channel.output = "12x" ∧
      (twoReaders.after calls).shared.channel.lastOutput = 120 ∧
      ∃ left, twoReaders.input = ['1', '2', 'x'] ++ left ∧ (Transfer.char []).Fits left := by
  have h := channel_accounts_for_everything twoReaders [.cycle, .cycle, .cycle]
  have hdone : twoReaders.transfers [.cycle, .cycle, .cycle] =
      [.number ['1', '2'], .char ['x'], .write (.number 12), .write (.ofChar 'x'), .char []] := by
    decide
  simp only [hdone] at h
  obtain ⟨_, _, hreads, houtput, hlast⟩ := h
  refine ⟨by decide, hdone, houtput.trans (by decide), hlast.trans (by decide), ?_⟩
  exact hreads [.number ['1', '2'], .char ['x'], .write (.number 12), .write (.ofChar 'x')] _ [] rfl

end PistonGrid
