import PistonGrid.Piston

/-!
# Merge requests

The list of active pistons does not change while its members step. Forks and changes of priority are
queued as requests and applied to the list, in queue order, when the whole list has stepped.

* `MergeRequest.apply` — the list after one request. Targets are looked up by identity in the list as
  earlier requests left it.
* `MergeRequest.placement` — what became of one request, for the record.
* `drain`, `placements` — the same for a whole queue.
-/

set_option autoImplicit false

namespace PistonGrid

/-- The side of its anchor on which an entrant joins the list. -/
inductive Side where
  | left
  | right
deriving DecidableEq, Repr

/-- The name of a side as reports write it. -/
def Side.name : Side → String
  | .left => "Left"
  | .right => "Right"

/-- The side taken by a copy that was turned this way; a reversed copy goes to the right. -/
def Side.ofTurn : Turn → Side
  | .left => .left
  | .right => .right
  | .reverse => .right

/-- A queued change of the active list. -/
inductive MergeRequest where
  /-- Insert the entrant next to the piston with the anchor's identity. -/
  | fork (anchor : Nat) (entrant : Piston) (side : Side)
  /-- Move a piston in front of the first one whose priority does not exceed the given one. -/
  | reprioritize (piston : Nat) (priority : Int)
deriving DecidableEq, Repr

/-- What became of a request. -/
inductive Placement where
  | beside (entrant : Nat) (side : Side) (anchor : Nat)
  | anchorMissing (anchor entrant : Nat)
  | before (piston : Nat) (priority : Int) (next : Nat)
  | last (piston : Nat) (priority : Int)
  | pistonMissing (piston : Nat)
deriving DecidableEq, Repr

/-- Insert an entrant next to its anchor, or at the end if the anchor is missing. -/
def insertBeside (anchor : Nat) (entrant : Piston) (side : Side) : List Piston → List Piston
  | [] => [entrant]
  | p :: ps =>
    if p.id = anchor then
      match side with
      | .left => entrant :: p :: ps
      | .right => p :: entrant :: ps
    else p :: insertBeside anchor entrant side ps

/-- Insert a piston in front of the first one whose priority does not exceed the given one, or at the
end if there is none. -/
def insertByPriority (moving : Piston) (priority : Int) : List Piston → List Piston
  | [] => [moving]
  | p :: ps =>
    if p.priority ≤ priority then moving :: p :: ps
    else p :: insertByPriority moving priority ps

/-- The first piston of a given identity. -/
def findPiston? (id : Nat) (ps : List Piston) : Option Piston := ps.find? (·.id == id)

/-- The list without the first piston of a given identity. -/
def removePiston (id : Nat) (ps : List Piston) : List Piston := ps.eraseP (·.id == id)

namespace MergeRequest

/-- The list after one request. -/
def apply (ps : List Piston) : MergeRequest → List Piston
  | .fork anchor entrant side => insertBeside anchor entrant side ps
  | .reprioritize id priority =>
    match findPiston? id ps with
    | none => ps
    | some moving => insertByPriority moving priority (removePiston id ps)

/-- What becomes of one request. -/
def placement (ps : List Piston) : MergeRequest → Placement
  | .fork anchor entrant side =>
    match findPiston? anchor ps with
    | none => .anchorMissing anchor entrant.id
    | some _ => .beside entrant.id side anchor
  | .reprioritize id priority =>
    match findPiston? id ps with
    | none => .pistonMissing id
    | some _ =>
      match (removePiston id ps).find? (·.priority ≤ priority) with
      | none => .last id priority
      | some next => .before id priority next.id

end MergeRequest

/-- The list after all requests of a queue, in queue order. -/
def drain (queue : List MergeRequest) (ps : List Piston) : List Piston :=
  queue.foldl MergeRequest.apply ps

/-- What becomes of the requests of a queue, in queue order. -/
def placements : List MergeRequest → List Piston → List Placement
  | [], _ => []
  | r :: rest, ps => r.placement ps :: placements rest (r.apply ps)

theorem drain_nil (ps : List Piston) : drain [] ps = ps := rfl

theorem drain_cons (r : MergeRequest) (queue : List MergeRequest) (ps : List Piston) :
    drain (r :: queue) ps = drain queue (r.apply ps) := rfl

theorem drain_append (q₁ q₂ : List MergeRequest) (ps : List Piston) :
    drain (q₁ ++ q₂) ps = drain q₂ (drain q₁ ps) := by
  simp [drain, List.foldl_append]

theorem insertBeside_perm (anchor : Nat) (entrant : Piston) (side : Side) (ps : List Piston) :
    (insertBeside anchor entrant side ps).Perm (entrant :: ps) := by
  induction ps with
  | nil => exact .refl _
  | cons p ps ih =>
    unfold insertBeside
    split
    · cases side
      · exact .refl _
      · exact .swap _ _ _
    · exact (ih.cons p).trans (.swap _ _ _)

theorem insertByPriority_perm (moving : Piston) (priority : Int) (ps : List Piston) :
    (insertByPriority moving priority ps).Perm (moving :: ps) := by
  induction ps with
  | nil => exact .refl _
  | cons p ps ih =>
    unfold insertByPriority
    split
    · exact .refl _
    · exact (ih.cons p).trans (.swap _ _ _)

end PistonGrid
