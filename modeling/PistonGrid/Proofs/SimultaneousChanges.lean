import PistonGrid.Proofs.DrainOrder
import PistonGrid.Proofs.KeyedLists

/-!
# Several changes of priority in one cycle

Pistons may raise or lower their priorities in one and the same cycle.  Each of them carries its new
priority at once, but is moved to a new place only when its request is drained, and until then the
others are placed by what they see of it: a low priority at a place that is still far in front.

* `changeAll` — a choice of new priorities, carried out piston by piston.
* `Rearranging` — the invariant of the drain: among those that do not wait to be moved priorities fall
  along the list, and a piston that waits in front of one already moved has a higher priority than it.
* `Unobstructed` — nobody who waits with a priority not above the given one stands in front of one who
  stays and has more.  `Rearranging.settled_iff` — that is exactly what the next move needs.
* `drain_descending_iff` — the whole queue leaves the list in order exactly if no move is obstructed.
-/

set_option autoImplicit false

namespace PistonGrid

/-! ## Changing priorities -/

/-- The pistons of a list change their priorities one after the other, as chosen by identity; those for
which nothing is chosen do nothing. -/
def changeAll (news : Nat → Option Int) : Shared → List Piston → List Piston × Shared
  | s, [] => ([], s)
  | s, p :: ps =>
    match news p.id with
    | none =>
      let rest := changeAll news s ps
      (p :: rest.1, rest.2)
    | some priority =>
      let c := (Action.setPriority priority).apply ⟨p, s⟩
      let rest := changeAll news c.shared ps
      (c.piston :: rest.1, rest.2)

/-- The list after a cycle in which the pistons only change their priorities. -/
def rearranged (news : Nat → Option Int) (s : Shared) (ps : List Piston) : List Piston :=
  drain (changeAll news s ps).2.queue (changeAll news s ps).1

/-- A piston with its new priority, if one is chosen for it. -/
def Piston.renewed (news : Nat → Option Int) (p : Piston) : Piston :=
  { p with priority := (news p.id).getD p.priority }

/-- The request of a piston that changes its priority. -/
def Piston.announcement? (news : Nat → Option Int) (p : Piston) : Option MergeRequest :=
  (news p.id).map (.reprioritize p.id)

section

variable {news : Nat → Option Int} {p : Piston}

@[simp] theorem Piston.renewed_id : (p.renewed news).id = p.id := rfl

theorem Piston.renewed_of_none (h : news p.id = none) : p.renewed news = p := by
  simp [Piston.renewed, h]

theorem Piston.renewed_priority_of_some {priority : Int} (h : news p.id = some priority) :
    (p.renewed news).priority = priority := by
  simp [Piston.renewed, h]

theorem Piston.announcement?_of_none (h : news p.id = none) : p.announcement? news = none := by
  simp [Piston.announcement?, h]

theorem Piston.announcement?_of_some {priority : Int} (h : news p.id = some priority) :
    p.announcement? news = some (.reprioritize p.id priority) := by
  simp [Piston.announcement?, h]

end

theorem changeAll_pistons (news : Nat → Option Int) (s : Shared) (ps : List Piston) :
    (changeAll news s ps).1 = ps.map (·.renewed news) := by
  induction ps generalizing s with
  | nil => rfl
  | cons p ps ih =>
    unfold changeAll
    cases h : news p.id with
    | none => simp [ih, Piston.renewed_of_none h]
    | some priority => simp [ih, Piston.renewed, h, Action.apply]

theorem changeAll_queue (news : Nat → Option Int) (s : Shared) (ps : List Piston) :
    (changeAll news s ps).2.queue = s.queue ++ ps.filterMap (·.announcement? news) := by
  induction ps generalizing s with
  | nil => exact (List.append_nil _).symm
  | cons p ps ih =>
    unfold changeAll
    cases h : news p.id with
    | none => simp [ih, Piston.announcement?_of_none h]
    | some priority => simp [ih, Piston.announcement?_of_some h, Action.apply, Shared.enqueue]

/-! ## One move -/

/-- A moved piston stands behind all in front that have more, and in front of the first that has not. -/
theorem insertByPriority_eq (moving : Piston) (priority : Int) (ps : List Piston) :
    insertByPriority moving priority ps =
      ps.takeWhile (fun p => decide (priority < p.priority)) ++
        moving :: ps.dropWhile (fun p => decide (priority < p.priority)) := by
  induction ps with
  | nil => rfl
  | cons p ps ih =>
    unfold insertByPriority
    by_cases hle : p.priority ≤ priority
    · have hlt : ¬ priority < p.priority := by omega
      simp [hle, hlt]
    · have hlt : priority < p.priority := by omega
      simp [hle, hlt, ih]

/-- Taking a piston out of a list leaves all others in the order they had. -/
theorem removePiston_filter (id : Nat) (ps : List Piston) :
    (removePiston id ps).filter (·.id != id) = ps.filter (·.id != id) := by
  unfold removePiston
  induction ps with
  | nil => rfl
  | cons p ps ih =>
    by_cases hp : p.id = id
    · simp [hp]
    · simp [hp, ih]

/-- A move leaves all others in the order they had. -/
theorem apply_reprioritize_filter (id : Nat) (priority : Int) (ps : List Piston) :
    ((MergeRequest.reprioritize id priority).apply ps).filter (·.id != id) =
      ps.filter (·.id != id) := by
  simp only [MergeRequest.apply]
  split
  · rfl
  · rename_i moving hfind
    have hmoving : moving.id = id := by simpa [findPiston?] using List.find?_some hfind
    rw [insertByPriority_eq, List.filter_append, List.filter_cons, if_neg (by simp [hmoving]),
      ← List.filter_append, List.takeWhile_append_dropWhile]
    exact removePiston_filter id ps

theorem findPiston?_of_mem {ps : List Piston} {p : Piston} (hnodup : (ps.map (·.id)).Nodup)
    (hp : p ∈ ps) : findPiston? p.id ps = some p := by
  rw [findPiston?, ← List.head?_filter, filter_key_eq hnodup hp]
  rfl

theorem removePiston_eq_filter {ps : List Piston} {p : Piston} (hnodup : (ps.map (·.id)).Nodup)
    (hp : p ∈ ps) : removePiston p.id ps = ps.filter (·.id != p.id) := by
  have hperm := perm_of_findPiston? (findPiston?_of_mem hnodup hp)
  rw [← (hperm.map (·.id)).nodup_iff, List.map_cons] at hnodup
  have hrest : ∀ q ∈ removePiston p.id ps, q.id ≠ p.id := fun q hq heq =>
    (List.nodup_cons.mp hnodup).1 (List.mem_map.mpr ⟨q, hq, heq⟩)
  rw [← removePiston_filter, List.filter_eq_self.mpr (by simpa using hrest)]

/-- A relation that matters only among those who are kept is not disturbed by the others. -/
theorem pairwise_of_filter_eq {α : Type} {R : α → α → Prop} {keep : α → Bool} {l l' : List α}
    (heq : l.filter keep = l'.filter keep)
    (hR : ∀ a b, (keep a = true → keep b = true → R a b) → R a b) (h : l.Pairwise R) :
    l'.Pairwise R := by
  have hkept := h.sublist (List.filter_sublist (p := keep))
  rw [heq, List.pairwise_filter] at hkept
  exact hkept.imp fun hab => hR _ _ hab

/-! ## What a move needs -/

/-- Priorities fall along a list, as far as the pistons are concerned that no request moves. -/
def SettledDescending (queue : List MergeRequest) (ps : List Piston) : Prop :=
  ps.Pairwise fun a b => a.id ∉ movers queue → b.id ∉ movers queue → b.priority ≤ a.priority

/-- Nobody who waits to be moved, with a priority not above the given one, stands in front of a piston
that has kept a higher one. -/
def Unobstructed (news : Nat → Option Int) (queue : List MergeRequest) (priority : Int)
    (ps : List Piston) : Prop :=
  ps.Pairwise fun b c => b.id ∈ movers queue → news c.id = none → b.priority ≤ priority →
    c.priority ≤ priority

/-- No move of a queue is obstructed by those that wait behind it in the queue. -/
def Clear (news : Nat → Option Int) : List MergeRequest → List Piston → Prop
  | [], _ => True
  | .fork _ _ _ :: queue, ps => Clear news queue ps
  | .reprioritize _ priority :: queue, ps => Unobstructed news queue priority ps ∧ Clear news queue ps

/-- Some of the pistons with new priorities have been moved, and the queue moves the others. -/
structure Rearranging (news : Nat → Option Int) (queue : List MergeRequest) (ps : List Piston) :
    Prop where
  nodup : (ps.map (·.id)).Nodup
  distinct : (movers queue).Nodup
  truthful : ∀ r ∈ queue, ∃ p ∈ ps, news p.id = some p.priority ∧ r = .reprioritize p.id p.priority
  settled : SettledDescending queue ps
  placed : ps.Pairwise fun b m => b.id ∈ movers queue → m.id ∉ movers queue → news m.id ≠ none →
    m.priority < b.priority

section

variable {news : Nat → Option Int} {queue : List MergeRequest} {ps front back : List Piston}
  {p : Piston} {id : Nat} {priority : Int}

/-- The place that a move finds: all in front have more, the first behind has not, and the others are
as they were. -/
structure Moved (p : Piston) (ps front back : List Piston) : Prop where
  apply_eq : (MergeRequest.reprioritize p.id p.priority).apply ps = front ++ p :: back
  others : ps.filter (·.id != p.id) = front ++ back
  more : ∀ a ∈ front, p.priority < a.priority
  no_more : ∀ b ∈ back.head?, b.priority ≤ p.priority

theorem exists_moved (hnodup : (ps.map (·.id)).Nodup) (hp : p ∈ ps) :
    ∃ front back, Moved p ps front back := by
  have happly : (MergeRequest.reprioritize p.id p.priority).apply ps =
      insertByPriority p p.priority (removePiston p.id ps) := by
    simp only [MergeRequest.apply, findPiston?_of_mem hnodup hp]
  refine ⟨_, _, happly.trans (insertByPriority_eq _ _ _), ?_, ?_, ?_⟩
  · rw [← removePiston_eq_filter hnodup hp, List.takeWhile_append_dropWhile]
  · intro a ha
    simpa using List.all_eq_true.mp List.all_takeWhile a ha
  · intro b hb
    have hnot := List.head?_dropWhile_not (fun q => decide (p.priority < q.priority))
      (removePiston p.id ps)
    rw [Option.mem_def.mp hb] at hnot
    simpa using hnot

namespace Moved

theorem perm (h : Moved p ps front back) : (front ++ p :: back).Perm ps := by
  rw [← h.apply_eq]
  simpa using apply_perm ps (.reprioritize p.id p.priority)

theorem others_sublist (h : Moved p ps front back) : (front ++ back).Sublist ps := by
  rw [← h.others]
  exact List.filter_sublist

theorem ne_of_mem (h : Moved p ps front back) {q : Piston} (hq : q ∈ front ++ back) :
    q.id ≠ p.id := by
  rw [← h.others] at hq
  simpa using (List.mem_filter.mp hq).2

/-- A relation in which neither side can be the moved piston does not notice the move. -/
theorem pairwise_iff (h : Moved p ps front back) {R : Piston → Piston → Prop}
    (hR : ∀ a b, (a.id ≠ p.id → b.id ≠ p.id → R a b) → R a b) :
    (front ++ p :: back).Pairwise R ↔ ps.Pairwise R := by
  have hsame := apply_reprioritize_filter p.id p.priority ps
  rw [h.apply_eq] at hsame
  have hR' : ∀ a b : Piston, ((a.id != p.id) = true → (b.id != p.id) = true → R a b) → R a b := by
    simpa using hR
  exact ⟨pairwise_of_filter_eq hsame hR', pairwise_of_filter_eq hsame.symm hR'⟩

/-- What a later move needs does not depend on the place of the moved piston. -/
theorem unobstructed_iff (h : Moved p ps front back) (hwait : p.id ∉ movers queue)
    (hnews : news p.id ≠ none) :
    Unobstructed news queue priority (front ++ p :: back) ↔ Unobstructed news queue priority ps := by
  refine h.pairwise_iff fun b c hbc hb hc => ?_
  exact hbc (fun heq => hwait (heq ▸ hb)) (fun heq => hnews (heq ▸ hc)) hb hc

/-- What later moves need does not depend on the place of the moved piston. -/
theorem clear_iff (h : Moved p ps front back) (hwait : p.id ∉ movers queue)
    (hnews : news p.id ≠ none) :
    Clear news queue (front ++ p :: back) ↔ Clear news queue ps := by
  induction queue with
  | nil => exact Iff.rfl
  | cons r queue ih =>
    have hwait' : p.id ∉ movers queue := fun hmem => hwait (mem_movers_cons r hmem)
    cases r with
    | fork anchor entrant side => exact ih hwait'
    | reprioritize id priority => exact and_congr (h.unobstructed_iff hwait' hnews) (ih hwait')

end Moved

namespace Rearranging

/-- Those who wait have new priorities. -/
theorem news_of_mem (h : Rearranging news queue ps) (hid : id ∈ movers queue) : news id ≠ none := by
  obtain ⟨priority, hr⟩ := mem_movers.mp hid
  obtain ⟨p, _, hnews, heq⟩ := h.truthful _ hr
  cases heq
  simp [hnews]

theorem head_not_mem (h : Rearranging news (.reprioritize p.id p.priority :: queue) ps) :
    p.id ∉ movers queue := (List.nodup_cons.mp h.distinct).1

/-- Those around the moved piston who do not wait are in order among themselves. -/
theorem others_settled (h : Rearranging news (.reprioritize p.id p.priority :: queue) ps)
    (hm : Moved p ps front back) : SettledDescending queue (front ++ back) := by
  refine (List.Pairwise.sublist hm.others_sublist h.settled).imp_of_mem ?_
  intro a b ha hb hab hna hnb
  exact hab (by simp [hm.ne_of_mem ha, hna]) (by simp [hm.ne_of_mem hb, hnb])

/-- Those around the moved piston who wait have more than those behind them who were moved before. -/
theorem others_placed (h : Rearranging news (.reprioritize p.id p.priority :: queue) ps)
    (hm : Moved p ps front back) :
    (front ++ back).Pairwise fun b m => b.id ∈ movers queue → m.id ∉ movers queue →
      news m.id ≠ none → m.priority < b.priority := by
  refine (h.placed.sublist hm.others_sublist).imp_of_mem ?_
  intro b m _ hmem hbm hb hwait
  exact hbm (mem_movers_cons _ hb) (by simp [hm.ne_of_mem hmem, hwait])

/-- The list stays in order among those who do not wait exactly if none of them has more than the moved
piston and stands behind it. -/
theorem settled_iff_behind (h : Rearranging news (.reprioritize p.id p.priority :: queue) ps)
    (hm : Moved p ps front back) :
    SettledDescending queue (front ++ p :: back) ↔
      ∀ c ∈ back, c.id ∉ movers queue → c.priority ≤ p.priority := by
  obtain ⟨hfront, hback, hacross⟩ := List.pairwise_append.mp (h.others_settled hm)
  unfold SettledDescending
  rw [List.pairwise_append, List.pairwise_cons]
  constructor
  · intro hall c hc hwait
    exact hall.2.1.1 c hc h.head_not_mem hwait
  · intro hbehind
    refine ⟨hfront, ⟨fun c hc _ => hbehind c hc, hback⟩, ?_⟩
    intro a ha b hb hna hnb
    rcases List.mem_cons.mp hb with rfl | hb
    · exact Int.le_of_lt (hm.more a ha)
    · exact hacross a ha b hb hna hnb

/-- Those in front of the moved piston have more than it, so only those behind it can be in the way. -/
theorem unobstructed_of_behind (h : Rearranging news (.reprioritize p.id p.priority :: queue) ps)
    (hm : Moved p ps front back)
    (hbehind : ∀ c ∈ back, c.id ∉ movers queue → c.priority ≤ p.priority) :
    Unobstructed news queue p.priority ps := by
  have hchanged : news p.id ≠ none := h.news_of_mem (by simp)
  have hfront : ∀ b ∈ front, ∀ c : Piston, b.priority ≤ p.priority → c.priority ≤ p.priority := by
    intro b hb c hle
    have := hm.more b hb
    omega
  rw [← hm.unobstructed_iff h.head_not_mem hchanged]
  refine List.pairwise_append.mpr ⟨?_, ?_, fun b hb c _ _ _ => hfront b hb c⟩
  · refine List.pairwise_iff_forall_sublist.mpr fun {b c} hbc _ _ => ?_
    exact hfront b (hbc.subset (by simp)) c
  · refine List.pairwise_iff_forall_sublist.mpr fun {b c} hbc _ hc _ => ?_
    rcases List.mem_cons.mp (hbc.subset (by simp : c ∈ [b, c])) with rfl | hmem
    · exact absurd hc hchanged
    · exact hbehind c hmem fun hwait => h.news_of_mem (mem_movers_cons _ hwait) hc

/-- The first piston behind the moved one has no more than it.  If it does not wait, those behind it who
do not wait have no more either; if it waits, those who were moved before have less, and the others are
low enough because the move is not obstructed. -/
theorem behind_of_unobstructed (h : Rearranging news (.reprioritize p.id p.priority :: queue) ps)
    (hm : Moved p ps front back) (hclear : Unobstructed news queue p.priority ps) :
    ∀ c ∈ back, c.id ∉ movers queue → c.priority ≤ p.priority := by
  intro c hc hwait
  cases back with
  | nil => cases hc
  | cons b back =>
    have hfirst : b.priority ≤ p.priority := hm.no_more b (by simp)
    rcases List.mem_cons.mp hc with rfl | hc
    · exact hfirst
    have hsub : [b, c].Sublist (front ++ b :: back) :=
      ((List.singleton_sublist.mpr hc).cons_cons b).trans (List.sublist_append_right _ _)
    by_cases hb : b.id ∈ movers queue
    · by_cases hnews : news c.id = none
      · exact List.pairwise_iff_forall_sublist.mp hclear (hsub.trans hm.others_sublist) hb hnews hfirst
      · have := List.pairwise_iff_forall_sublist.mp (h.others_placed hm) hsub hb hwait hnews
        omega
    · have := List.pairwise_iff_forall_sublist.mp (h.others_settled hm) hsub hb hwait
      omega

/-- **What a move needs.** The list stays in order, up to those who still wait, exactly if the move is
not obstructed. -/
theorem settled_iff (h : Rearranging news (.reprioritize p.id p.priority :: queue) ps)
    (hm : Moved p ps front back) :
    SettledDescending queue (front ++ p :: back) ↔ Unobstructed news queue p.priority ps :=
  (h.settled_iff_behind hm).trans ⟨h.unobstructed_of_behind hm, h.behind_of_unobstructed hm⟩

/-- One move that is not obstructed keeps the invariant. -/
theorem step (h : Rearranging news (.reprioritize p.id p.priority :: queue) ps)
    (hm : Moved p ps front back) (hsettled : SettledDescending queue (front ++ p :: back)) :
    Rearranging news queue (front ++ p :: back) where
  nodup := (hm.perm.map (·.id)).nodup_iff.mpr h.nodup
  distinct := (List.nodup_cons.mp h.distinct).2
  truthful := by
    intro r hr
    obtain ⟨q, hq, hr'⟩ := h.truthful r (List.mem_cons_of_mem _ hr)
    exact ⟨q, hm.perm.mem_iff.mpr hq, hr'⟩
  settled := hsettled
  placed := by
    obtain ⟨hfront, hback, hacross⟩ := List.pairwise_append.mp (h.others_placed hm)
    refine List.pairwise_append.mpr ⟨hfront, List.pairwise_cons.mpr ⟨?_, hback⟩, ?_⟩
    · exact fun m _ hb => absurd hb h.head_not_mem
    · intro b hb m hmem hwait hplaced hnews
      rcases List.mem_cons.mp hmem with rfl | hmem
      · exact hm.more b hb
      · exact hacross b hb m hmem hwait hplaced hnews

end Rearranging

/-- Moves leave those who do not move in the order they had. -/
theorem drain_moves_filter (keep : Piston → Bool) (ps : List Piston)
    (hmoves : ∀ r ∈ queue, ∃ id priority, r = .reprioritize id priority)
    (hkeep : ∀ q, keep q = true → q.id ∉ movers queue) :
    (drain queue ps).filter keep = ps.filter keep := by
  induction queue generalizing ps with
  | nil => rfl
  | cons r queue ih =>
    obtain ⟨⟨id, priority, rfl⟩, hrest⟩ := List.forall_mem_cons.mp hmoves
    have hother : ∀ q : Piston, keep q = true → (q.id != id) = true := by
      intro q hq
      have hnot := hkeep q hq
      simp only [movers_reprioritize, List.mem_cons, not_or] at hnot
      simpa using hnot.1
    have hsplit : keep = fun q => keep q && q.id != id := by
      funext q
      cases hq : keep q with
      | false => rfl
      | true => rw [hother q hq, Bool.and_self]
    rw [drain_cons, ih _ hrest fun q hq hmem => hkeep q hq (mem_movers_cons _ hmem), hsplit,
      ← List.filter_filter, ← List.filter_filter, apply_reprioritize_filter]

/-- If moves lead to a list in order, those who do not move were in order before. -/
theorem settled_of_drain (hmoves : ∀ r ∈ queue, ∃ id priority, r = .reprioritize id priority)
    (h : Descending (drain queue ps)) : SettledDescending queue ps := by
  have hsame := drain_moves_filter (fun p => decide (p.id ∉ movers queue)) ps hmoves (by simp)
  refine pairwise_of_filter_eq hsame ?_ (h.imp fun hab _ _ => hab)
  intro a b hab ha hb
  exact hab (by simpa using ha) (by simpa using hb) ha hb

/-- **The whole queue leaves the list in order exactly if no move is obstructed.** -/
theorem drain_descending_iff (h : Rearranging news queue ps) :
    Descending (drain queue ps) ↔ Clear news queue ps := by
  induction queue generalizing ps with
  | nil =>
    refine iff_of_true ?_ trivial
    exact h.settled.imp fun hab => hab (by simp) (by simp)
  | cons r queue ih =>
    obtain ⟨p, hp, hnews, rfl⟩ := h.truthful r List.mem_cons_self
    obtain ⟨front, back, hm⟩ := exists_moved h.nodup hp
    have hchanged : news p.id ≠ none := by simp [hnews]
    have hmoves : ∀ r ∈ queue, ∃ id priority, r = MergeRequest.reprioritize id priority := by
      intro r hr
      obtain ⟨q, _, _, rfl⟩ := h.truthful r (List.mem_cons_of_mem _ hr)
      exact ⟨_, _, rfl⟩
    rw [drain_cons, hm.apply_eq, Clear, ← h.settled_iff hm, ← hm.clear_iff h.head_not_mem hchanged]
    constructor
    · intro hdesc
      have hsettled : SettledDescending queue (front ++ p :: back) := settled_of_drain hmoves hdesc
      exact ⟨hsettled, (ih (h.step hm hsettled)).mp hdesc⟩
    · rintro ⟨hsettled, hclear⟩
      exact (ih (h.step hm hsettled)).mpr hclear

/-! ## From the choice to the order -/

theorem movers_announcements (news : Nat → Option Int) (ps : List Piston) :
    movers (ps.filterMap (·.announcement? news)) =
      (ps.map (·.id)).filter fun id => (news id).isSome := by
  induction ps with
  | nil => rfl
  | cons p ps ih =>
    cases h : news p.id with
    | none => simp [Piston.announcement?_of_none h, h, ih]
    | some priority => simp [Piston.announcement?_of_some h, h, ih]

theorem mem_movers_announcements (hp : p ∈ ps) :
    p.id ∈ movers (ps.filterMap (·.announcement? news)) ↔ (news p.id).isSome := by
  rw [movers_announcements, List.mem_filter]
  exact and_iff_right (List.mem_map_of_mem hp)

/-- When all have chosen, and none has been moved, the invariant holds. -/
theorem rearranging_announcements (hnodup : (ps.map (·.id)).Nodup) (hdesc : Descending ps) :
    Rearranging news (ps.filterMap (·.announcement? news)) (ps.map (·.renewed news)) where
  nodup := by rwa [List.map_map]
  distinct := by
    rw [movers_announcements]
    exact hnodup.filter _
  truthful := by
    intro r hr
    obtain ⟨p, hp, hr⟩ := List.mem_filterMap.mp hr
    obtain ⟨priority, hnews, rfl⟩ := Option.map_eq_some_iff.mp hr
    refine ⟨p.renewed news, List.mem_map_of_mem hp, ?_, ?_⟩ <;> simp [Piston.renewed, hnews]
  settled := by
    refine List.pairwise_map.mpr (hdesc.imp_of_mem fun {a b} ha hb hab hna hnb => ?_)
    have ha' : news a.id = none := by simpa [mem_movers_announcements ha] using hna
    have hb' : news b.id = none := by simpa [mem_movers_announcements hb] using hnb
    rwa [Piston.renewed_of_none ha', Piston.renewed_of_none hb']
  placed := by
    refine List.pairwise_map.mpr (hdesc.imp_of_mem fun {b m} _ hm _ _ hwait hnews => ?_)
    exact absurd ((mem_movers_announcements hm).mpr (Option.isSome_iff_ne_none.mpr hnews)) hwait

/-- A piston at the head of the list that does not wait obstructs nobody. -/
theorem unobstructed_cons (h : p.id ∉ movers queue) :
    Unobstructed news queue priority (p :: ps) ↔ Unobstructed news queue priority ps := by
  unfold Unobstructed
  rw [List.pairwise_cons]
  exact and_iff_right fun c _ hwait => absurd hwait h

theorem clear_cons (h : p.id ∉ movers queue) :
    Clear news queue (p :: ps) ↔ Clear news queue ps := by
  induction queue with
  | nil => exact Iff.rfl
  | cons r queue ih =>
    have hrest : p.id ∉ movers queue := fun hmem => h (mem_movers_cons r hmem)
    cases r with
    | fork anchor entrant side => exact ih hrest
    | reprioritize id priority => exact and_congr (unobstructed_cons hrest) (ih hrest)

theorem unobstructed_announcements_iff :
    Unobstructed news (ps.filterMap (·.announcement? news)) priority (ps.map (·.renewed news)) ↔
      ∀ b c, [b, c].Sublist ps → ∀ pb, news b.id = some pb → news c.id = none → pb ≤ priority →
        c.priority ≤ priority := by
  unfold Unobstructed
  rw [List.pairwise_map, List.pairwise_iff_forall_sublist]
  refine forall_congr' fun b => forall_congr' fun c => forall_congr' fun hsub => ?_
  have hb : b ∈ ps := hsub.subset (by simp)
  rw [Piston.renewed_id, mem_movers_announcements hb, Option.isSome_iff_exists, Piston.renewed_id]
  constructor
  · intro h pb hpb hc hle
    have := h ⟨pb, hpb⟩ hc (Piston.renewed_priority_of_some hpb ▸ hle)
    rwa [Piston.renewed_of_none hc] at this
  · rintro h ⟨pb, hpb⟩ hc hle
    rw [Piston.renewed_priority_of_some hpb] at hle
    rw [Piston.renewed_of_none hc]
    exact h pb hpb hc hle

/-- In the choice that a list of pistons makes, the moves are clear exactly if the pistons behind two
that change are low enough for the first, should the second not stay above the first. -/
theorem clear_announcements_iff (hnodup : (ps.map (·.id)).Nodup) :
    Clear news (ps.filterMap (·.announcement? news)) (ps.map (·.renewed news)) ↔
      ∀ a b c, [a, b, c].Sublist ps → ∀ pa pb, news a.id = some pa → news b.id = some pb →
        news c.id = none → pb ≤ pa → c.priority ≤ pa := by
  induction ps with
  | nil => simp [Clear]
  | cons p ps ih =>
    obtain ⟨hp, hps⟩ := List.nodup_cons.mp hnodup
    have hnot : (p.renewed news).id ∉ movers (ps.filterMap (·.announcement? news)) := by
      rw [movers_announcements]
      exact fun hmem => hp (List.mem_filter.mp hmem).1
    rw [List.map_cons, List.filterMap_cons]
    cases h : news p.id with
    | none =>
      rw [Piston.announcement?_of_none h, clear_cons hnot, ih hps]
      constructor
      · intro hall a b c hsub pa pb hpa
        rcases List.sublist_cons_iff.mp hsub with hsub | ⟨rest, heq, _⟩
        · exact hall a b c hsub pa pb hpa
        · cases heq
          rw [h] at hpa
          cases hpa
      · exact fun hall a b c hsub => hall a b c (hsub.cons p)
    | some priority =>
      rw [Piston.announcement?_of_some h, Clear, clear_cons hnot, unobstructed_cons hnot, ih hps,
        unobstructed_announcements_iff]
      constructor
      · rintro ⟨hhead, hall⟩ a b c hsub pa pb hpa
        rcases List.sublist_cons_iff.mp hsub with hsub | ⟨rest, heq, hsub⟩
        · exact hall a b c hsub pa pb hpa
        · cases heq
          rw [h] at hpa
          cases hpa
          exact hhead b c hsub pb
      · intro hall
        exact ⟨fun b c hsub pb => hall p b c (hsub.cons_cons p) priority pb h,
          fun a b c hsub => hall a b c (hsub.cons p)⟩

end

/-- **Simultaneous changes of priority.** Pistons in order of priority, with distinct identities, choose
new priorities for any of them and in any direction.  The drain leaves them in order exactly if the
following never happens: of two that change, the one in front asks for no less than the other, and
behind both stands a piston that keeps a priority above what the one in front asks for. -/
theorem simultaneous_changes_descending_iff (news : Nat → Option Int) (s : Shared)
    (hqueue : s.queue = []) {ps : List Piston} (hnodup : (ps.map (·.id)).Nodup)
    (hdesc : Descending ps) :
    Descending (rearranged news s ps) ↔
      ∀ a b c, [a, b, c].Sublist ps → ∀ pa pb, news a.id = some pa → news b.id = some pb →
        news c.id = none → pb ≤ pa → c.priority ≤ pa := by
  rw [rearranged, changeAll_queue, changeAll_pistons, hqueue, List.nil_append,
    drain_descending_iff (rearranging_announcements hnodup hdesc), clear_announcements_iff hnodup]

/-- Pistons side by side, with the given priorities. -/
def lineUp (priorities : List Int) : List Piston :=
  priorities.mapIdx fun i priority => { Piston.spawn i 0 i .right with priority }

/-- The first piston falls to `2` and the second one rises to `7`. -/
def fallAndRise : Nat → Option Int
  | 0 => some 2
  | 1 => some 7
  | _ => none

theorem simultaneous_changes_descending_iff_fallAndRise :
    Descending (lineUp [5, 3, 1]) ∧
      (rearranged fallAndRise (.fresh []) (lineUp [5, 3, 1])).map (fun p => (p.id, p.priority)) =
        [(1, 7), (0, 2), (2, 1)] ∧
      Descending (rearranged fallAndRise (.fresh []) (lineUp [5, 3, 1])) := by
  have hdesc : Descending (lineUp [5, 3, 1]) := by
    unfold Descending
    decide
  refine ⟨hdesc, by decide, ?_⟩
  refine (simultaneous_changes_descending_iff fallAndRise (.fresh []) rfl (by decide) hdesc).mpr ?_
  intro a b c hsub pa pb hpa hpb _ hle
  cases hsub.eq_of_length rfl
  cases hpa
  cases hpb
  omega

/-- The first piston falls to `-1` and the second one to `-2`. -/
def bothFall : Nat → Option Int
  | 0 => some (-1)
  | 1 => some (-2)
  | _ => none

/-- Among equals, two falls in one cycle leave the first of them in front of the piston that keeps its
priority: the second one, not yet moved, passes for the place where the low priorities begin. -/
theorem simultaneous_falls_out_of_order :
    ¬ ∀ (news : Nat → Option Int) (s : Shared) (ps : List Piston), s.queue = [] →
      (ps.map (·.id)).Nodup → Descending ps → Descending (rearranged news s ps) := by
  intro h
  have hdesc := h bothFall (.fresh []) (lineUp [0, 0, 0]) rfl (by decide)
    (by unfold Descending; decide)
  unfold Descending at hdesc
  revert hdesc
  decide

end PistonGrid
