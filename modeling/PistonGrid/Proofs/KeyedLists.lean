import Mathlib.Data.List.Sort

/-!
# Lists by key

Pistons are known by their identities, fields by their names, families and instructions by their codes.
The facts about lists with keys that several modules share:

* `lookup_cons_ite`, `lookup_eq_some_iff_mem` — looking up a key.  `filter_key_eq` — in a list in which
  no key occurs twice, a key stands for one member.
* `pairwise_orderedInsert` — inserting in order.  `mergeSort_eq_of_perm` — sorting what a list in order
  holds.
-/

set_option autoImplicit false

namespace PistonGrid

/-! ## Keys -/

/-- Looking up a key in a list that starts with a given entry. -/
theorem lookup_cons_ite {κ α : Type} [BEq κ] [LawfulBEq κ] [DecidableEq κ] (n m : κ) (a : α)
    (entries : List (κ × α)) :
    ((m, a) :: entries).lookup n = if n = m then some a else entries.lookup n := by
  rw [List.lookup_cons]
  by_cases hn : n = m
  · simp [hn]
  · have hne : (n == m) = false := by simpa using hn
    simp only [hne, if_neg hn]

/-- In a list in which no key occurs twice, an entry is found just if it is there. -/
theorem lookup_eq_some_iff_mem {κ α : Type} [BEq κ] [LawfulBEq κ] {entries : List (κ × α)}
    (h : (entries.map Prod.fst).Nodup) (k : κ) (a : α) :
    entries.lookup k = some a ↔ (k, a) ∈ entries := by
  rw [List.lookup_eq_some_iff]
  constructor
  · rintro ⟨before, after, heq, _⟩
    rw [heq]
    exact List.mem_append_right _ List.mem_cons_self
  · intro hmem
    obtain ⟨before, after, heq⟩ := List.append_of_mem hmem
    refine ⟨before, after, heq, fun entry hentry => ?_⟩
    rw [heq, List.map_append, List.map_cons] at h
    have hne : entry.1 ≠ k :=
      (List.nodup_append.mp h).2.2 entry.1 (List.mem_map_of_mem hentry) k List.mem_cons_self
    simpa using hne.symm

/-- Looking for the key of a member finds that member, and nothing else. -/
theorem filter_key_eq {α κ : Type} [BEq κ] [LawfulBEq κ] {key : α → κ} {l : List α}
    (hnodup : (l.map key).Nodup) {a : α} (ha : a ∈ l) : l.filter (key · == key a) = [a] := by
  induction l with
  | nil => cases ha
  | cons b l ih =>
    obtain ⟨hb, hl⟩ := List.nodup_cons.mp hnodup
    rcases List.mem_cons.mp ha with rfl | ha
    · have hothers : ∀ c ∈ l, ¬ key c = key a := fun c hc heq =>
        hb (List.mem_map.mpr ⟨c, hc, heq⟩)
      simpa using hothers
    · have hne : ¬ key b = key a := fun heq => hb (List.mem_map.mpr ⟨a, ha, heq.symm⟩)
      rw [List.filter_cons, if_neg (by simpa using hne), ih hl ha]

/-! ## Order -/

/-- Putting something new in its place keeps a list in order, if it is comparable to all that is
there. -/
theorem pairwise_orderedInsert {α : Type} {lt : α → α → Prop} [DecidableRel lt] {a : α} {l : List α}
    (htrans : ∀ a b c : α, lt a b → lt b c → lt a c) (h : l.Pairwise lt)
    (hnew : ∀ b ∈ l, lt a b ∨ lt b a) : (l.orderedInsert lt a).Pairwise lt := by
  induction l with
  | nil => exact List.pairwise_singleton lt a
  | cons b l ih =>
    obtain ⟨hb, hl⟩ := List.pairwise_cons.mp h
    obtain ⟨hab, hrest⟩ := List.forall_mem_cons.mp hnew
    rw [List.orderedInsert_cons]
    split
    · rename_i hlt
      refine List.pairwise_cons.mpr ⟨List.forall_mem_cons.mpr ⟨hlt, ?_⟩, h⟩
      exact fun c hc => htrans a b c hlt (hb c hc)
    · rename_i hnot
      refine List.pairwise_cons.mpr ⟨fun c hc => ?_, ih hl hrest⟩
      rcases List.mem_cons.mp ((List.perm_orderedInsert lt a l).mem_iff.mp hc) with rfl | hc
      · exact hab.resolve_left hnot
      · exact hb c hc

/-- Sorting what a strictly ascending list holds gives that list. -/
theorem mergeSort_eq_of_perm {α : Type} {lt : α → α → Prop} [DecidableRel lt] {l sorted : List α}
    (hasymm : ∀ a b : α, lt a b → ¬lt b a) (hbetween : ∀ a b c : α, lt a c → lt a b ∨ lt b c)
    (hperm : l.Perm sorted) (hsorted : sorted.Pairwise lt) :
    l.mergeSort (fun a b => !decide (lt b a)) = sorted := by
  have hpair : (l.mergeSort fun a b => !decide (lt b a)).Pairwise
      fun a b => (!decide (lt b a)) = true := by
    refine List.pairwise_mergeSort (fun a b c hab hbc => ?_) (fun a b => ?_) l
    · simp only [Bool.not_eq_true', decide_eq_false_iff_not] at hab hbc ⊢
      exact fun hca => (hbetween c b a hca).elim hbc hab
    · simp only [Bool.or_eq_true, Bool.not_eq_true', decide_eq_false_iff_not]
      exact (em (lt b a)).elim (fun hba => .inr (hasymm b a hba)) .inl
  -- of two different members one is strictly below the other
  have hsame : ∀ ⦃a⦄, a ∈ sorted → ∀ ⦃b⦄, b ∈ sorted → ¬lt a b → ¬lt b a → a = b :=
    List.Pairwise.forall_of_forall_of_flip (fun _ _ _ _ => rfl)
      (hsorted.imp fun hlt hnot _ => absurd hlt hnot) (hsorted.imp fun hlt _ hnot => absurd hlt hnot)
  have hwhole := (List.mergeSort_perm l fun a b => !decide (lt b a)).trans hperm
  refine List.Perm.eq_of_pairwise (fun a b ha hb hab hba => ?_) hpair
    (hsorted.imp fun hlt => by simpa using hasymm _ _ hlt) hwhole
  exact hsame (hwhole.mem_iff.mp ha) hb (by simpa using hba) (by simpa using hab)

end PistonGrid
