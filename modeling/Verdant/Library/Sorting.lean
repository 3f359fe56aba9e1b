import Mathlib

/-!
# Sorting by a key

`sortBy key` is the stable sort of a list by a key.  Lists of the same elements with distinct keys sort to one list
(`sortBy_eq_of_perm`), and lists that sort to one list have the same elements.
-/

section SortBy

variable {α β κ : Type} [LinearOrder κ] {key : α → κ} {xs ys : List α}

def sortBy (key : α → κ) (xs : List α) : List α := xs.insertionSort fun a b => key a ≤ key b

theorem perm_sortBy (key : α → κ) (xs : List α) : (sortBy key xs).Perm xs := List.perm_insertionSort _ xs

@[simp]
theorem mem_sortBy {x : α} : x ∈ sortBy key xs ↔ x ∈ xs := (perm_sortBy key xs).mem_iff

theorem length_sortBy (key : α → κ) (xs : List α) : (sortBy key xs).length = xs.length := (perm_sortBy key xs).length_eq

theorem pairwise_sortBy (key : α → κ) (xs : List α) : (sortBy key xs).Pairwise fun a b => key a ≤ key b := by
  have htotal : Std.Total fun a b : α => key a ≤ key b := ⟨fun a b => le_total (key a) (key b)⟩
  have htrans : IsTrans α fun a b => key a ≤ key b := ⟨fun a b c => le_trans⟩
  exact List.pairwise_insertionSort _ xs

/-- Distinct keys are sorted strictly. -/
theorem pairwise_lt_sortBy (h : (xs.map key).Nodup) : (sortBy key xs).Pairwise fun a b => key a < key b := by
  have hnodup : ((sortBy key xs).map key).Nodup := ((perm_sortBy key xs).map key).nodup_iff.2 h
  refine ((pairwise_sortBy key xs).and (List.pairwise_map.1 hnodup)).imp ?_
  intro a b hab
  exact lt_of_le_of_ne hab.1 hab.2

/-- Two sorted lists of the same elements, with distinct keys, are one. -/
theorem eq_of_sorted_perm (hxs : xs.Pairwise fun a b => key a < key b) (hys : ys.Pairwise fun a b => key a < key b)
    (h : xs.Perm ys) : xs = ys := by
  refine h.eq_of_pairwise (fun a b _ _ hab hba => ?_) hxs hys
  exact absurd (lt_trans hab hba) (lt_irrefl _)

theorem sortBy_eq_of_perm (hkeys : (xs.map key).Nodup) (h : xs.Perm ys) : sortBy key xs = sortBy key ys := by
  have hkeys' : (ys.map key).Nodup := (h.map key).nodup_iff.1 hkeys
  refine eq_of_sorted_perm (pairwise_lt_sortBy hkeys) (pairwise_lt_sortBy hkeys') ?_
  exact (perm_sortBy key xs).trans (h.trans (perm_sortBy key ys).symm)

/-- A strictly sorted list is the sort of what it is made of. -/
theorem sortBy_eq_of_sorted (hys : ys.Pairwise fun a b => key a < key b) (h : xs.Perm ys) : sortBy key xs = ys := by
  have hkeys : (ys.map key).Nodup := List.pairwise_map.2 (hys.imp fun hab => ne_of_lt hab)
  have hkeys' : (xs.map key).Nodup := (h.map key).nodup_iff.2 hkeys
  exact eq_of_sorted_perm (pairwise_lt_sortBy hkeys') hys ((perm_sortBy key xs).trans h)

theorem perm_of_sortBy_eq (h : sortBy key xs = sortBy key ys) : xs.Perm ys := by
  refine (perm_sortBy key xs).symm.trans ?_
  rw [h]
  exact perm_sortBy key ys

end SortBy

/-- An ordered insertion of a new element into a strictly sorted list is strictly sorted. -/
theorem pairwise_lt_orderedInsert {α : Type} [LinearOrder α] {a : α} {l : List α} (hl : l.Pairwise (· < ·)) (ha : a ∉ l) :
    (l.orderedInsert (· ≤ ·) a).Pairwise (· < ·) := by
  have hle : (l.orderedInsert (· ≤ ·) a).Pairwise (· ≤ ·) := (hl.imp le_of_lt).orderedInsert a l
  have hnodup : (l.orderedInsert (· ≤ ·) a).Nodup := by
    rw [(List.perm_orderedInsert _ a l).nodup_iff, List.nodup_cons]
    exact ⟨ha, hl.imp ne_of_lt⟩
  exact (hle.and hnodup).imp fun hab => lt_of_le_of_ne hab.1 hab.2

/-- A shorter text comes first when it ends in a separator below everything in the other. -/
theorem append_cons_lt {α : Type} [LinearOrder α] {sep : α} {a b x y : List α} (hb : ∀ c ∈ b, sep < c) (h : a < b) :
    a ++ sep :: x < b ++ sep :: y := by
  induction a generalizing b with
  | nil =>
    cases b with
    | nil => exact absurd h (lt_irrefl _)
    | cons d b => exact List.cons_lt_cons_iff.2 (.inl (hb d List.mem_cons_self))
  | cons c a ih =>
    cases b with
    | nil => exact absurd h (List.not_lt_nil _)
    | cons d b =>
      rcases List.cons_lt_cons_iff.1 h with hlt | ⟨rfl, hrest⟩
      · exact List.cons_lt_cons_iff.2 (.inl hlt)
      · exact List.cons_lt_cons_iff.2 (.inr ⟨rfl, ih (fun e he => hb e (List.mem_cons_of_mem _ he)) hrest⟩)
