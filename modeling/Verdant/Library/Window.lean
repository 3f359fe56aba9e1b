import Mathlib

/-!
# Windows over a changing list

A scan reads a sorted list through windows: each window starts where as many elements as were returned end, and between
two windows the list changes.  Two invariants say what the scan finds.  While the changes touch nothing that is not
behind the last returned element, an element that stays in the list is returned once (`Once`).  While the list only
grows, an element not yet returned stays ahead of the window (`Ahead`), so it is returned, perhaps with others twice.
-/

namespace Window

variable {α : Type*}

/-- At most `bound` elements from position `offset` on. -/
def window (bound offset : Nat) (view : List α) : List α := (view.drop offset).take bound

theorem mem_of_mem_window {bound offset : Nat} {view : List α} {x : α} (h : x ∈ window bound offset view) : x ∈ view :=
  List.mem_of_mem_drop (List.mem_of_mem_take h)

theorem window_eq_nil_iff {bound offset : Nat} (hbound : 0 < bound) {view : List α} :
    window bound offset view = [] ↔ view.length ≤ offset := by
  unfold window
  rw [List.take_eq_nil_iff, List.drop_eq_nil_iff]
  omega

theorem map_window {β : Type*} (f : α → β) (bound offset : Nat) (view : List α) :
    (window bound offset view).map f = window bound offset (view.map f) := by
  simp [window, List.map_take, List.map_drop]

theorem length_le_of_subset {s t : List α} (hs : s.Nodup) (h : ∀ x ∈ s, x ∈ t) : s.length ≤ t.length :=
  (List.subperm_of_subset hs h).length_le

section Order

variable [LinearOrder α]

/-- The elements below `x`. -/
def below (x : α) (view : List α) : List α := view.filter (· < x)

/-- The element is not behind the last of `front`. -/
def Passed (front : List α) (x : α) : Prop := ∃ y ∈ front, x ≤ y

instance (front : List α) (x : α) : Decidable (Passed front x) := by
  unfold Passed
  infer_instance

/-- The elements not behind the last of `front`. -/
def passed (front view : List α) : List α := view.filter (Passed front ·)

theorem mem_passed {front view : List α} {x : α} : x ∈ passed front view ↔ x ∈ view ∧ Passed front x := by
  rw [passed, List.mem_filter, decide_eq_true_iff]

/-- What is not behind the last of some elements is a front of a sorted list. -/
theorem passed_isPrefix (front : List α) {view : List α} (hview : view.Pairwise (· < ·)) : passed front view <+: view := by
  unfold passed
  induction view with
  | nil => exact List.prefix_rfl
  | cons x view ih =>
    rw [List.pairwise_cons] at hview
    by_cases hx : Passed front x
    · rw [List.filter_cons_of_pos (by simpa using hx), List.cons_prefix_cons]
      exact ⟨rfl, ih hview.2⟩
    · -- behind it nothing is passed either
      have hnone : view.filter (Passed front ·) = [] := by
        rw [List.filter_eq_nil_iff]
        intro y hy
        rw [decide_eq_true_iff]
        rintro ⟨z, hz, hle⟩
        exact hx ⟨z, hz, (hview.1 y hy).le.trans hle⟩
      rw [List.filter_cons_of_neg (by simpa using hx), hnone]
      exact List.nil_prefix

/-- The elements below one of a sorted list are those in front of it. -/
theorem below_append_cons {front back : List α} {x : α} (hsorted : (front ++ x :: back).Pairwise (· < ·)) :
    below x (front ++ x :: back) = front := by
  obtain ⟨-, hback, hcross⟩ := List.pairwise_append.1 hsorted
  rw [List.pairwise_cons] at hback
  have hfront : ∀ y ∈ front, decide (y < x) = true := by
    intro y hy
    exact decide_eq_true (hcross y hy x List.mem_cons_self)
  have hnone : (x :: back).filter (fun y => decide (y < x)) = [] := by
    rw [List.filter_eq_nil_iff]
    intro y hy
    rw [decide_eq_true_iff]
    rcases List.mem_cons.1 hy with rfl | hy
    · exact lt_irrefl _
    · exact lt_asymm (hback.1 y hy)
  rw [below, List.filter_append, List.filter_eq_self.2 hfront, hnone, List.append_nil]

/-- An element is in the window exactly when its place is. -/
theorem mem_window_iff {view : List α} (hview : view.Pairwise (· < ·)) {x : α} (hx : x ∈ view) {bound offset : Nat} :
    x ∈ window bound offset view ↔ offset ≤ (below x view).length ∧
      (below x view).length < offset + (window bound offset view).length := by
  obtain ⟨front, back, rfl⟩ := List.append_of_mem hx
  have hnodup : (front ++ x :: back).Nodup := hview.imp ne_of_lt
  have hplace : (front ++ x :: back)[front.length]? = some x := by simp
  rw [below_append_cons hview]
  constructor
  · intro hmem
    obtain ⟨i, hi, hget⟩ := List.getElem_of_mem hmem
    have hat : (front ++ x :: back)[offset + i]? = some x := by
      have hsome := List.getElem?_eq_some_iff.2 ⟨hi, hget⟩
      have hbound : i < bound := lt_of_lt_of_le hi (List.length_take_le _ _)
      rw [window, List.getElem?_take_of_lt hbound, List.getElem?_drop] at hsome
      exact hsome
    have hsame : offset + i = front.length := by
      refine (List.getElem?_inj ?_ hnodup).1 (hat.trans hplace.symm)
      exact (List.getElem?_eq_some_iff.1 hat).1
    omega
  · rintro ⟨hfrom, hto⟩
    have hlen : (window bound offset (front ++ x :: back)).length ≤ bound := List.length_take_le _ _
    have hget : (window bound offset (front ++ x :: back))[front.length - offset]? = some x := by
      rw [window, List.getElem?_take_of_lt (by omega), List.getElem?_drop, Nat.add_sub_cancel' hfrom, hplace]
    exact List.mem_of_getElem? hget

/-! ### Scans that find an element once -/

/-- The element is still behind the last returned one, with as many elements in front as were returned; or it was
returned, once, and is in front of the next window. -/
inductive Once (x : α) (returned view : List α) : Prop where
  | waiting (behind : ¬Passed returned x) (length : returned.length ≤ (passed returned view).length)
  | found (count : returned.count x = 1) (length : (below x view).length < returned.length)

theorem Once.start (x : α) (view : List α) : Once x [] view := by
  refine .waiting ?_ (Nat.zero_le _)
  rintro ⟨y, hy, -⟩
  exact nomatch hy

/-- What is in front of an element that is not passed is not passed over by a window that leaves it out. -/
theorem Once.read {x : α} {returned view : List α} (h : Once x returned view) (hview : view.Pairwise (· < ·))
    (hx : x ∈ view) (bound : Nat) : Once x (returned ++ window bound returned.length view) view := by
  have hnodup : view.Nodup := hview.imp ne_of_lt
  cases h with
  | found hcount hlength =>
    have hnot : x ∉ window bound returned.length view := fun hmem => by
      have hplace := ((mem_window_iff hview hx).1 hmem).1
      omega
    refine .found ?_ ?_
    · rw [List.count_append, hcount, List.count_eq_zero_of_not_mem hnot]
    · rw [List.length_append]
      omega
  | waiting hbehind hlength =>
    have hplace : returned.length ≤ (below x view).length := by
      refine hlength.trans (length_le_of_subset (hnodup.filter _) fun y hy => ?_)
      obtain ⟨hmem, z, hz, hle⟩ := mem_passed.1 hy
      refine List.mem_filter.2 ⟨hmem, decide_eq_true (lt_of_not_ge fun hge => ?_)⟩
      exact hbehind ⟨z, hz, hge.trans hle⟩
    have hnew : x ∉ returned := fun hmem => hbehind ⟨x, hmem, le_rfl⟩
    by_cases hmem : x ∈ window bound returned.length view
    · have hwindow : (window bound returned.length view).Nodup :=
        hnodup.sublist ((List.take_sublist _ _).trans (List.drop_sublist _ _))
      refine .found ?_ ?_
      · rw [List.count_append, List.count_eq_zero_of_not_mem hnew, List.count_eq_one_of_mem hwindow hmem]
      · rw [List.length_append]
        exact ((mem_window_iff hview hx).1 hmem).2
    · have hbeyond : returned.length + (window bound returned.length view).length ≤ (below x view).length := by
        by_contra hlt
        exact hmem ((mem_window_iff hview hx).2 ⟨hplace, Nat.lt_of_not_le hlt⟩)
      have hbelow : ∀ y ∈ window bound returned.length view, y < x := by
        intro y hy
        by_contra hge
        have hyview := mem_of_mem_window hy
        have hyplace := ((mem_window_iff hview hyview).1 hy).2
        have hmono : (below x view).length ≤ (below y view).length := by
          refine length_le_of_subset (hnodup.filter _) fun z hz => ?_
          obtain ⟨hzview, hlt⟩ := List.mem_filter.1 hz
          exact List.mem_filter.2 ⟨hzview, decide_eq_true (lt_of_lt_of_le (of_decide_eq_true hlt) (not_lt.1 hge))⟩
        omega
      refine .waiting ?_ ?_
      · rintro ⟨y, hy, hle⟩
        rcases List.mem_append.1 hy with hy | hy
        · exact hbehind ⟨y, hy, hle⟩
        · exact absurd hle (not_le_of_gt (hbelow y hy))
      · -- the first elements of the list, as many as were returned, are all passed
        have hwindow : window bound returned.length view =
            (view.drop returned.length).take (window bound returned.length view).length :=
          List.prefix_iff_eq_take.1 (List.take_prefix bound _)
        have hfront : view.take (returned.length + (window bound returned.length view).length) =
            view.take returned.length ++ window bound returned.length view := by
          rw [List.take_add, ← hwindow]
        have hpassed : view.take returned.length <+: passed returned view :=
          List.prefix_of_prefix_length_le (List.take_prefix _ _) (passed_isPrefix returned hview)
            ((List.length_take_le _ _).trans hlength)
        have hroom : returned.length ≤ view.length := hlength.trans (List.length_filter_le _ _)
        have hlen : (returned ++ window bound returned.length view).length =
            (view.take (returned.length + (window bound returned.length view).length)).length := by
          rw [hfront, List.length_append, List.length_append, List.length_take, Nat.min_eq_left hroom]
        rw [hlen]
        refine length_le_of_subset (hnodup.sublist (List.take_sublist _ _)) fun y hy => ?_
        rw [hfront, List.mem_append] at hy
        rcases hy with hy | hy
        · obtain ⟨hmem, z, hz, hle⟩ := mem_passed.1 (hpassed.subset hy)
          exact mem_passed.2 ⟨hmem, z, List.mem_append_left _ hz, hle⟩
        · exact mem_passed.2 ⟨mem_of_mem_window hy, y, List.mem_append_right _ hy, le_rfl⟩

/-- A scan whose window is empty has found the element. -/
theorem Once.complete {x : α} {returned view : List α} (h : Once x returned view) (hx : x ∈ view) {bound : Nat}
    (hbound : 0 < bound) (hempty : window bound returned.length view = []) : returned.count x = 1 := by
  cases h with
  | found hcount hlength => exact hcount
  | waiting hbehind hlength =>
    have hall := (window_eq_nil_iff hbound).1 hempty
    have hless : (passed returned view).length < view.length := by
      refine List.length_filter_lt_length_iff_exists.2 ⟨x, hx, ?_⟩
      simpa using hbehind
    omega

/-- A change may touch what is behind the last returned element, or leave nothing there. -/
theorem Once.change {x : α} {returned view next : List α} (h : Once x returned view) (hview : view.Nodup)
    (hnext : next.Nodup) (hx : x ∈ next)
    (hspared : (∀ y, Passed returned y → (y ∈ view ↔ y ∈ next)) ∨ ∀ y ∈ next, y ∈ returned) : Once x returned next := by
  cases h with
  | waiting hbehind hlength =>
    rcases hspared with hspared | hall
    · refine .waiting hbehind (hlength.trans (length_le_of_subset (hview.filter _) fun y hy => ?_))
      obtain ⟨hmem, hpassed⟩ := mem_passed.1 hy
      exact mem_passed.2 ⟨(hspared y hpassed).1 hmem, hpassed⟩
    · exact absurd ⟨x, hall x hx, le_rfl⟩ hbehind
  | found hcount hlength =>
    refine .found hcount ?_
    have hreturned : x ∈ returned := List.count_pos_iff.1 (by omega)
    rcases hspared with hspared | hall
    · refine lt_of_le_of_lt (length_le_of_subset (hnext.filter _) fun y hy => ?_) hlength
      obtain ⟨hmem, hlt⟩ := List.mem_filter.1 hy
      exact List.mem_filter.2 ⟨(hspared y ⟨x, hreturned, (of_decide_eq_true hlt).le⟩).2 hmem, hlt⟩
    · have hless : (below x next).length < next.length := by
        refine List.length_filter_lt_length_iff_exists.2 ⟨x, hx, ?_⟩
        simp
      exact lt_of_lt_of_le hless (length_le_of_subset hnext hall)

/-! ### Scans of growing lists -/

theorem length_below_mono {view next : List α} (hview : view.Nodup) (hgrows : ∀ x ∈ view, x ∈ next) (x : α) :
    (below x view).length ≤ (below x next).length := by
  refine length_le_of_subset (hview.filter _) fun y hy => ?_
  obtain ⟨hmem, hlt⟩ := List.mem_filter.1 hy
  exact List.mem_filter.2 ⟨hgrows y hmem, hlt⟩

/-- The element was returned, or its place is not in front of the next window. -/
def Ahead (x : α) (returned view : List α) : Prop :=
  x ∈ returned ∨ (x ∈ view ∧ returned.length ≤ (below x view).length)

theorem Ahead.start {x : α} {view : List α} (hx : x ∈ view) : Ahead x [] view := .inr ⟨hx, Nat.zero_le _⟩

theorem Ahead.read {x : α} {returned view : List α} (h : Ahead x returned view) (hview : view.Pairwise (· < ·))
    (bound : Nat) : Ahead x (returned ++ window bound returned.length view) view := by
  rcases h with hmem | ⟨hx, hle⟩
  · exact .inl (List.mem_append_left _ hmem)
  · by_cases hlt : (below x view).length < returned.length + (window bound returned.length view).length
    · exact .inl (List.mem_append_right _ ((mem_window_iff hview hx).2 ⟨hle, hlt⟩))
    · refine .inr ⟨hx, ?_⟩
      rw [List.length_append]
      exact Nat.le_of_not_lt hlt

theorem Ahead.grow {x : α} {returned view next : List α} (h : Ahead x returned view) (hview : view.Nodup)
    (hgrows : ∀ y ∈ view, y ∈ next) : Ahead x returned next := by
  rcases h with hmem | ⟨hx, hle⟩
  · exact .inl hmem
  · exact .inr ⟨hgrows x hx, hle.trans (length_below_mono hview hgrows x)⟩

theorem Ahead.complete {x : α} {returned view : List α} (h : Ahead x returned view) (hview : view.Pairwise (· < ·))
    {bound : Nat} (hbound : 0 < bound) (hempty : window bound returned.length view = []) : x ∈ returned := by
  rcases h with hmem | ⟨hx, hle⟩
  · exact hmem
  · have hlength := (window_eq_nil_iff hbound).1 hempty
    obtain ⟨front, back, rfl⟩ := List.append_of_mem hx
    rw [below_append_cons hview] at hle
    rw [List.length_append, List.length_cons] at hlength
    omega

end Order

end Window
