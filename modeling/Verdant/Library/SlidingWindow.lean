import Mathlib

/-!
# Sliding windows over stamps in any order

A limiter counts the earlier stamps that are not too old for its own reading and admits while there are fewer than
`limit` of them.  If the admitted stamp is not below that reading, every closed window of the given width holds at most
`limit` stamps, whatever the order of the stamps: the window's last admitted stamp counted all the others.
-/

namespace SlidingWindow

variable {α : Type*} [AddCommGroup α] [LinearOrder α]

/-- The stamps in the closed window of `width` that ends at `t`. -/
def windowAt (width t : α) (stamps : List α) : List α := stamps.filter fun x => t - width ≤ x ∧ x ≤ t

/-- The stamps a limiter counts at the reading `now`: future ones included. -/
def counted (width now : α) (stamps : List α) : List α := stamps.filter fun x => now - width ≤ x

def Bounded (width : α) (limit : Nat) (stamps : List α) : Prop := ∀ t, (windowAt width t stamps).length ≤ limit

theorem Bounded.nil (width : α) (limit : Nat) : Bounded width limit [] := fun _ => Nat.zero_le _

variable [IsOrderedAddMonoid α]

/-- A window that ends no earlier than the reading holds only counted stamps. -/
theorem length_windowAt_le (width : α) {now t : α} (h : now ≤ t) (stamps : List α) :
    (windowAt width t stamps).length ≤ (counted width now stamps).length := by
  apply List.Sublist.length_le
  apply List.monotone_filter_right
  intro x hx
  rw [decide_eq_true_eq] at hx ⊢
  exact (sub_le_sub_right h width).trans hx.1

/-- An admission keeps the bound when its stamp is not below the reading the limiter took. -/
theorem Bounded.append {width now stamp : α} {limit : Nat} {stamps : List α} (h : Bounded width limit stamps)
    (hcount : (counted width now stamps).length < limit) (hstamp : now ≤ stamp) :
    Bounded width limit (stamps ++ [stamp]) := by
  intro t
  have hsplit : windowAt width t (stamps ++ [stamp]) = windowAt width t stamps ++ windowAt width t [stamp] :=
    List.filter_append ..
  rw [hsplit, List.length_append]
  by_cases ht : t - width ≤ stamp ∧ stamp ≤ t
  · have hrest := length_windowAt_le width (hstamp.trans ht.2) stamps
    have hlast := List.length_filter_le (fun x => decide (t - width ≤ x ∧ x ≤ t)) [stamp]
    rw [List.length_singleton] at hlast
    unfold windowAt at *
    omega
  · have hlast : windowAt width t [stamp] = [] := by
      rw [windowAt, List.filter_cons_of_neg (by rw [decide_eq_true_eq]; exact ht), List.filter_nil]
    rw [hlast]
    exact h t

end SlidingWindow
