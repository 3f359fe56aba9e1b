import Mathlib.Logic.Relation
import Mathlib.Data.Set.Insert
import Mathlib.Data.List.Basic

/-!
# Cycles below a vertex

A depth-first search of a relation keeps the path it is on (`EdgePath`) and the vertices it is through with: they are closed
under the edges, and none of them is on a cycle (`Finished`).  A vertex may join them once all its successors have
(`Finished.insert`); to meet a vertex of the path again is to have found a cycle (`EdgePath.reachesCycle`).
-/

open Relation

section Acyclic

variable {α : Type*} {E : α → α → Prop} {first x y : α} {path : List α} {done : Set α}

/-- A cycle is reachable from `x`. -/
def ReachesCycle (E : α → α → Prop) (x : α) : Prop := ∃ y, ReflTransGen E x y ∧ TransGen E y y

/-- The vertices of a path, from its first to its last. -/
inductive EdgePath (E : α → α → Prop) (first : α) : List α → α → Prop where
  | start : EdgePath E first [first] first
  | step {route : List α} {a b : α} (h : EdgePath E first route a) (hab : E a b) : EdgePath E first (route ++ [b]) b

namespace EdgePath

theorem reach (h : EdgePath E first path x) : ReflTransGen E first x := by
  induction h with
  | start => exact .refl
  | step _ hxy ih => exact ih.tail hxy

theorem first_mem (h : EdgePath E first path x) : first ∈ path := by
  induction h with
  | start => exact List.mem_singleton_self _
  | step _ _ ih => exact List.mem_append_left _ ih

theorem last_mem (h : EdgePath E first path x) : x ∈ path := by
  cases h with
  | start => exact List.mem_singleton_self _
  | step _ _ => exact List.mem_append_right _ (List.mem_singleton_self _)

theorem reach_of_mem (h : EdgePath E first path x) {a : α} (ha : a ∈ path) : ReflTransGen E a x := by
  induction h with
  | start =>
    obtain rfl := List.mem_singleton.1 ha
    exact .refl
  | step _ hxy ih =>
    rcases List.mem_append.1 ha with hold | hnew
    · exact (ih hold).tail hxy
    · obtain rfl := List.mem_singleton.1 hnew
      exact .refl

/-- More than one vertex is at least one edge. -/
theorem transGen (h : EdgePath E first path x) (hlong : 1 < path.length) : TransGen E first x := by
  cases h with
  | start => exact absurd hlong (lt_irrefl 1)
  | step h hxy => exact TransGen.tail' h.reach hxy

/-- An edge back onto the path closes a cycle. -/
theorem reachesCycle (h : EdgePath E first path x) (hy : y ∈ path) (hxy : E x y) : ReachesCycle E first :=
  ⟨y, h.reach.tail hxy, TransGen.tail' (h.reach_of_mem hy) hxy⟩

end EdgePath

/-- What a search is through with: closed under the edges, and on no cycle. -/
structure Finished (E : α → α → Prop) (done : Set α) : Prop where
  closed : ∀ x ∈ done, ∀ y, E x y → y ∈ done
  acyclic : ∀ x ∈ done, ¬ TransGen E x x

namespace Finished

theorem empty : Finished E ∅ := ⟨fun _ hx => hx.elim, fun _ hx => hx.elim⟩

theorem reach (h : Finished E done) (hx : x ∈ done) (hxy : ReflTransGen E x y) : y ∈ done := by
  induction hxy with
  | refl => exact hx
  | tail _ hstep ih => exact h.closed _ ih _ hstep

theorem not_reachesCycle (h : Finished E done) (hx : x ∈ done) : ¬ ReachesCycle E x := by
  rintro ⟨y, hxy, hcycle⟩
  exact h.acyclic y (h.reach hx hxy) hcycle

/-- A new vertex whose successors are all finished is finished; it is on no cycle, or it would be among them. -/
theorem insert (h : Finished E done) (hx : x ∉ done) (hsucc : ∀ y, E x y → y ∈ done) : Finished E (insert x done) := by
  refine ⟨?_, ?_⟩
  · rintro a (rfl | ha) b hab
    · exact .inr (hsucc b hab)
    · exact .inr (h.closed a ha b hab)
  · rintro a (rfl | ha) hcycle
    · obtain ⟨b, hab, hba⟩ := TransGen.head'_iff.1 hcycle
      exact hx (h.reach (hsucc b hab) hba)
    · exact h.acyclic a ha hcycle

end Finished

end Acyclic
