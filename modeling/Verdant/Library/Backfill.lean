import Mathlib.Data.List.Basic
import Mathlib.Data.List.Induction
import Mathlib.Data.List.Nodup

/-!
# Filling in what is missing

Items ask a store for the records under their name (`found`) and for those that are exactly theirs (`exact`), and commit
a record of their own.  An item may need others, which come before it.  Committing the missing items in their order, up to
any point, leaves a store in which every item is still missing or there once and exactly (`consistent_commitAll`); so
filling can stop anywhere and start again, and once it ends nothing is missing (`settled_commitAll`).
-/

structure Catalogue (ι σ : Type*) where
  found : ι → σ → Nat
  exact : ι → σ → Nat
  commit : ι → σ → σ
  needs : ι → ι → Prop

namespace Catalogue

variable {ι σ : Type*} (c : Catalogue ι σ)

/-- The record is there, once, and exactly. -/
def Settled (i : ι) (s : σ) : Prop := c.found i s = 1 ∧ c.exact i s = 1

/-- Every item is missing or settled. -/
def Consistent (items : List ι) (s : σ) : Prop := ∀ i ∈ items, c.found i s = 0 ∨ c.Settled i s

def missing (items : List ι) (s : σ) : List ι := items.filter fun i => c.found i s = 0

def commitAll (items : List ι) (s : σ) : σ := items.foldl (fun s i => c.commit i s) s

/-- What one commit does to the items, and where those it relies on stand. -/
structure Lawful (items : List ι) : Prop where
  nodup : items.Nodup
  earlier : ∀ front i back, items = front ++ i :: back → ∀ j, c.needs i j → j ∈ front
  settles : ∀ i ∈ items, ∀ s, c.found i s = 0 → (∀ j, c.needs i j → c.found j s = 1) → c.Settled i (c.commit i s)
  apart : ∀ i ∈ items, ∀ j ∈ items, j ≠ i → ∀ s,
    c.found j (c.commit i s) = c.found j s ∧ c.exact j (c.commit i s) = c.exact j s

variable {c} {items done rest : List ι} {s : σ} {i : ι}

theorem mem_missing : i ∈ c.missing items s ↔ i ∈ items ∧ c.found i s = 0 := by
  unfold missing
  rw [List.mem_filter, decide_eq_true_iff]

theorem missing_eq_nil (h : ∀ i ∈ items, c.found i s = 1) : c.missing items s = [] := by
  rw [List.eq_nil_iff_forall_not_mem]
  intro i hi
  have hzero := (mem_missing.1 hi).2
  rw [h i (mem_missing.1 hi).1] at hzero
  exact nomatch hzero

theorem commitAll_concat : c.commitAll (done ++ [i]) s = c.commit i (c.commitAll done s) := by
  simp [commitAll]

namespace Lawful

/-- What a missing item needs is there already or is missing before it. -/
theorem needed (h : c.Lawful items) (hs : c.Consistent items s) (hmissing : c.missing items s = done ++ i :: rest) {j : ι}
    (hj : c.needs i j) : j ∈ items ∧ (c.found j s = 1 ∨ j ∈ done) := by
  have himissing : i ∈ c.missing items s := by
    rw [hmissing]
    exact List.mem_append_right _ List.mem_cons_self
  obtain ⟨hi, hzero⟩ := mem_missing.1 himissing
  obtain ⟨front, back, rfl⟩ := List.append_of_mem hi
  have hfront := h.earlier front i back rfl j hj
  have hj' : j ∈ front ++ i :: back := List.mem_append_left _ hfront
  refine ⟨hj', ?_⟩
  rcases hs j hj' with habsent | hsettled
  · refine .inr ?_
    have hsplit : c.missing (front ++ i :: back) s = c.missing front s ++ i :: c.missing back s := by
      simp [missing, hzero]
    have honce : (c.missing front s ++ i :: c.missing back s).Nodup := by
      rw [← hsplit]
      exact h.nodup.filter _
    obtain ⟨-, hback, hapart⟩ := List.nodup_append'.1 honce
    have hparts := (List.append_cons_inj_of_notMem (fun hmem => hapart hmem List.mem_cons_self)
      (List.nodup_cons.1 hback).1).1 (hsplit.symm.trans hmissing)
    rw [← hparts.1]
    exact mem_missing.2 ⟨hfront, habsent⟩
  · exact .inl hsettled.1

/-- A missing item is none of those missing before it. -/
theorem fresh (h : c.Lawful items) (hmissing : c.missing items s = done ++ i :: rest) :
    i ∈ items ∧ c.found i s = 0 ∧ i ∉ done := by
  have hmem : i ∈ c.missing items s := by
    rw [hmissing]
    exact List.mem_append_right _ List.mem_cons_self
  have honce : (done ++ i :: rest).Nodup := by
    rw [← hmissing]
    exact h.nodup.filter _
  exact ⟨(mem_missing.1 hmem).1, (mem_missing.1 hmem).2,
    fun hin => (List.nodup_append'.1 honce).2.2 hin List.mem_cons_self⟩

end Lawful

/-- After the items of `done`: they are settled, and every other item stands as it stood. -/
structure Stage (c : Catalogue ι σ) (items done : List ι) (s : σ) : Prop where
  settled : ∀ i ∈ done, c.Settled i (c.commitAll done s)
  stays : ∀ i ∈ items, i ∉ done →
    c.found i (c.commitAll done s) = c.found i s ∧ c.exact i (c.commitAll done s) = c.exact i s

/-- The next missing item is still missing, and what it needs is there. -/
theorem Stage.ready (stage : Stage c items done s) (h : c.Lawful items) (hs : c.Consistent items s)
    (hmissing : c.missing items s = done ++ i :: rest) :
    c.found i (c.commitAll done s) = 0 ∧ ∀ j, c.needs i j → c.found j (c.commitAll done s) = 1 := by
  obtain ⟨hi, hzero, hnew⟩ := h.fresh hmissing
  refine ⟨(stage.stays i hi hnew).1.trans hzero, ?_⟩
  intro j hj
  obtain ⟨hjitems, hfound | hbefore⟩ := h.needed hs hmissing hj
  · by_cases hjdone : j ∈ done
    · exact (stage.settled j hjdone).1
    · exact (stage.stays j hjitems hjdone).1.trans hfound
  · exact (stage.settled j hbefore).1

namespace Lawful

/-- Every first part of the missing items is a stage. -/
theorem stage (h : c.Lawful items) (hs : c.Consistent items s) (hmissing : c.missing items s = done ++ rest) :
    Stage c items done s := by
  induction done using List.reverseRecOn generalizing rest with
  | nil => exact ⟨fun _ hi => (List.not_mem_nil hi).elim, fun _ _ _ => ⟨rfl, rfl⟩⟩
  | append_singleton done i ih =>
    rw [List.append_assoc] at hmissing
    have before := ih hmissing
    obtain ⟨hi, -, -⟩ := h.fresh hmissing
    obtain ⟨hzero, hneeds⟩ := before.ready h hs hmissing
    have hself := h.settles i hi (c.commitAll done s) hzero hneeds
    have hitems : ∀ j ∈ done, j ∈ items := by
      intro j hj
      have hmem : j ∈ c.missing items s := by
        rw [hmissing]
        exact List.mem_append_left _ hj
      exact (mem_missing.1 hmem).1
    constructor
    · intro j hj
      rw [commitAll_concat]
      by_cases hsame : j = i
      · rw [hsame]
        exact hself
      · have hjdone : j ∈ done := by simpa [hsame] using hj
        have hkept := h.apart i hi j (hitems j hjdone) hsame (c.commitAll done s)
        have hsettled := before.settled j hjdone
        exact ⟨hkept.1.trans hsettled.1, hkept.2.trans hsettled.2⟩
    · intro j hj hnot
      rw [commitAll_concat]
      have hsame : j ≠ i := fun heq => hnot (by simp [heq])
      have hjdone : j ∉ done := fun hmem => hnot (List.mem_append_left _ hmem)
      have hkept := h.apart i hi j hj hsame (c.commitAll done s)
      have hstays := before.stays j hj hjdone
      exact ⟨hkept.1.trans hstays.1, hkept.2.trans hstays.2⟩

theorem ready (h : c.Lawful items) (hs : c.Consistent items s) (hmissing : c.missing items s = done ++ i :: rest) :
    c.found i (c.commitAll done s) = 0 ∧ ∀ j, c.needs i j → c.found j (c.commitAll done s) = 1 :=
  (h.stage hs hmissing).ready h hs hmissing

theorem settled_next (h : c.Lawful items) (hs : c.Consistent items s) (hmissing : c.missing items s = done ++ i :: rest) :
    c.Settled i (c.commit i (c.commitAll done s)) := by
  obtain ⟨hzero, hneeds⟩ := h.ready hs hmissing
  exact h.settles i (h.fresh hmissing).1 _ hzero hneeds

theorem consistent_commitAll (h : c.Lawful items) (hs : c.Consistent items s)
    (hmissing : c.missing items s = done ++ rest) : c.Consistent items (c.commitAll done s) := by
  have stage := h.stage hs hmissing
  intro i hi
  by_cases hmem : i ∈ done
  · exact .inr (stage.settled i hmem)
  · obtain ⟨hfound, hexact⟩ := stage.stays i hi hmem
    rcases hs i hi with habsent | hsettled
    · exact .inl (hfound.trans habsent)
    · exact .inr ⟨hfound.trans hsettled.1, hexact.trans hsettled.2⟩

theorem settled_commitAll (h : c.Lawful items) (hs : c.Consistent items s) :
    ∀ i ∈ items, c.Settled i (c.commitAll (c.missing items s) s) := by
  have stage := h.stage hs (List.append_nil _).symm
  intro i hi
  by_cases hmem : i ∈ c.missing items s
  · exact stage.settled i hmem
  · obtain ⟨hfound, hexact⟩ := stage.stays i hi hmem
    rcases hs i hi with habsent | hsettled
    · exact absurd (mem_missing.2 ⟨hi, habsent⟩) hmem
    · exact ⟨hfound.trans hsettled.1, hexact.trans hsettled.2⟩

end Lawful

end Catalogue
