import Verdant.Work.Orderly

/-!
# Ids and slots

Every id the runtime has returned is in one place: queued, running, completed, taken, or dropped by a stop.  Every slot
the budget counts has one holder: a job, a result or a queued item, or somebody outside the runtime.
-/

namespace Verdant.Work

variable {W : World}

/-- How often an id is anywhere. -/
def View.places (v : View W) (id : WorkId) : Nat :=
  (v.queue.map Queued.id).count id + (v.running.map Running.id).count (some id) +
    (v.completed.map Completed.id).count id + (v.taken.map Prod.fst).count id + v.dropped.count id

/-- How many hold a slot of a class. -/
def View.holders (v : View W) (running : Bool) (workClass : WorkClass) : Nat :=
  (if running then 0
    else (v.queue.map Queued.workClass).count workClass + (v.completed.map Completed.workClass).count workClass) +
    (v.running.map Running.workClass).count workClass + v.outside.count (running, workClass)

structure Accounted (v : View W) : Prop where
  places : ∀ id, v.issued.count id = v.places id
  old : ∀ id ∈ v.issued, id.sequence ≤ v.sequence
  once : v.issued.Nodup
  holders : ∀ running workClass, v.budget.used running workClass = v.holders running workClass
  bounded : ∀ running workClass, v.budget.used running workClass ≤ slots running workClass

/-! ### Counting in lists that lose or change one element -/

theorem perm_eraseIdx {α : Type} {l : List α} {index : Nat} {a : α} (h : l[index]? = some a) :
    l.Perm (a :: l.eraseIdx index) := by
  induction l generalizing index with
  | nil => exact nomatch h
  | cons b l ih =>
    cases index with
    | zero =>
      obtain rfl := Option.some.inj h
      exact .refl _
    | succ index => exact ((ih h).cons b).trans (.swap a b _)

theorem count_eraseIdx {α β : Type} [BEq β] [LawfulBEq β] [DecidableEq β] {l : List α} {index : Nat} {a : α} (f : α → β)
    (h : l[index]? = some a) (b : β) :
    (l.map f).count b = ((l.eraseIdx index).map f).count b + if f a = b then 1 else 0 := by
  rw [((perm_eraseIdx h).map f).count_eq b, List.map_cons, List.count_cons]
  simp

theorem count_single {β : Type} [BEq β] [LawfulBEq β] [DecidableEq β] (a b : β) :
    [a].count b = if a = b then 1 else 0 := by
  simp [List.count_singleton]

theorem map_modify_same {α β : Type} {f : α → α} {g : α → β} (h : ∀ a, g (f a) = g a) (l : List α) (index : Nat) :
    (l.modify index f).map g = l.map g := by
  apply List.ext_getElem?
  intro i
  rw [List.getElem?_map, List.getElem?_map, List.getElem?_modify]
  cases l[i]? with
  | none => rfl
  | some a =>
    by_cases hsame : index = i
    · simp [hsame, h]
    · simp [hsame]

theorem count_toList {id : WorkId} (o : Option WorkId) : o.toList.count id = if o = some id then 1 else 0 := by
  cases o with
  | none => simp
  | some a =>
    by_cases hsame : a = id
    · simp [hsame]
    · simp [hsame]

@[simp]
theorem map_cancel_id (running : List (Running W)) :
    (running.map Running.cancel).map Running.id = running.map Running.id := by
  rw [List.map_map]
  rfl

@[simp]
theorem map_cancel_workClass (running : List (Running W)) :
    (running.map Running.cancel).map Running.workClass = running.map Running.workClass := by
  rw [List.map_map]
  rfl

@[simp]
theorem modify_advance_id (running : List (Running W)) (index : Nat) (thread : W.Thread) :
    (running.modify index (Running.advance thread)).map Running.id = running.map Running.id :=
  map_modify_same (f := Running.advance thread) (fun _ => rfl) running index

@[simp]
theorem modify_cancel_id (running : List (Running W)) (index : Nat) :
    (running.modify index Running.cancel).map Running.id = running.map Running.id :=
  map_modify_same (f := Running.cancel) (fun _ => rfl) running index

@[simp]
theorem modify_advance_workClass (running : List (Running W)) (index : Nat) (thread : W.Thread) :
    (running.modify index (Running.advance thread)).map Running.workClass = running.map Running.workClass :=
  map_modify_same (f := Running.advance thread) (fun _ => rfl) running index

@[simp]
theorem modify_cancel_workClass (running : List (Running W)) (index : Nat) :
    (running.modify index Running.cancel).map Running.workClass = running.map Running.workClass :=
  map_modify_same (f := Running.cancel) (fun _ => rfl) running index

namespace Accounted

variable {v after : View W}

/-! ### Places -/

/-- The next id has not been returned yet. -/
theorem next_fresh (h : Accounted v) (incarnation : RuntimeIncarnation) :
    (⟨incarnation, v.sequence + 1⟩ : WorkId) ∉ v.issued := by
  intro hmem
  have hold := h.old _ hmem
  simp only at hold
  omega

theorem places_step (h : Accounted v) (heffect : Effect v after) (id : WorkId) :
    after.issued.count id = after.places id := by
  have hplaces := h.places id
  unfold View.places at hplaces ⊢
  cases heffect with
  | same | gaveUp | stopped | lent | returned => exact hplaces
  | flagged | worked => simpa using hplaces
  | started incarnation clock deadline thread hclock hstate hidle =>
    simpa [hidle] using hplaces
  | queued session queued =>
    simp only [List.count_append, List.map_append, List.map_cons, List.map_nil]
    omega
  | refused index queued e clock hclock hqueued =>
    have hleft := count_eraseIdx Queued.id hqueued id
    simp only [List.count_append, List.map_append, List.map_cons, List.map_nil, count_single]
    omega
  | dispatched index queued thread clock hclock hstate hqueued =>
    have hleft := count_eraseIdx Queued.id hqueued id
    simp only [List.count_append, List.map_append, List.map_cons, List.map_nil, count_single, Option.some.injEq]
    omega
  | took index completed hcompleted =>
    have hleft := count_eraseIdx Completed.id hcompleted id
    simp only [List.count_append, List.map_append, List.map_cons, List.map_nil, count_single]
    omega
  | lost index job clock hclock hjob =>
    have hleft := count_eraseIdx Running.id hjob (some id)
    have hnew : job.id.toList.count id = if job.id = some id then 1 else 0 := count_toList job.id
    simp only [View.joining, List.count_append]
    omega
  | installed index job session clock hclock hjob hid | failed index job clock hclock hjob hid =>
    have hleft := count_eraseIdx Running.id hjob (some id)
    rw [hid] at hleft
    simp only [reduceCtorEq, if_false] at hleft
    simp only [View.joining]
    omega
  | finished index job other result clock hclock hjob hid =>
    have hleft := count_eraseIdx Running.id hjob (some id)
    rw [hid] at hleft
    simp only [Option.some.injEq] at hleft
    simp only [View.joining, List.count_append, List.map_append, List.map_cons, List.map_nil, count_single]
    omega
  | drained index job other e clock hclock hjob hid =>
    have hleft := count_eraseIdx Running.id hjob (some id)
    have hqueue : (v.queue.map fun queued => (⟨queued.id, .error .cancelled, queued.workClass⟩ : Completed W)).map
        Completed.id = v.queue.map Queued.id := by
      rw [List.map_map]
      rfl
    rw [hid] at hleft
    simp only [Option.some.injEq] at hleft
    simp only [View.joining, List.count_append, List.map_append, List.map_cons, List.map_nil, map_cancel_id, hqueue,
      List.count_nil, count_single]
    omega
  | sealed =>
    simp only [List.count_append, map_cancel_id, List.map_nil, List.count_nil]
    omega

/-! ### Holders -/

/-- A slot that was free may be taken. -/
theorem bounded_take (h : Accounted v) {running : Bool} {workClass : WorkClass}
    (hfree : v.budget.used running workClass < slots running workClass) (r : Bool) (c : WorkClass) :
    (v.budget.take running workClass).used r c ≤ slots r c := by
  have hbounded := h.bounded r c
  rw [Budget.take_used]
  split
  · rename_i hsame
    obtain ⟨rfl, rfl⟩ := Prod.mk.inj hsame
    exact hfree
  · exact hbounded

theorem bounded_step (h : Accounted v) (heffect : Effect v after) (running : Bool) (workClass : WorkClass) :
    after.budget.used running workClass ≤ slots running workClass := by
  have hbounded := h.bounded running workClass
  have hless {budget : Budget} (hle : budget.used running workClass ≤ v.budget.used running workClass) :
      budget.used running workClass ≤ slots running workClass := Nat.le_trans hle hbounded
  cases heffect with
  | same | refused | flagged | worked | gaveUp | stopped => exact hbounded
  | queued session queued clock hclock hstate hsession hid hfree => exact h.bounded_take hfree running workClass
  | dispatched index queued thread clock hclock hstate hqueued hdue hfree =>
    exact h.bounded_take hfree running workClass
  | lent r c hfree => exact h.bounded_take hfree running workClass
  | started incarnation clock deadline thread hclock hstate hidle hretained hactive =>
    have hretained := h.bounded_take hretained running workClass
    have hactive := h.bounded_take hactive running workClass
    simp only [Budget.take_used] at hretained hactive ⊢
    cases running with
    | false => simpa using hretained
    | true => simpa using hactive
  | took | returned | finished | drained =>
    apply hless
    simp only [View.joining, Budget.release_used]
    exact Nat.sub_le _ _
  | lost | installed | failed =>
    apply hless
    simp only [Budget.release_used]
    omega
  | sealed =>
    apply hless
    simp only [Budget.releaseAll_used]
    omega

theorem holders_step (h : Accounted v) (heffect : Effect v after) (running : Bool) (workClass : WorkClass) :
    after.budget.used running workClass = after.holders running workClass := by
  have hholders := h.holders running workClass
  unfold View.holders at hholders ⊢
  cases heffect with
  | same | gaveUp | stopped => exact hholders
  | flagged | worked => simpa using hholders
  | started incarnation clock deadline thread hclock hstate hidle =>
    simp only [hidle, List.map_nil, List.map_cons, List.count_nil, count_single, Budget.take_used] at hholders ⊢
    cases running with
    | false => simp at hholders ⊢; omega
    | true => simp at hholders ⊢; omega
  | queued session queued =>
    simp only [List.map_append, List.map_cons, List.map_nil, List.count_append, count_single, Budget.take_used]
    cases running with
    | false => simp at hholders ⊢; omega
    | true => simp at hholders ⊢; omega
  | refused index queued e clock hclock hqueued =>
    have hleft := count_eraseIdx Queued.workClass hqueued workClass
    simp only [List.map_append, List.map_cons, List.map_nil, List.count_append, count_single]
    cases running with
    | false => simp at hholders ⊢; omega
    | true => simp at hholders ⊢; omega
  | dispatched index queued thread clock hclock hstate hqueued =>
    have hleft := count_eraseIdx Queued.workClass hqueued workClass
    simp only [List.map_append, List.map_cons, List.map_nil, List.count_append, count_single, Budget.take_used]
    cases running with
    | false => simp at hholders ⊢; omega
    | true => simp at hholders ⊢; omega
  | took index completed hcompleted =>
    have hleft := count_eraseIdx Completed.workClass hcompleted workClass
    simp only [Budget.release_used]
    cases running with
    | false => simp at hholders ⊢; omega
    | true => simp at hholders ⊢; omega
  | lost index job clock hclock hjob | installed index job _ clock hclock hjob | failed index job clock hclock hjob =>
    have hleft := count_eraseIdx Running.workClass hjob workClass
    simp only [View.joining, Budget.release_used]
    cases running with
    | false => simp at hholders ⊢; omega
    | true => simp at hholders ⊢; omega
  | finished index job other result clock hclock hjob =>
    have hleft := count_eraseIdx Running.workClass hjob workClass
    simp only [View.joining, List.map_append, List.map_cons, List.map_nil, List.count_append, count_single,
      Budget.release_used]
    cases running with
    | false => simp at hholders ⊢; omega
    | true => simp at hholders ⊢; omega
  | drained index job other e clock hclock hjob =>
    have hleft := count_eraseIdx Running.workClass hjob workClass
    have hqueue : (v.queue.map fun queued => (⟨queued.id, .error .cancelled, queued.workClass⟩ : Completed W)).map
        Completed.workClass = v.queue.map Queued.workClass := by
      rw [List.map_map]
      rfl
    simp only [View.joining, List.map_append, List.map_cons, List.map_nil, List.count_append, count_single, hqueue,
      map_cancel_workClass, List.count_nil, Budget.release_used]
    cases running with
    | false => simp at hholders ⊢; omega
    | true => simp at hholders ⊢; omega
  | sealed =>
    simp only [Budget.releaseAll_used, map_cancel_workClass, List.map_nil, List.count_nil]
    cases running with
    | false => simp at hholders ⊢; omega
    | true => simp at hholders ⊢; omega
  | lent r c =>
    simp only [Budget.take_used, List.count_append, count_single]
    omega
  | returned index r c hheld =>
    have hleft := count_eraseIdx id hheld (running, workClass)
    simp only [List.map_id, id_eq] at hleft
    simp only [Budget.release_used]
    omega

/-! ### Every effect -/

theorem step (h : Accounted v) (heffect : Effect v after) : Accounted after where
  places := h.places_step heffect
  holders := h.holders_step heffect
  bounded := h.bounded_step heffect
  old := by
    cases heffect with
    | queued session queued clock hclock hstate hsession hid =>
      intro id hmem
      rcases List.mem_append.1 hmem with hold | hnew
      · have := h.old id hold
        simp only
        omega
      · rw [List.mem_singleton.1 hnew]
        exact Nat.le_of_eq (congrArg WorkId.sequence hid)
    | _ => exact h.old
  once := by
    cases heffect with
    | queued session queued clock hclock hstate hsession hid =>
      have hfresh : queued.id ∉ v.issued := by
        rw [hid]
        exact h.next_fresh session.incarnation
      refine List.nodup_append.2 ⟨h.once, List.pairwise_singleton _ _, ?_⟩
      rintro a ha b hb rfl
      rw [List.mem_singleton.1 hb] at ha
      exact hfresh ha
    | _ => exact h.once

end Accounted

end Verdant.Work
