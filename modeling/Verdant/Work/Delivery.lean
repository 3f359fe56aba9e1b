import Verdant.Work.Accounting

/-!
# What a run delivers

A job that is cancelled or late can no longer bring a result, and outside `RunningInert` every job is cancelled.  With
the accounting of ids and slots this is what holds in every run of the runtime, at every moment of a `poll` or a `stop`.
-/

namespace Verdant.Work

variable {W : World}

/-! ### Incarnations -/

/-- Whatever the runtime holds is of its current incarnation. -/
structure Current (v : View W) : Prop where
  running : ∀ job ∈ v.running, v.incarnation = some job.incarnation ∧ ∀ id, job.id = some id → id.incarnation = job.incarnation
  queue : ∀ queued ∈ v.queue, v.incarnation = some queued.id.incarnation
  completed : ∀ completed ∈ v.completed, v.incarnation = some completed.id.incarnation
  session : ∀ session, v.session = some session → v.incarnation = some session.incarnation

theorem Current.modified {v : View W} (h : Current v) {f : Running W → Running W}
    (hf : ∀ job, (f job).id = job.id ∧ (f job).incarnation = job.incarnation) (index : Nat) :
    ∀ job ∈ v.running.modify index f,
      v.incarnation = some job.incarnation ∧ ∀ id, job.id = some id → id.incarnation = job.incarnation := by
  intro job hjob
  obtain ⟨before, hmem, rfl | rfl⟩ := mem_modify hjob
  · exact h.running _ hmem
  · rw [(hf before).1, (hf before).2]
    exact h.running before hmem

theorem Current.cancelled {v : View W} {running : List (Running W)} (h : ∀ job ∈ running,
    v.incarnation = some job.incarnation ∧ ∀ id, job.id = some id → id.incarnation = job.incarnation) :
    ∀ job ∈ running.map Running.cancel,
      v.incarnation = some job.incarnation ∧ ∀ id, job.id = some id → id.incarnation = job.incarnation := by
  intro job hjob
  obtain ⟨before, hmem, rfl⟩ := List.mem_map.1 hjob
  exact h before hmem

theorem Current.step {v after : View W} (h : Current v) (horderly : Orderly v) (heffect : Effect v after) :
    Current after := by
  have herased (index : Nat) : ∀ job ∈ v.running.eraseIdx index,
      v.incarnation = some job.incarnation ∧ ∀ id, job.id = some id → id.incarnation = job.incarnation :=
    fun job hjob => h.running job (List.mem_of_mem_eraseIdx hjob)
  cases heffect with
  | same | gaveUp | stopped | lent | returned => exact ⟨h.running, h.queue, h.completed, h.session⟩
  | started incarnation clock deadline thread hclock hstate =>
    obtain ⟨hqueue, hresults⟩ := horderly.empty_of_state (by simp [hstate]) (by simp [hstate])
    refine ⟨?_, by simp [hqueue], by simp [hresults], fun session hsession => nomatch hsession⟩
    intro job hjob
    rw [List.mem_singleton.1 hjob]
    exact ⟨rfl, fun id hid => nomatch hid⟩
  | queued session queued clock hclock hstate hsession hid =>
    refine ⟨h.running, ?_, h.completed, h.session⟩
    intro item hitem
    rcases List.mem_append.1 hitem with hold | hnew
    · exact h.queue item hold
    · rw [List.mem_singleton.1 hnew, hid]
      exact h.session session hsession
  | refused index queued e clock hclock hqueued =>
    refine ⟨h.running, fun item hitem => h.queue item (List.mem_of_mem_eraseIdx hitem), ?_, h.session⟩
    intro completed hcompleted
    rcases List.mem_append.1 hcompleted with hold | hnew
    · exact h.completed completed hold
    · rw [List.mem_singleton.1 hnew]
      exact h.queue queued (List.mem_of_getElem? hqueued)
  | dispatched index queued thread clock hclock hstate hqueued =>
    refine ⟨?_, fun item hitem => h.queue item (List.mem_of_mem_eraseIdx hitem), h.completed, h.session⟩
    intro job hjob
    rcases List.mem_append.1 hjob with hold | hnew
    · exact h.running job hold
    · rw [List.mem_singleton.1 hnew]
      refine ⟨h.queue queued (List.mem_of_getElem? hqueued), fun id hid => ?_⟩
      rw [← Option.some.inj hid]
  | flagged index => exact ⟨h.modified (f := Running.cancel) (fun _ => ⟨rfl, rfl⟩) index, h.queue, h.completed, h.session⟩
  | worked index thread =>
    exact ⟨h.modified (f := Running.advance thread) (fun _ => ⟨rfl, rfl⟩) index, h.queue, h.completed, h.session⟩
  | took index => exact ⟨h.running, h.queue, fun c hc => h.completed c (List.mem_of_mem_eraseIdx hc), h.session⟩
  | lost index | failed index => exact ⟨herased index, h.queue, h.completed, h.session⟩
  | installed index job session clock hclock hjob hid hstate hcurrent hflag hdue hsession =>
    refine ⟨herased index, h.queue, h.completed, ?_⟩
    intro other hother
    rw [← Option.some.inj hother, hsession]
    exact hcurrent
  | finished index job id result clock hclock hjob hid =>
    refine ⟨herased index, h.queue, ?_, h.session⟩
    intro completed hcompleted
    rcases List.mem_append.1 hcompleted with hold | hnew
    · exact h.completed completed hold
    · obtain ⟨hcurrent, hids⟩ := h.running job (List.mem_of_getElem? hjob)
      rw [List.mem_singleton.1 hnew]
      simp only [hids id hid]
      exact hcurrent
  | drained index job id e clock hclock hjob hid =>
    refine ⟨Current.cancelled (herased index), fun item hitem => (List.not_mem_nil hitem).elim, ?_, h.session⟩
    intro completed hcompleted
    rcases List.mem_append.1 hcompleted with hold | hnew
    · rcases List.mem_append.1 hold with hold | hqueued
      · exact h.completed completed hold
      · obtain ⟨queued, hmem, rfl⟩ := List.mem_map.1 hqueued
        exact h.queue queued hmem
    · obtain ⟨hcurrent, hids⟩ := h.running job (List.mem_of_getElem? hjob)
      rw [List.mem_singleton.1 hnew]
      simp only [hids id hid]
      exact hcurrent
  | sealed =>
    exact ⟨Current.cancelled h.running, fun item hitem => (List.not_mem_nil hitem).elim,
      fun item hitem => (List.not_mem_nil hitem).elim, fun session hsession => nomatch hsession⟩

/-! ### Jobs that bring no result -/

/-- A result of the id was `Ok` and can be taken or has been. -/
def View.Delivered (v : View W) (id : WorkId) : Prop :=
  (∃ completed ∈ v.completed, completed.id = id ∧ ∃ raw, completed.result = .ok raw) ∨
    ∃ taken ∈ v.taken, taken.1 = id ∧ ∃ raw, taken.2 = .ok raw

/-- The id was returned, and wherever it is it is late, cancelled or an error. -/
structure Doomed (v : View W) (id : WorkId) : Prop where
  issued : id ∈ v.issued
  queue : ∀ queued ∈ v.queue, queued.id = id → queued.deadline ≤ v.clock
  running : ∀ job ∈ v.running, job.id = some id → job.task.cancelled = true ∨ job.deadline ≤ v.clock
  undelivered : ¬ v.Delivered id

theorem Doomed.completes {v : View W} {id : WorkId} (h : Doomed v id) {more : List (Completed W)}
    (hmore : ∀ completed ∈ more, completed.id = id → ∀ raw, completed.result ≠ .ok raw) :
    ¬ { v with completed := v.completed ++ more }.Delivered id := by
  rintro (⟨completed, hmem, hid, raw, hraw⟩ | htaken)
  · rcases List.mem_append.1 hmem with hold | hnew
    · exact h.undelivered (.inl ⟨completed, hold, hid, raw, hraw⟩)
    · exact hmore completed hnew hid raw hraw
  · exact h.undelivered (.inr htaken)

theorem Doomed.step {v after : View W} {id : WorkId} (h : Doomed v id) (haccounted : Accounted v)
    (heffect : Effect v after) : Doomed after id := by
  have hqueue {clock : Nat} (hclock : v.clock ≤ clock) : ∀ queued ∈ v.queue, queued.id = id → queued.deadline ≤ clock :=
    fun queued hmem hid => Nat.le_trans (h.queue queued hmem hid) hclock
  have hrunning {clock : Nat} (hclock : v.clock ≤ clock) : ∀ job ∈ v.running, job.id = some id →
      job.task.cancelled = true ∨ job.deadline ≤ clock :=
    fun job hmem hid => (h.running job hmem hid).imp_right fun hlate => Nat.le_trans hlate hclock
  have herased {clock : Nat} (hclock : v.clock ≤ clock) (index : Nat) : ∀ job ∈ v.running.eraseIdx index,
      job.id = some id → job.task.cancelled = true ∨ job.deadline ≤ clock :=
    fun job hmem hid => hrunning hclock job (List.mem_of_mem_eraseIdx hmem) hid
  cases heffect with
  | same clock hclock => exact ⟨h.issued, hqueue hclock, hrunning hclock, h.undelivered⟩
  | gaveUp | stopped | lent | returned => exact ⟨h.issued, h.queue, h.running, h.undelivered⟩
  | started incarnation clock deadline thread hclock =>
    refine ⟨h.issued, hqueue hclock, ?_, h.undelivered⟩
    intro job hjob hid
    rw [List.mem_singleton.1 hjob] at hid
    exact nomatch hid
  | queued session queued clock hclock hstate hsession hid =>
    refine ⟨List.mem_append_left _ h.issued, ?_, hrunning hclock, h.undelivered⟩
    intro item hitem hsame
    rcases List.mem_append.1 hitem with hold | hnew
    · exact hqueue hclock item hold hsame
    · -- the new id is not the old one
      rw [List.mem_singleton.1 hnew, hid] at hsame
      exact absurd (hsame ▸ h.issued) (haccounted.next_fresh session.incarnation)
  | refused index queued e clock hclock hqueued =>
    refine ⟨h.issued, fun item hitem => hqueue hclock item (List.mem_of_mem_eraseIdx hitem), hrunning hclock, ?_⟩
    apply h.completes
    intro completed hmem _ raw
    rw [List.mem_singleton.1 hmem]
    simp
  | dispatched index queued thread clock hclock hstate hqueued hdue =>
    refine ⟨h.issued, fun item hitem => hqueue hclock item (List.mem_of_mem_eraseIdx hitem), ?_, h.undelivered⟩
    intro job hjob hid
    rcases List.mem_append.1 hjob with hold | hnew
    · exact hrunning hclock job hold hid
    · -- an item that is late is not dispatched
      rw [List.mem_singleton.1 hnew] at hid
      have hlate := hqueue hclock queued (List.mem_of_getElem? hqueued) (Option.some.inj hid)
      omega
  | flagged index clock hclock =>
    refine ⟨h.issued, hqueue hclock, ?_, h.undelivered⟩
    intro job hjob hid
    obtain ⟨before, hmem, rfl | rfl⟩ := mem_modify hjob
    · exact hrunning hclock _ hmem hid
    · exact .inl rfl
  | worked index thread =>
    refine ⟨h.issued, h.queue, ?_, h.undelivered⟩
    intro job hjob hid
    obtain ⟨before, hmem, rfl | rfl⟩ := mem_modify hjob
    · exact h.running _ hmem hid
    · exact h.running before hmem hid
  | took index completed hcompleted =>
    refine ⟨h.issued, h.queue, h.running, ?_⟩
    rintro (⟨other, hmem, hid, raw, hraw⟩ | ⟨taken, hmem, hid, raw, hraw⟩)
    · exact h.undelivered (.inl ⟨other, List.mem_of_mem_eraseIdx hmem, hid, raw, hraw⟩)
    · rcases List.mem_append.1 hmem with hold | hnew
      · exact h.undelivered (.inr ⟨taken, hold, hid, raw, hraw⟩)
      · rw [List.mem_singleton.1 hnew] at hid hraw
        exact h.undelivered (.inl ⟨completed, List.mem_of_getElem? hcompleted, hid, raw, hraw⟩)
  | lost index job clock hclock | installed index job _ clock hclock | failed index job clock hclock =>
    exact ⟨h.issued, hqueue hclock, herased hclock index, h.undelivered⟩
  | finished index job other result clock hclock hjob hid hstate hresult =>
    refine ⟨h.issued, hqueue hclock, herased hclock index, ?_⟩
    apply h.completes
    intro completed hmem hsame raw
    rw [List.mem_singleton.1 hmem] at hsame ⊢
    intro hraw
    obtain ⟨-, hflag, hdue⟩ := hresult raw hraw
    rw [← hsame] at h
    rcases h.running job (List.mem_of_getElem? hjob) hid with hcancelled | hlate
    · rw [hflag] at hcancelled
      exact nomatch hcancelled
    · omega
  | drained index job other e clock hclock =>
    refine ⟨h.issued, fun item hitem => (List.not_mem_nil hitem).elim, ?_, ?_⟩
    · intro job' hjob' hid'
      obtain ⟨before, hmem, rfl⟩ := List.mem_map.1 hjob'
      exact .inl rfl
    · simp only [View.joining, List.append_assoc]
      apply h.completes
      intro completed hmem _ raw
      rcases List.mem_append.1 hmem with hqueued | hnew
      · obtain ⟨queued, -, rfl⟩ := List.mem_map.1 hqueued
        simp
      · rw [List.mem_singleton.1 hnew]
        simp
  | sealed =>
    refine ⟨h.issued, fun item hitem => (List.not_mem_nil hitem).elim, ?_, ?_⟩
    · intro job hjob hid
      obtain ⟨before, hmem, rfl⟩ := List.mem_map.1 hjob
      exact .inl rfl
    · rintro (⟨completed, hmem, -⟩ | htaken)
      · exact List.not_mem_nil hmem
      · exact h.undelivered (.inr htaken)

/-! ### Which ids are doomed -/

namespace Accounted

variable {v : View W}

/-- An id that was returned is in one place. -/
theorem places_one (h : Accounted v) {id : WorkId} (hid : id ∈ v.issued) : v.places id = 1 := by
  rw [← h.places id]
  rw [h.once.count, if_pos hid]

theorem issued_of_places (h : Accounted v) {id : WorkId} (hid : 0 < v.places id) : id ∈ v.issued := by
  rw [← h.places id] at hid
  exact List.count_pos_iff.1 hid

theorem count_pos_of_mem {α β : Type} [BEq β] [LawfulBEq β] {l : List α} {a : α} (f : α → β) (h : a ∈ l) :
    0 < (l.map f).count (f a) :=
  List.count_pos_iff.2 (List.mem_map_of_mem h)

/-- A live item or job has no result. -/
theorem undelivered_of_live (h : Accounted v) {id : WorkId}
    (hlive : 0 < (v.queue.map Queued.id).count id + (v.running.map Running.id).count (some id)) :
    id ∈ v.issued ∧ ¬ v.Delivered id := by
  have hissued : id ∈ v.issued := h.issued_of_places (by unfold View.places; omega)
  have hone := h.places_one hissued
  unfold View.places at hone
  refine ⟨hissued, ?_⟩
  rintro (⟨completed, hmem, rfl, -⟩ | ⟨taken, hmem, rfl, -⟩)
  · have hcount := count_pos_of_mem Completed.id hmem
    omega
  · have hcount := count_pos_of_mem Prod.fst hmem
    omega

/-- A queued item that is late brings no result. -/
theorem doomed_of_queued (h : Accounted v) {queued : Queued} (hmem : queued ∈ v.queue)
    (hlate : queued.deadline ≤ v.clock) : Doomed v queued.id := by
  have hcount := count_pos_of_mem Queued.id hmem
  have hlive : 0 < (v.queue.map Queued.id).count queued.id + (v.running.map Running.id).count (some queued.id) := by
    omega
  obtain ⟨hissued, hundelivered⟩ := h.undelivered_of_live hlive
  have hone := h.places_one hissued
  unfold View.places at hone
  refine ⟨hissued, ?_, ?_, hundelivered⟩
  · intro other hother hsame
    obtain ⟨index, hindex, rfl⟩ := List.mem_iff_getElem.1 hmem
    have hleft := count_eraseIdx Queued.id (List.getElem?_eq_getElem hindex) v.queue[index].id
    rcases List.mem_cons.1 ((perm_eraseIdx (List.getElem?_eq_getElem hindex)).mem_iff.1 hother) with rfl | hrest
    · exact hlate
    · have hcount' := count_pos_of_mem Queued.id hrest
      rw [hsame] at hcount'
      simp only [if_true] at hleft
      omega
  · intro job hjob hsame
    have hcount' := count_pos_of_mem Running.id hjob
    rw [hsame] at hcount'
    omega

/-- A job that is cancelled or late brings no result. -/
theorem doomed_of_running (h : Accounted v) {job : Running W} {id : WorkId} (hmem : job ∈ v.running)
    (hid : job.id = some id) (hover : job.task.cancelled = true ∨ job.deadline ≤ v.clock) : Doomed v id := by
  have hcount := count_pos_of_mem Running.id hmem
  rw [hid] at hcount
  have hlive : 0 < (v.queue.map Queued.id).count id + (v.running.map Running.id).count (some id) := by omega
  obtain ⟨hissued, hundelivered⟩ := h.undelivered_of_live hlive
  have hone := h.places_one hissued
  unfold View.places at hone
  refine ⟨hissued, ?_, ?_, hundelivered⟩
  · intro queued hqueued hsame
    have hcount' := count_pos_of_mem Queued.id hqueued
    rw [hsame] at hcount'
    omega
  · intro other hother hsame
    obtain ⟨index, hindex, rfl⟩ := List.mem_iff_getElem.1 hmem
    have hleft := count_eraseIdx Running.id (List.getElem?_eq_getElem hindex) (some id)
    rcases List.mem_cons.1 ((perm_eraseIdx (List.getElem?_eq_getElem hindex)).mem_iff.1 hother) with rfl | hrest
    · exact hover
    · have hcount' := count_pos_of_mem Running.id hrest
      rw [hsame] at hcount'
      rw [hid] at hleft
      simp only [if_true] at hleft
      omega

end Accounted

/-- Where `cancel` answers `Ok`, the work brings no result any more. -/
theorem doomed_of_cancel {b : Book W} (h : Accounted b.view) {id : WorkId} (hok : (b.runtime.cancel id).2 = .ok ()) :
    Doomed (b.turn (.cancel id)).view id := by
  have hafter : Accounted (b.turn (.cancel id)).view := h.step (effect_turn b (.cancel id))
  simp only [Book.turn] at hafter ⊢
  unfold Runtime.cancel at hok hafter ⊢
  cases hqueue : b.runtime.queue.findIdx? fun queued => queued.id = id with
  | some index =>
    simp only [hqueue] at hok hafter ⊢
    cases hqueued : b.runtime.queue[index]? with
    | none =>
      rw [hqueued] at hok
      cases hok
    | some queued =>
      simp only [hqueued] at hafter ⊢
      -- the id is now completed with an error, and in no other place
      generalize hafterView : Book.view _ = after at hafter ⊢
      have hcompleted : after.completed = b.runtime.completed ++ [⟨id, .error .cancelled, queued.workClass⟩] := by
        rw [← hafterView]
        rfl
      have hcount : 0 < (after.completed.map Completed.id).count id := by
        rw [hcompleted]
        simp
      have hissued : id ∈ after.issued := hafter.issued_of_places (by unfold View.places; omega)
      have hone := hafter.places_one hissued
      unfold View.places at hone
      refine ⟨hissued, ?_, ?_, ?_⟩
      · intro other hother hsame
        have hcount' := Accounted.count_pos_of_mem Queued.id hother
        rw [hsame] at hcount'
        omega
      · intro job hjob hsame
        have hcount' := Accounted.count_pos_of_mem Running.id hjob
        rw [hsame] at hcount'
        omega
      · rintro (⟨completed, hmem, hsame, raw, hraw⟩ | ⟨taken, hmem, hsame, -⟩)
        · rw [hcompleted] at hmem hone
          rcases List.mem_append.1 hmem with hold | hnew
          · have hcount' := Accounted.count_pos_of_mem Completed.id hold
            rw [hsame] at hcount'
            simp only [List.map_append, List.map_cons, List.map_nil, List.count_append, count_single, if_true] at hone
            omega
          · rw [List.mem_singleton.1 hnew] at hraw
            cases hraw
        · have hcount' := Accounted.count_pos_of_mem Prod.fst hmem
          rw [hsame] at hcount'
          omega
  | none =>
    simp only [hqueue] at hok hafter ⊢
    cases hrunning : b.runtime.running.findIdx? fun job => job.id = some id with
    | none =>
      rw [hrunning] at hok
      cases hok
    | some index =>
      simp only [hrunning] at hafter ⊢
      obtain ⟨hindex, hid, -⟩ := List.findIdx?_eq_some_iff_getElem.1 hrunning
      have hid : b.runtime.running[index].id = some id := of_decide_eq_true hid
      have hcancelled : b.runtime.running[index].cancel.id = some id := hid
      refine hafter.doomed_of_running ?_ hcancelled (.inl rfl)
      apply List.mem_of_getElem? (i := index)
      simp [Book.view, hindex]

/-! ### Runs -/

/-- The invariants of every state a run reaches. -/
structure Lawful (v : View W) : Prop where
  orderly : Orderly v
  accounted : Accounted v
  current : Current v

theorem Lawful.turn {b : Book W} (h : Lawful b.view) (turn : Turn W) : Lawful (b.turn turn).view :=
  have heffect := effect_turn b turn
  ⟨h.orderly.step heffect, h.accounted.step heffect, h.current.step h.orderly heffect⟩

theorem Lawful.run {b : Book W} (h : Lawful b.view) (turns : List (Turn W)) : Lawful (b.run turns).view := by
  induction turns generalizing b with
  | nil => exact h
  | cons turn turns ih => exact ih (h.turn turn)

/-- Nothing is anywhere. -/
theorem lawful_of_empty {v : View W} (hrunning : v.running = []) (hqueue : v.queue = []) (hcompleted : v.completed = [])
    (hsession : v.session = none) (hbudget : v.budget = .empty) (hissued : v.issued = []) (htaken : v.taken = [])
    (hdropped : v.dropped = []) (houtside : v.outside = []) : Lawful v where
  orderly := ⟨by simp [hrunning], by simp [hrunning], by simp [hqueue], by simp [hcompleted]⟩
  accounted :=
    { places := by simp [View.places, hrunning, hqueue, hcompleted, hissued, htaken, hdropped]
      old := by simp [hissued]
      once := by simp [hissued]
      holders := by simp [View.holders, hrunning, hqueue, hcompleted, hbudget, houtside, Budget.empty]
      bounded := by simp [hbudget, Budget.empty] }
  current := ⟨by simp [hrunning], by simp [hqueue], by simp [hcompleted], by simp [hsession]⟩

theorem lawful_start (config : Option (Lease × TrustedScope)) (clock incarnations sources : Nat) :
    Lawful (Book.start (W := W) config clock incarnations sources).view := by
  cases config with
  | none => exact lawful_of_empty rfl rfl rfl rfl rfl rfl rfl rfl rfl
  | some => exact lawful_of_empty rfl rfl rfl rfl rfl rfl rfl rfl rfl

theorem Doomed.run {b : Book W} {id : WorkId} (h : Doomed b.view id) (hlawful : Lawful b.view)
    (turns : List (Turn W)) : Doomed (b.run turns).view id := by
  induction turns generalizing b with
  | nil => exact h
  | cons turn turns ih => exact ih (h.step hlawful.accounted (effect_turn b turn)) (hlawful.turn turn)

/-! ### What one turn may do -/

theorem Effect.undispatched {v after : View W} (heffect : Effect v after) (hstate : v.state ≠ .runningInert)
    {job : Running W} {id : WorkId} (hjob : job ∈ after.running) (hid : job.id = some id) :
    some id ∈ v.running.map Running.id := by
  have hold {before : Running W} (hmem : before ∈ v.running) (hsame : before.id = some id) :
      some id ∈ v.running.map Running.id := hsame ▸ List.mem_map_of_mem hmem
  cases heffect with
  | same | queued | refused | took | gaveUp | stopped | lent | returned => exact hold hjob hid
  | started =>
    rw [List.mem_singleton.1 hjob] at hid
    exact nomatch hid
  | dispatched index queued thread clock hclock hrunning => exact absurd hrunning hstate
  | flagged | worked =>
    obtain ⟨before, hmem, rfl | rfl⟩ := mem_modify hjob
    · exact hold hmem hid
    · exact hold hmem hid
  | lost | installed | failed | finished => exact hold (List.mem_of_mem_eraseIdx hjob) hid
  | drained =>
    obtain ⟨before, hmem, rfl⟩ := List.mem_map.1 hjob
    exact hold (List.mem_of_mem_eraseIdx hmem) hid
  | sealed =>
    obtain ⟨before, hmem, rfl⟩ := List.mem_map.1 hjob
    exact hold hmem hid

/-- Only a stop that is under way drops ids. -/
theorem Effect.dropped {v after : View W} (heffect : Effect v after) {id : WorkId} (hafter : id ∈ after.dropped)
    (hbefore : id ∉ v.dropped) : after.state.draining = true := by
  cases heffect with
  | lost index job clock hclock hjob hstate => exact hstate
  | sealed => rfl
  | _ => exact absurd hafter hbefore

/-- The start job a session was installed from. -/
structure InstalledFrom (v after : View W) (session : Session W) (job : Running W) : Prop where
  start : job.id = none
  joined : ∃ index, v.running[index]? = some job ∧ after.running = v.running.eraseIdx index
  current : v.incarnation = some job.incarnation
  incarnation : session.incarnation = job.incarnation
  uncancelled : job.task.cancelled = false
  due : after.clock < job.deadline

theorem Effect.session {v after : View W} (heffect : Effect v after) {session : Session W}
    (hafter : after.session = some session) (hbefore : v.session ≠ some session) :
    ∃ job, InstalledFrom v after session job := by
  cases heffect with
  | installed index job session' clock hclock hjob hid hstate hcurrent hflag hdue hsession =>
    obtain rfl := Option.some.inj hafter
    exact ⟨job, hid, ⟨index, hjob, rfl⟩, hcurrent, hsession, hflag, hdue⟩
  | started | sealed => exact nomatch hafter
  | _ => exact absurd hafter hbefore

/-! ### The accounts of a run -/

/-- What holds of a run from `b`, at every moment of it. -/
structure RunAccounts (b : Book W) (turns : List (Turn W)) : Prop where
  /-- An id that `enqueue` returns is new. -/
  fresh : ∀ front back workClass key deadline delay admitted id,
    turns = front ++ .enqueue workClass key deadline delay admitted :: back →
    ((b.run front).runtime.enqueue workClass key deadline delay admitted).2 = .ok id → id ∉ (b.run front).issued
  /-- Until it is taken or dropped it is queued, running or completed, in exactly one place. -/
  placed : ∀ front back, turns = front ++ back → ∀ id ∈ (b.run front).issued,
    id ∉ (b.run front).taken.map Prod.fst → id ∉ (b.run front).dropped →
    ((b.run front).runtime.queue.map Queued.id).count id + ((b.run front).runtime.running.map Running.id).count (some id) +
      ((b.run front).runtime.completed.map Completed.id).count id = 1
  taken_once : ((b.run turns).taken.map Prod.fst).Nodup
  dropped_by_stop : ∀ front turn back, turns = front ++ turn :: back → ∀ id ∈ ((b.run front).turn turn).dropped,
    id ∉ (b.run front).dropped → ((b.run front).turn turn).runtime.state.draining = true
  /-- Outside `RunningInert` no item is dispatched. -/
  undispatched : ∀ front turn back, turns = front ++ turn :: back → (b.run front).runtime.state ≠ .runningInert →
    ∀ job ∈ ((b.run front).turn turn).runtime.running, ∀ id, job.id = some id →
      some id ∈ (b.run front).runtime.running.map Running.id
  /-- A job that was not joined when the runtime is outside `RunningInert`, or is cancelled or late, is never `Ok`. -/
  unjoined : ∀ front back, turns = front ++ back → ∀ job ∈ (b.run front).runtime.running, ∀ id, job.id = some id →
    ((b.run front).runtime.state ≠ .runningInert ∨ job.task.cancelled = true ∨
      job.deadline ≤ (b.run front).runtime.clock) → ¬ (b.run turns).view.Delivered id
  /-- Neither is an item that is late while it is queued. -/
  overdue : ∀ front back, turns = front ++ back → ∀ queued ∈ (b.run front).runtime.queue,
    queued.deadline ≤ (b.run front).runtime.clock → ¬ (b.run turns).view.Delivered queued.id
  /-- Neither is work whose cancellation was accepted. -/
  cancelled : ∀ front back id, turns = front ++ .cancel id :: back → ((b.run front).runtime.cancel id).2 = .ok () →
    ¬ (b.run turns).view.Delivered id
  installed : ∀ front turn back session, turns = front ++ turn :: back →
    ((b.run front).turn turn).runtime.session = some session → (b.run front).runtime.session ≠ some session →
    ∃ job, InstalledFrom (b.run front).view ((b.run front).turn turn).view session job
  /-- Nothing of an earlier incarnation is held, so nothing of one is delivered. -/
  current : ∀ front back, turns = front ++ back → Current (b.run front).view
  /-- A counted slot has one holder, and the bounds are kept. -/
  slots : ∀ front back, turns = front ++ back → ∀ running workClass,
    (b.run front).runtime.budget.used running workClass = (b.run front).view.holders running workClass ∧
      (b.run front).runtime.budget.used running workClass ≤ slots running workClass

theorem enqueue_issued {b : Book W} {workClass : WorkClass} {key : String} {deadline delay : Nat}
    {admitted : Except RuntimeError Unit} {id : WorkId}
    (h : (b.runtime.enqueue workClass key deadline delay admitted).2 = .ok id) :
    (b.turn (.enqueue workClass key deadline delay admitted)).issued = b.issued ++ [id] := by
  simp only [Book.turn]
  split
  · rename_i r other hanswer
    rw [hanswer] at h
    rw [Except.ok.inj h]
  · rename_i r e hanswer
    rw [hanswer] at h
    cases h

theorem Lawful.accounts {b : Book W} (h : Lawful b.view) (turns : List (Turn W)) : RunAccounts b turns where
  fresh := by
    rintro front back workClass key deadline delay admitted id - hid
    have hafter := ((h.run front).turn (.enqueue workClass key deadline delay admitted)).accounted.once
    have hissued : ((b.run front).turn (.enqueue workClass key deadline delay admitted)).view.issued =
        (b.run front).issued ++ [id] := enqueue_issued hid
    rw [hissued, List.nodup_append] at hafter
    intro hmem
    exact hafter.2.2 id hmem id (List.mem_singleton_self id) rfl
  placed := by
    rintro front back - id hid htaken hdropped
    have hone := (h.run front).accounted.places_one hid
    have hnever := List.count_eq_zero.2 htaken
    have hkept := List.count_eq_zero.2 hdropped
    simp only [View.places, Book.view] at hone
    omega
  taken_once := by
    rw [List.nodup_iff_count]
    intro id
    have haccounted := (h.run turns).accounted
    have hplaces := haccounted.places id
    have honce := List.nodup_iff_count.1 haccounted.once id
    simp only [View.places, Book.view] at hplaces honce
    omega
  dropped_by_stop := by
    rintro front turn back - id hafter hbefore
    exact (effect_turn (b.run front) turn).dropped hafter hbefore
  undispatched := by
    rintro front turn back - hstate job hjob id hid
    exact (effect_turn (b.run front) turn).undispatched hstate hjob hid
  unjoined := by
    rintro front back rfl job hjob id hid hover
    have hlawful := h.run front
    have hover' : job.task.cancelled = true ∨ job.deadline ≤ (b.run front).view.clock := by
      rcases hover with hstate | hover
      · have hsome : job.id ≠ none := by simp [hid]
        rcases hlawful.orderly.works job hjob hsome with hrunning | ⟨-, hflag⟩
        · exact absurd hrunning hstate
        · exact .inl hflag
      · exact hover
    rw [Book.run_append]
    exact ((hlawful.accounted.doomed_of_running hjob hid hover').run hlawful back).undelivered
  overdue := by
    rintro front back rfl queued hqueued hlate
    have hlawful := h.run front
    rw [Book.run_append]
    exact ((hlawful.accounted.doomed_of_queued hqueued hlate).run hlawful back).undelivered
  cancelled := by
    rintro front back id rfl hok
    have hlawful := h.run front
    rw [Book.run_append, Book.run_cons]
    exact ((doomed_of_cancel hlawful.accounted hok).run (hlawful.turn _) back).undelivered
  installed := by
    rintro front turn back session - hafter hbefore
    exact (effect_turn (b.run front) turn).session hafter hbefore
  current := fun front back _ => (h.run front).current
  slots := fun front back _ running workClass =>
    ⟨(h.run front).accounted.holders running workClass, (h.run front).accounted.bounded running workClass⟩

/-- Every sequence of calls of a new runtime, with every order and outcome of its jobs, keeps the accounts. -/
theorem runtime_accounts (config : Option (Lease × TrustedScope)) (clock incarnations sources : Nat)
    (calls : List (Call W)) :
    RunAccounts (.start config clock incarnations sources)
      (callTurns (.start config clock incarnations sources) calls) :=
  (lawful_start config clock incarnations sources).accounts _

end Verdant.Work
