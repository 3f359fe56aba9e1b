import Verdant.Work.Effect

/-!
# What every state of the runtime keeps

Outside `RunningInert` nothing is queued and every job with a work id is cancelled; a start is alone, and it runs only
while the runtime starts or drains.  Everything that is queued, running or completed is of the current incarnation.
-/

namespace Verdant.Work

variable {W : World}

structure Orderly (v : View W) : Prop where
  starts : ∀ job ∈ v.running, job.id = none → v.running = [job] ∧ (v.state = .starting ∨ v.state.draining = true)
  works : ∀ job ∈ v.running, job.id ≠ none →
    v.state = .runningInert ∨ ((v.state = .held ∨ v.state.draining = true) ∧ job.task.cancelled = true)
  queue : v.queue ≠ [] → v.state = .runningInert
  results : v.completed ≠ [] → v.state = .runningInert ∨ v.state = .held

/-! ### Lists of jobs -/

theorem mem_modify {α : Type} {f : α → α} {index : Nat} {l : List α} {b : α} (h : b ∈ l.modify index f) :
    ∃ a ∈ l, b = a ∨ b = f a := by
  obtain ⟨i, hi, rfl⟩ := List.mem_iff_getElem.1 h
  rw [List.length_modify] at hi
  refine ⟨l[i], List.getElem_mem hi, ?_⟩
  rw [List.getElem_modify]
  split
  · exact .inr rfl
  · exact .inl rfl

theorem modify_singleton {α : Type} {f : α → α} {index : Nat} {a b : α} (h : b ∈ [a].modify index f) :
    [a].modify index f = [b] := by
  cases index with
  | zero =>
    have hsame : b = f a := by simpa using h
    simp [hsame]
  | succ index =>
    have hsame : b = a := by simpa using h
    simp [hsame]

theorem eraseIdx_singleton {α : Type} {index : Nat} {a b : α} (h : [a][index]? = some b) : [a].eraseIdx index = [] := by
  cases index with
  | zero => rfl
  | succ index => exact nomatch h

namespace Orderly

variable {v : View W}

/-- A start job is the only one. -/
theorem erased_start (h : Orderly v) {index : Nat} {job : Running W} (hjob : v.running[index]? = some job)
    (hid : job.id = none) : v.running.eraseIdx index = [] := by
  have hmem := List.mem_of_getElem? hjob
  have hsingle := (h.starts job hmem hid).1
  rw [hsingle] at hjob ⊢
  exact eraseIdx_singleton hjob

/-- Beside a job with a work id there is no start. -/
theorem no_start (h : Orderly v) {index : Nat} {job : Running W} (hjob : v.running[index]? = some job)
    (hid : job.id ≠ none) {other : Running W} (hother : other ∈ v.running) : other.id ≠ none := by
  intro hnone
  have hmem := List.mem_of_getElem? hjob
  rw [(h.starts other hother hnone).1] at hmem
  rw [List.mem_singleton.1 hmem] at hid
  exact hid hnone

/-- A job with a work id runs in `RunningInert` or `Held` unless the runtime drains. -/
theorem state_of_work (h : Orderly v) {index : Nat} {job : Running W} (hjob : v.running[index]? = some job)
    (hid : job.id ≠ none) (hstate : v.state.draining = false) : v.state = .runningInert ∨ v.state = .held := by
  rcases h.works job (List.mem_of_getElem? hjob) hid with hrunning | ⟨hheld | hdraining, -⟩
  · exact .inl hrunning
  · exact .inr hheld
  · rw [hdraining] at hstate
    exact nomatch hstate

/-- Where a start runs or nothing does, nothing is queued or completed. -/
theorem empty_of_state (h : Orderly v) (hrunning : v.state ≠ .runningInert) (hheld : v.state ≠ .held) :
    v.queue = [] ∧ v.completed = [] := by
  constructor
  · by_contra hne
    exact hrunning (h.queue hne)
  · by_contra hne
    rcases h.results hne with hstate | hstate
    · exact hrunning hstate
    · exact hheld hstate

theorem starting_of_start (h : Orderly v) {index : Nat} {job : Running W} (hjob : v.running[index]? = some job)
    (hid : job.id = none) (hstate : v.state.draining = false) : v.state = .starting := by
  rcases (h.starts job (List.mem_of_getElem? hjob) hid).2 with hstarting | hdraining
  · exact hstarting
  · rw [hdraining] at hstate
    exact nomatch hstate

/-- Jobs may change as long as they keep their ids and their cancellation. -/
theorem modified (h : Orderly v) {f : Running W → Running W} (hid : ∀ job, (f job).id = job.id)
    (hflag : ∀ job, job.task.cancelled = true → (f job).task.cancelled = true) (index : Nat) (clock : Nat) :
    Orderly { v with clock := clock, running := v.running.modify index f } where
  starts := by
    intro job hjob hnone
    obtain ⟨before, hmem, hsame⟩ := mem_modify hjob
    have hnone' : before.id = none := by
      rcases hsame with rfl | rfl
      · exact hnone
      · rwa [hid] at hnone
    obtain ⟨hsingle, hstate⟩ := h.starts before hmem hnone'
    refine ⟨?_, hstate⟩
    simp only [hsingle] at hjob ⊢
    exact modify_singleton hjob
  works := by
    intro job hjob hsome
    obtain ⟨before, hmem, hsame⟩ := mem_modify hjob
    have hsome' : before.id ≠ none := by
      rcases hsame with rfl | rfl
      · exact hsome
      · rwa [hid] at hsome
    refine (h.works before hmem hsome').imp_right fun hheld => ⟨hheld.1, ?_⟩
    rcases hsame with rfl | rfl
    · exact hheld.2
    · exact hflag before hheld.2
  queue := h.queue
  results := h.results

/-- A job with a work id has left, and the state is the same. -/
theorem erased (h : Orderly v) {index : Nat} {job : Running W} (hjob : v.running[index]? = some job)
    (hid : job.id ≠ none) : ∀ other ∈ v.running.eraseIdx index, other.id ≠ none ∧
      (v.state = .runningInert ∨ ((v.state = .held ∨ v.state.draining = true) ∧ other.task.cancelled = true)) := by
  intro other hother
  have hmem := List.mem_of_mem_eraseIdx hother
  have hsome := h.no_start hjob hid hmem
  exact ⟨hsome, h.works other hmem hsome⟩

theorem step (h : Orderly v) {after : View W} (heffect : Effect v after) : Orderly after := by
  cases heffect with
  | same | lent | returned => exact ⟨h.starts, h.works, h.queue, h.results⟩
  | started incarnation clock deadline thread hclock hstate hidle hretained hactive =>
    obtain ⟨hqueue, hresults⟩ := h.empty_of_state (by simp [hstate]) (by simp [hstate])
    refine ⟨?_, ?_, fun hne => absurd hqueue hne, fun hne => absurd hresults hne⟩
    · intro job hjob hnone
      rw [List.mem_singleton.1 hjob]
      exact ⟨rfl, .inl rfl⟩
    · intro job hjob hsome
      rw [List.mem_singleton.1 hjob] at hsome
      exact absurd rfl hsome
  | queued session queued clock hclock hstate => exact ⟨h.starts, h.works, fun _ => hstate, h.results⟩
  | refused index queued e clock hclock hqueued =>
    have hstate := h.queue (List.ne_nil_of_mem (List.mem_of_getElem? hqueued))
    exact ⟨h.starts, h.works, fun _ => hstate, fun _ => .inl hstate⟩
  | dispatched index queued thread clock hclock hstate =>
    refine ⟨?_, fun job hjob hsome => .inl hstate, fun _ => hstate, h.results⟩
    intro job hjob hnone
    rcases List.mem_append.1 hjob with hold | hnew
    · have hstart := (h.starts job hold hnone).2
      rw [hstate] at hstart
      exact absurd hstart (by decide)
    · rw [List.mem_singleton.1 hnew] at hnone
      exact nomatch hnone
  | flagged index clock hclock =>
    exact h.modified (f := Running.cancel) (fun job => rfl) (fun job hflag => rfl) index clock
  | worked index thread =>
    exact h.modified (f := Running.advance thread) (fun job => rfl) (fun job hflag => hflag) index v.clock
  | took index completed hcompleted =>
    exact ⟨h.starts, h.works, h.queue, fun _ => h.results (List.ne_nil_of_mem (List.mem_of_getElem? hcompleted))⟩
  | lost index job clock hclock hjob hstate =>
    by_cases hid : job.id = none
    · have hnil : v.running.eraseIdx index = [] := h.erased_start hjob hid
      refine ⟨?_, ?_, h.queue, h.results⟩
      · intro other hother
        simp [View.joining, hnil] at hother
      · intro other hother
        simp [View.joining, hnil] at hother
    · have hrest := h.erased hjob hid
      exact ⟨fun other hother hnone => absurd hnone (hrest other hother).1,
        fun other hother _ => (hrest other hother).2, h.queue, h.results⟩
  | installed index job session clock hclock hjob hid hstate =>
    have hnil : v.running.eraseIdx index = [] := h.erased_start hjob hid
    refine ⟨?_, ?_, fun _ => rfl, fun _ => .inl rfl⟩
    · intro other hother
      simp [View.joining, hnil] at hother
    · intro other hother
      simp [View.joining, hnil] at hother
  | failed index job clock hclock hjob hid hstate =>
    have hnil : v.running.eraseIdx index = [] := h.erased_start hjob hid
    have hstarting := h.starting_of_start hjob hid hstate
    obtain ⟨hqueue, hresults⟩ := h.empty_of_state (by simp [hstarting]) (by simp [hstarting])
    refine ⟨?_, ?_, fun hne => absurd hqueue hne, fun hne => absurd hresults hne⟩
    · intro other hother
      simp [View.joining, hnil] at hother
    · intro other hother
      simp [View.joining, hnil] at hother
  | finished index job id result clock hclock hjob hid hstate =>
    have hsome : job.id ≠ none := by simp [hid]
    have hrest := h.erased hjob hsome
    exact ⟨fun other hother hnone => absurd hnone (hrest other hother).1,
      fun other hother _ => (hrest other hother).2, h.queue, fun _ => h.state_of_work hjob hsome hstate⟩
  | drained index job id e clock hclock hjob hid hstate =>
    have hsome : job.id ≠ none := by simp [hid]
    have hrest := h.erased hjob hsome
    refine ⟨?_, ?_, fun hne => absurd rfl hne, fun _ => .inr rfl⟩
    · intro other hother hnone
      obtain ⟨before, hbefore, rfl⟩ := List.mem_map.1 hother
      exact absurd hnone (hrest before hbefore).1
    · intro other hother _
      obtain ⟨before, hbefore, rfl⟩ := List.mem_map.1 hother
      exact .inr ⟨.inl rfl, rfl⟩
  | sealed =>
    refine ⟨?_, ?_, fun hne => absurd rfl hne, fun hne => absurd rfl hne⟩
    · intro other hother hnone
      obtain ⟨before, hbefore, rfl⟩ := List.mem_map.1 hother
      have hsingle := (h.starts before hbefore hnone).1
      refine ⟨?_, .inr (by simp [RuntimeState.draining])⟩
      rw [hsingle]
      rfl
    · intro other hother _
      obtain ⟨before, hbefore, rfl⟩ := List.mem_map.1 hother
      exact .inr ⟨.inr (by simp [RuntimeState.draining]), rfl⟩
  | gaveUp hstate =>
    obtain ⟨hqueue, hresults⟩ := h.empty_of_state (by simp [hstate]) (by simp [hstate])
    have hdraining : RuntimeState.unresolved.draining = true := by decide
    refine ⟨?_, ?_, fun hne => absurd hqueue hne, fun hne => absurd hresults hne⟩
    · intro job hjob hnone
      exact ⟨(h.starts job hjob hnone).1, .inr hdraining⟩
    · intro job hjob hsome
      rcases h.works job hjob hsome with hrunning | ⟨-, hflag⟩
      · rw [hstate] at hrunning
        exact nomatch hrunning
      · exact .inr ⟨.inr hdraining, hflag⟩
  | stopped hstate hidle =>
    have hrunning : v.state ≠ .runningInert := by
      intro hsame
      rw [hsame] at hstate
      exact absurd hstate (by decide)
    have hheld : v.state ≠ .held := by
      intro hsame
      rw [hsame] at hstate
      exact absurd hstate (by decide)
    obtain ⟨hqueue, hresults⟩ := h.empty_of_state hrunning hheld
    refine ⟨?_, ?_, fun hne => absurd hqueue hne, fun hne => absurd hresults hne⟩
    · intro job hjob
      simp [hidle] at hjob
    · intro job hjob
      simp [hidle] at hjob

end Orderly

end Verdant.Work
