import Verdant.Work.Turns

/-!
# What a turn does

The accounting speaks about the lists, the state, the session, the budget and the clock, with the entries of the book.
`Effect` lists what one turn can do to them and what it has checked; every invariant is read off it.
-/

namespace Verdant.Work

variable {W : World}

structure View (W : World) where
  state : RuntimeState
  session : Option (Session W)
  incarnation : Option RuntimeIncarnation
  sequence : Nat
  budget : Budget
  queue : List Queued
  running : List (Running W)
  completed : List (Completed W)
  clock : Nat
  issued : List WorkId
  taken : List (WorkId × Except RuntimeError W.Envelope)
  dropped : List WorkId
  outside : List (Bool × WorkClass)

def Book.view (b : Book W) : View W where
  state := b.runtime.state
  session := b.runtime.session
  incarnation := b.runtime.incarnation
  sequence := b.runtime.sequence
  budget := b.runtime.budget
  queue := b.runtime.queue
  running := b.runtime.running
  completed := b.runtime.completed
  clock := b.runtime.clock
  issued := b.issued
  taken := b.taken
  dropped := b.dropped
  outside := b.outside

/-- A job of this view that is joined at `clock`: its running slot is free. -/
def View.joining (v : View W) (index : Nat) (job : Running W) (clock : Nat) : View W :=
  { v with clock := clock, running := v.running.eraseIdx index, budget := v.budget.release true job.workClass }

inductive Effect (v : View W) : View W → Prop where
  | same (clock : Nat) (hclock : v.clock ≤ clock) : Effect v { v with clock := clock }
  | started (incarnation : RuntimeIncarnation) (clock deadline : Nat) (thread : W.Thread) (hclock : v.clock ≤ clock)
    (hstate : v.state = .stopped) (hidle : v.running = [])
    (hretained : v.budget.used false .reconciliation < slots false .reconciliation)
    (hactive : v.budget.used true .reconciliation < slots true .reconciliation) :
    Effect v { v with
      clock := clock
      state := .starting
      session := none
      incarnation := some incarnation
      budget := (v.budget.take false .reconciliation).take true .reconciliation
      running := [⟨none, incarnation, deadline, .reconciliation, ⟨thread, false⟩⟩] }
  | queued (session : Session W) (queued : Queued) (clock : Nat) (hclock : v.clock ≤ clock)
    (hstate : v.state = .runningInert) (hsession : v.session = some session)
    (hid : queued.id = ⟨session.incarnation, v.sequence + 1⟩)
    (hfree : v.budget.used false queued.workClass < slots false queued.workClass) :
    Effect v { v with
      clock := clock
      sequence := v.sequence + 1
      budget := v.budget.take false queued.workClass
      queue := v.queue ++ [queued]
      issued := v.issued ++ [queued.id] }
  | refused (index : Nat) (queued : Queued) (e : RuntimeError) (clock : Nat) (hclock : v.clock ≤ clock)
    (hqueued : v.queue[index]? = some queued) :
    Effect v { v with
      clock := clock
      queue := v.queue.eraseIdx index
      completed := v.completed ++ [⟨queued.id, .error e, queued.workClass⟩] }
  | dispatched (index : Nat) (queued : Queued) (thread : W.Thread) (clock : Nat) (hclock : v.clock ≤ clock)
    (hstate : v.state = .runningInert) (hqueued : v.queue[index]? = some queued) (hdue : clock < queued.deadline)
    (hfree : v.budget.used true queued.workClass < slots true queued.workClass) :
    Effect v { v with
      clock := clock
      queue := v.queue.eraseIdx index
      budget := v.budget.take true queued.workClass
      running := v.running ++
        [⟨some queued.id, queued.id.incarnation, queued.deadline, queued.workClass, ⟨thread, false⟩⟩] }
  | flagged (index : Nat) (clock : Nat) (hclock : v.clock ≤ clock) :
    Effect v { v with clock := clock, running := v.running.modify index Running.cancel }
  | worked (index : Nat) (thread : W.Thread) :
    Effect v { v with running := v.running.modify index (Running.advance thread) }
  | took (index : Nat) (completed : Completed W) (hcompleted : v.completed[index]? = some completed) :
    Effect v { v with
      completed := v.completed.eraseIdx index
      budget := v.budget.release false completed.workClass
      taken := v.taken ++ [(completed.id, completed.result)] }
  | lost (index : Nat) (job : Running W) (clock : Nat) (hclock : v.clock ≤ clock) (hjob : v.running[index]? = some job)
    (hstate : v.state.draining) :
    Effect v { v.joining index job clock with
      budget := (v.budget.release true job.workClass).release false job.workClass
      dropped := v.dropped ++ job.id.toList }
  | installed (index : Nat) (job : Running W) (session : Session W) (clock : Nat) (hclock : v.clock ≤ clock)
    (hjob : v.running[index]? = some job) (hid : job.id = none) (hstate : v.state.draining = false)
    (hcurrent : v.incarnation = some job.incarnation) (hflag : job.task.cancelled = false)
    (hdue : clock < job.deadline) (hsession : session.incarnation = job.incarnation) :
    Effect v { v.joining index job clock with
      budget := (v.budget.release true job.workClass).release false job.workClass
      state := .runningInert
      session := some session }
  | failed (index : Nat) (job : Running W) (clock : Nat) (hclock : v.clock ≤ clock)
    (hjob : v.running[index]? = some job) (hid : job.id = none) (hstate : v.state.draining = false) :
    Effect v { v.joining index job clock with
      budget := (v.budget.release true job.workClass).release false job.workClass
      state := .held }
  | finished (index : Nat) (job : Running W) (id : WorkId) (result : Except RuntimeError W.Envelope) (clock : Nat)
    (hclock : v.clock ≤ clock) (hjob : v.running[index]? = some job) (hid : job.id = some id)
    (hstate : v.state.draining = false)
    (hresult : ∀ raw, result = .ok raw →
      v.incarnation = some job.incarnation ∧ job.task.cancelled = false ∧ clock < job.deadline)
    (hopen : ∀ e, result = .error e → e.holds = false) :
    Effect v { v.joining index job clock with completed := v.completed ++ [⟨id, result, job.workClass⟩] }
  | drained (index : Nat) (job : Running W) (id : WorkId) (e : RuntimeError) (clock : Nat) (hclock : v.clock ≤ clock)
    (hjob : v.running[index]? = some job) (hid : job.id = some id) (hstate : v.state.draining = false)
    (hholds : e.holds = true) :
    Effect v { v.joining index job clock with
      state := .held
      queue := []
      running := (v.running.eraseIdx index).map Running.cancel
      completed := (v.completed ++ v.queue.map fun queued => ⟨queued.id, .error .cancelled, queued.workClass⟩) ++
        [⟨id, .error e, job.workClass⟩] }
  | sealed :
    Effect v { v with
      state := .stopping
      session := none
      budget := (v.budget.releaseAll (v.queue.map Queued.workClass)).releaseAll (v.completed.map Completed.workClass)
      queue := []
      completed := []
      running := v.running.map Running.cancel
      dropped := v.dropped ++ v.queue.map Queued.id ++ v.completed.map Completed.id }
  | gaveUp (hstate : v.state = .stopping) : Effect v { v with state := .unresolved }
  | stopped (hstate : v.state.draining) (hidle : v.running = []) : Effect v { v with state := .stopped }
  | lent (running : Bool) (workClass : WorkClass) (hfree : v.budget.used running workClass < slots running workClass) :
    Effect v { v with budget := v.budget.take running workClass, outside := v.outside ++ [(running, workClass)] }
  | returned (index : Nat) (running : Bool) (workClass : WorkClass)
    (hheld : v.outside[index]? = some (running, workClass)) :
    Effect v { v with budget := v.budget.release running workClass, outside := v.outside.eraseIdx index }

theorem Effect.refl (v : View W) : Effect v v := .same v.clock (Nat.le_refl _)

/-! ### One lemma for each turn -/

theorem clock_position (budget : Budget) (wanted : Queued → Bool) (delays : Nat → Nat) (queue : List Queued)
    (k clock : Nat) : clock ≤ (Runtime.position budget wanted delays queue k clock).2.2 := by
  induction queue generalizing k clock with
  | nil => exact Nat.le_refl _
  | cons item rest ih =>
    unfold Runtime.position
    split
    · exact ih k clock
    · split
      · exact Nat.le_add_right _ _
      · exact Nat.le_trans (Nat.le_add_right _ _) (ih (k + 1) (clock + delays k))

theorem clock_choose (r : Runtime W) (delays : Nat → Nat) : r.clock ≤ (r.choose delays).2.2 := by
  have hfirst := clock_position r.budget (fun item => item.workClass ≠ .optionalDiscovery) delays r.queue 0 r.clock
  unfold Runtime.choose
  split
  · rename_i hposition
    rw [hposition] at hfirst
    exact hfirst
  · rename_i k clock hposition
    rw [hposition] at hfirst
    have hsecond := clock_position r.budget (fun _ => true) delays r.queue k clock
    simp only at hfirst
    omega

theorem effect_beginStart (b : Book W) (env : Runtime.StartEnv W) :
    Effect b.view (b.turn (.beginStart env)).view := by
  simp only [Book.turn, Runtime.beginStart]
  split
  · exact .refl _
  rename_i hstopped
  rw [not_or, not_not, not_not] at hstopped
  split
  · exact .refl _
  split
  · exact .refl _
  split
  · exact .refl _
  split
  · exact .refl _
  split
  · exact .refl _
  rename_i retained hretained
  split
  · exact .refl _
  rename_i active hactive
  split
  · exact .same _ (Nat.le_add_right _ _)
  · obtain ⟨hfree, rfl⟩ := Budget.reserve_ok hretained
    obtain ⟨hfree', rfl⟩ := Budget.reserve_ok hactive
    have hidle : b.runtime.running = [] := List.isEmpty_iff.1 hstopped.2
    have hactive : b.runtime.budget.used true .reconciliation < slots true .reconciliation := by simpa using hfree'
    simp only [hidle, List.nil_append]
    exact .started _ _ _ _ (Nat.le_add_right _ _) hstopped.1 hidle hfree hactive

theorem effect_enqueue (b : Book W) (workClass : WorkClass) (key : String) (deadline delay : Nat)
    (admitted : Except RuntimeError Unit) :
    Effect b.view (b.turn (.enqueue workClass key deadline delay admitted)).view := by
  have hdelay : b.view.clock ≤ b.runtime.clock + delay := Nat.le_add_right _ _
  simp only [Book.turn]
  generalize hanswer : b.runtime.enqueue workClass key deadline delay admitted = answer
  unfold Runtime.enqueue at hanswer
  split at hanswer
  · subst hanswer
    exact .refl _
  rename_i hstate
  rw [ne_eq, not_not] at hstate
  split at hanswer
  · subst hanswer
    exact .refl _
  rename_i session hsession
  simp only at hanswer
  split at hanswer
  · subst hanswer
    exact .same _ hdelay
  split at hanswer
  · subst hanswer
    exact .same _ hdelay
  split at hanswer
  · subst hanswer
    exact .same _ hdelay
  split at hanswer
  · subst hanswer
    exact .same _ hdelay
  split at hanswer
  · subst hanswer
    exact .same _ hdelay
  split at hanswer
  · subst hanswer
    exact .same _ hdelay
  rename_i budget hbudget
  obtain ⟨hfree, rfl⟩ := Budget.reserve_ok hbudget
  split at hanswer
  · subst hanswer
    exact .queued session ⟨⟨session.incarnation, b.runtime.sequence + 1⟩, workClass, key, deadline⟩ _ hdelay hstate
      hsession rfl hfree
  · subst hanswer
    exact .same _ hdelay

theorem effect_dispatchNext (b : Book W) (delays : Nat → Nat) (spawned : Except (Option Int) W.Thread) :
    Effect b.view (b.turn (.dispatchNext delays spawned)).view := by
  have hchoose := clock_choose b.runtime delays
  simp only [Book.turn]
  generalize hanswer : b.runtime.dispatchNext delays spawned = answer
  unfold Runtime.dispatchNext at hanswer
  split at hanswer
  · subst hanswer
    exact .refl _
  rename_i hstate
  rw [ne_eq, not_not] at hstate
  generalize b.runtime.choose delays = chosen at hchoose hanswer
  obtain ⟨index, k, clock⟩ := chosen
  simp only at hchoose hanswer
  have hclock : b.view.clock ≤ clock + delays k := Nat.le_trans hchoose (Nat.le_add_right _ _)
  split at hanswer
  · subst hanswer
    exact .same _ hchoose
  rename_i index
  split at hanswer
  · subst hanswer
    exact .same _ hchoose
  rename_i queued hqueued
  split at hanswer
  · subst hanswer
    exact .refused index queued _ _ hclock hqueued
  rename_i hdue
  split at hanswer
  · subst hanswer
    exact .same _ hclock
  rename_i active hactive
  obtain ⟨hfree, rfl⟩ := Budget.reserve_ok hactive
  split at hanswer
  · subst hanswer
    exact .same _ hclock
  split at hanswer
  · subst hanswer
    exact .refused index queued _ _ hclock hqueued
  · subst hanswer
    exact .dispatched index queued _ _ hclock hstate hqueued (Nat.lt_of_not_le hdue) hfree

theorem effect_cancel (b : Book W) (id : WorkId) : Effect b.view (b.turn (.cancel id)).view := by
  simp only [Book.turn, Runtime.cancel]
  split
  · rename_i index hfind
    split
    · exact .refl _
    · rename_i queued hqueued
      obtain ⟨hindex, hid, -⟩ := List.findIdx?_eq_some_iff_getElem.1 hfind
      have hsame : queued.id = id := by
        rw [List.getElem?_eq_getElem hindex] at hqueued
        rw [← Option.some.inj hqueued]
        exact of_decide_eq_true hid
      rw [← hsame]
      exact .refused index queued _ _ (Nat.le_refl _) hqueued
  · split
    · exact .flagged _ _ (Nat.le_refl _)
    · exact .refl _

theorem effect_takeResult (b : Book W) (id : WorkId) : Effect b.view (b.turn (.takeResult id)).view := by
  simp only [Book.turn]
  generalize hanswer : b.runtime.takeResult id = answer
  unfold Runtime.takeResult at hanswer
  split at hanswer
  · subst hanswer
    exact .refl _
  · rename_i index hfind
    split at hanswer
    · subst hanswer
      exact .refl _
    · rename_i completed hcompleted
      obtain ⟨hindex, hid, -⟩ := List.findIdx?_eq_some_iff_getElem.1 hfind
      have hsame : completed.id = id := by
        rw [List.getElem?_eq_getElem hindex] at hcompleted
        rw [← Option.some.inj hcompleted]
        exact of_decide_eq_true hid
      subst hanswer
      rw [← hsame]
      exact .took index completed hcompleted

/-! ### A look -/

theorem check_eq_ok {cancelled : Bool} {deadline clock : Nat} {u : Unit}
    (h : Runtime.check cancelled deadline clock = .ok u) : clock < deadline ∧ cancelled = false := by
  unfold Runtime.check at h
  split at h
  · exact nomatch h
  · rename_i hdue
    split at h
    · exact nomatch h
    · rename_i hflag
      exact ⟨Nat.lt_of_not_le hdue, by simpa using hflag⟩

theorem settled_eq_ok {r : Runtime W} {job : Running W} {result : Except RuntimeError (Output W)} {out : Output W}
    (h : r.settled job result = .ok out) :
    r.incarnation = some job.incarnation ∧ job.task.cancelled = false ∧ r.clock < job.deadline := by
  unfold Runtime.settled at h
  split at h
  · exact nomatch h
  · rename_i hcurrent
    rw [ne_eq, not_not] at hcurrent
    split at h
    · exact nomatch h
    · rename_i hcheck
      obtain ⟨hdue, hflag⟩ := check_eq_ok hcheck
      exact ⟨hcurrent, hflag, hdue⟩

/-- A look that joins nothing: the job is cancelled where its deadline has passed. -/
theorem effect_unfinished (b : Book W) {index : Nat} {job : Running W} {clock : Nat} (hclock : b.view.clock ≤ clock)
    (hjob : b.runtime.running[index]? = some job) :
    Effect b.view { b with runtime := { b.runtime with
      clock := clock
      running := b.runtime.running.set index (if job.deadline ≤ clock then job.cancel else job) } }.view := by
  obtain ⟨hindex, hget⟩ := List.getElem?_eq_some_iff.1 hjob
  by_cases hlate : job.deadline ≤ clock
  · have hset : b.runtime.running.set index job.cancel = b.runtime.running.modify index Running.cancel := by
      rw [List.modify_eq_set_getElem?]
      simp [hjob]
    simp only [hlate, if_true, hset]
    exact .flagged index clock hclock
  · have hset : b.runtime.running.set index job = b.runtime.running := by
      rw [← hget]
      exact List.set_getElem_self hindex
    simp only [hlate, if_false, hset]
    exact .same clock hclock

theorem effect_complete (v : View W) {r : Runtime W} {index : Nat} {job : Running W} {id : WorkId} {b : Book W}
    {result : Except RuntimeError W.Envelope} {clock : Nat} (hclock : v.clock ≤ clock)
    (hview : { b with runtime := r }.view = v.joining index job clock) (hjob : v.running[index]? = some job)
    (hid : job.id = some id) (hstate : v.state.draining = false)
    (hresult : ∀ raw, result = .ok raw →
      v.incarnation = some job.incarnation ∧ job.task.cancelled = false ∧ clock < job.deadline)
    {job' : Running W} (hclass : job'.workClass = job.workClass) :
    Effect v { b with runtime := r.complete job' id result }.view := by
  have hfinished (hopen : ∀ e, result = .error e → e.holds = false) : Effect v
      { v.joining index job clock with completed := v.completed ++ [⟨id, result, job.workClass⟩] } :=
    .finished index job id result clock hclock hjob hid hstate hresult hopen
  have hcompleted : r.completed = v.completed := congrArg View.completed hview
  unfold Runtime.complete
  rw [hclass]
  cases result with
  | ok raw =>
    have heffect := hfinished (fun e he => nomatch he)
    rw [← hview, ← hcompleted] at heffect
    exact heffect
  | error e =>
    cases hholds : e.holds with
    | false =>
      have heffect := hfinished (fun e' he => by rw [← Except.error.inj he]; exact hholds)
      rw [← hview, ← hcompleted] at heffect
      simp only [hholds, Bool.false_eq_true, if_false]
      exact heffect
    | true =>
      have heffect := Effect.drained index job id e clock hclock hjob hid hstate hholds
      have hqueue : r.queue = v.queue := congrArg View.queue hview
      have hrunning : r.running = v.running.eraseIdx index := congrArg View.running hview
      rw [← hview, ← hcompleted, ← hqueue, ← hrunning] at heffect
      simp only [hholds, if_true]
      exact heffect

/-- The runtime in which a joined job is delivered. -/
def Runtime.freed (r : Runtime W) (job : Running W) (result : Except RuntimeError (Output W)) (late : Nat) : Runtime W :=
  { r with
    clock := r.clock + late
    budget := r.budget.release true job.workClass
    owners := match result with
      | .ok (.started owners _ _ _) => some owners
      | _ => r.owners }

theorem Runtime.join_eq (r : Runtime W) (job : Running W) (result : Except RuntimeError (Output W)) (late : Nat) :
    r.join job result late =
      if (r.freed job result late).state.draining then
        { r.freed job result late with budget := (r.freed job result late).budget.release false job.workClass }
      else (r.freed job result late).deliver job ((r.freed job result late).settled job result) := rfl

/-- The join of a job; a deadline that has passed only adds a cancellation. -/
theorem effect_join (b : Book W) {index : Nat} {job : Running W} (early late : Nat)
    (hjob : b.runtime.running[index]? = some job) (result : Except RuntimeError (Output W)) :
    Effect b.view { b with
      runtime := { b.runtime with
        clock := b.runtime.clock + early
        running := b.runtime.running.eraseIdx index }.join
          (if job.deadline ≤ b.runtime.clock + early then job.cancel else job) result late
      dropped := b.dropped ++ if b.runtime.state.draining then job.id.toList else [] }.view := by
  have hclock : b.view.clock ≤ b.runtime.clock + early + late :=
    Nat.le_trans (Nat.le_add_right _ _) (Nat.le_add_right _ _)
  obtain ⟨job', hjob', hid, hincarnation, hdeadline, hclass, hflag⟩ : ∃ job',
      (if job.deadline ≤ b.runtime.clock + early then job.cancel else job) = job' ∧ job'.id = job.id ∧
        job'.incarnation = job.incarnation ∧ job'.deadline = job.deadline ∧ job'.workClass = job.workClass ∧
        (job'.task.cancelled = false → job.task.cancelled = false) := by
    refine ⟨_, rfl, ?_⟩
    split
    · exact ⟨rfl, rfl, rfl, rfl, fun h => by cases h⟩
    · exact ⟨rfl, rfl, rfl, rfl, id⟩
  rw [hjob']
  rw [Runtime.join_eq]
  have hfreed (r : Runtime W) : r.freed job' result late = r.freed job result late := by
    unfold Runtime.freed
    rw [hclass]
  rw [hfreed]
  generalize hr : Runtime.freed _ job result late = r
  have hdraining : r.state.draining = b.runtime.state.draining := by
    rw [← hr]
    rfl
  rw [hdraining]
  cases hstate : b.runtime.state.draining with
  | true =>
    simp only [if_true, hclass, ← hr]
    exact .lost index job _ hclock hjob hstate
  | false =>
    simp only [Bool.false_eq_true, if_false, List.append_nil]
    have hview : { b with runtime := r }.view = b.view.joining index job (b.runtime.clock + early + late) := by
      rw [← hr]
      rfl
    have hout : ∀ out, r.settled job' result = .ok out → b.view.incarnation = some job.incarnation ∧
        job.task.cancelled = false ∧ b.runtime.clock + early + late < job.deadline := by
      intro out hsettled
      obtain ⟨hcurrent, hopen, hdue⟩ := settled_eq_ok hsettled
      rw [hincarnation] at hcurrent
      rw [hdeadline] at hdue
      have hr' : r.incarnation = b.runtime.incarnation ∧ r.clock = b.runtime.clock + early + late := by
        rw [← hr]
        exact ⟨rfl, rfl⟩
      rw [hr'.1] at hcurrent
      rw [hr'.2] at hdue
      exact ⟨hcurrent, hflag hopen, hdue⟩
    have hfailed (code : String) (hnone : job.id = none) :
        Effect b.view { b with runtime := r.hold job' code }.view := by
      have heffect := Effect.failed index job _ hclock hjob hnone hstate
      rw [← hview] at heffect
      unfold Runtime.hold
      rw [hclass]
      have hbudget : r.budget = b.runtime.budget.release true job.workClass := congrArg View.budget hview
      rw [hbudget]
      exact heffect
    generalize r.settled job' result = settled at hout
    unfold Runtime.deliver
    rw [hid]
    cases hjobId : job.id with
    | none =>
      cases settled with
      | error e => exact hfailed e.code hjobId
      | ok out =>
        obtain ⟨hcurrent, hopen, hdue⟩ := hout out rfl
        cases out with
        | read raw => exact hfailed "runtime-invalid" hjobId
        | started owners selected credential source =>
          cases selected with
          | error e => exact hfailed e.code hjobId
          | ok selected =>
            have heffect : Effect b.view _ := .installed index job ⟨selected, credential, job'.incarnation, source⟩ _
              hclock hjob hjobId hstate hcurrent hopen hdue hincarnation
            rw [← hview] at heffect
            have hbudget : r.budget = b.runtime.budget.release true job.workClass := congrArg View.budget hview
            simp only [hclass, hbudget]
            exact heffect
    | some id =>
      cases settled with
      | error e => exact effect_complete b.view hclock hview hjob hjobId hstate (by rintro raw ⟨⟩) hclass
      | ok out =>
        cases out with
        | read raw => exact effect_complete b.view hclock hview hjob hjobId hstate (fun _ _ => hout _ rfl) hclass
        | started =>
          exact effect_complete b.view hclock hview hjob hjobId hstate (by rintro raw ⟨⟩) hclass

theorem effect_look (b : Book W) (index : Nat) (look : Runtime.Look W) :
    Effect b.view (b.turn (.look index look)).view := by
  simp only [Book.turn, Runtime.look, Book.lookDrops]
  cases hjob : b.runtime.running[index]? with
  | none =>
    simp only [List.append_nil]
    exact .refl _
  | some job =>
    cases hfinished : look.finished with
    | none =>
      simp only [Option.isSome_none, Bool.false_eq_true, false_and, if_false, List.append_nil]
      exact effect_unfinished b (Nat.le_add_right _ _) hjob
    | some result =>
      simp only [Option.isSome_some, true_and]
      exact effect_join b look.early look.late hjob result

/-! ### Every turn -/

theorem effect_turn (b : Book W) (turn : Turn W) : Effect b.view (b.turn turn).view := by
  cases turn with
  | beginStart env => exact effect_beginStart b env
  | enqueue workClass key deadline delay admitted => exact effect_enqueue b workClass key deadline delay admitted
  | dispatchNext delays spawned => exact effect_dispatchNext b delays spawned
  | cancel id => exact effect_cancel b id
  | takeResult id => exact effect_takeResult b id
  | joinSubscriptions joined => exact .refl _
  | look index look => exact effect_look b index look
  | settle =>
    simp only [Book.turn, Runtime.settle]
    split
    · rename_i h
      have hidle : b.runtime.running = [] := by
        have hjoined := h.2
        simp only [Runtime.joined, Bool.and_eq_true, List.isEmpty_iff] at hjoined
        exact hjoined.1
      exact .stopped h.1 hidle
    · exact .refl _
  | sealIntake => exact .sealed
  | giveUp =>
    simp only [Book.turn, Runtime.giveUp]
    split
    · rename_i hstate
      split
      · exact .refl _
      · exact .gaveUp hstate
    · exact .refl _
  | wait delay => exact .same _ (Nat.le_add_right _ _)
  | work index thread => exact .worked index thread
  | subscribe =>
    simp only [Book.turn]
    split
    · exact .refl _
    · exact .refl _
  | reserveOutside running workClass =>
    simp only [Book.turn]
    split
    · rename_i budget hbudget
      obtain ⟨hfree, rfl⟩ := Budget.reserve_ok hbudget
      exact .lent running workClass hfree
    · exact .refl _
  | releaseOutside index =>
    simp only [Book.turn]
    split
    · rename_i running workClass hheld
      exact .returned index running workClass hheld
    · exact .refl _

end Verdant.Work
