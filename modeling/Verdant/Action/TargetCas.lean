import Verdant.Action.JournalLaw

/-!
# The per-target compare-and-swap

Any number of handles submit prepared admissions, every operation of a call being one step of an interleaving.  In
every state so reached the rows of a target are numbered `1..n`, its current generation is `n` and every journal row
has exactly one lifecycle row; a submit that does not commit leaves the tables alone.
-/

namespace Verdant.Action

open Storage

/-- A prepared admission and the handle that submits it. -/
structure Submission where
  preparedBy : SqliteStore
  id : String
  request : AdmissionRequest
  pending : PendingAdmission
  prepared : prepareWithPredecessor preparedBy id request = .ok pending
  handle : SqliteStore

/-- A submit starts, or the `i`-th one performs its next operation. -/
inductive SubmitEvent where
  | start (submission : Submission)
  | step (i : Nat) (moment : Moment)

abbrev JournalPool :=
  Prog.Pool (StoreOp.Answer (ρ := JournalTables)) (Database JournalTables) (Except WriterError Admitted)

abbrev JournalEvent := Prog.Event (StoreOp.Answer (ρ := JournalTables)) Moment (Except WriterError Admitted)

def SubmitEvent.event : SubmitEvent → JournalEvent
  | .start s => .start (submitAdmission s.handle s.pending)
  | .step i m => .step i m

/-- The handles and their store after an interleaving that begins with an empty journal. -/
def submitPool (receipts : List ReceiptRow) (events : List SubmitEvent) : JournalPool :=
  (Prog.Pool.idle ⟨.empty, receipts⟩).after StoreOp.exec (events.map SubmitEvent.event)

/-- What the journal promises about its tables. -/
structure CasLaw (tables : JournalTables) : Prop where
  target : ∀ scope equipment, ∃ n,
    tables.generations scope equipment = List.range' 1 n ∧
    tables.targetRows scope equipment = if n = 0 then [] else [⟨scope, equipment, n⟩]
  expected : ∀ r ∈ tables.journal, r.expectedGeneration = r.targetGeneration - 1
  lifecycle : ∀ r ∈ tables.journal, (tables.lifecycle.filter fun l => l.operation = r.operation).length = 1

/-! ### The operations of a submit -/

/-- The operations of a submitted admission: its own ticket is the only one that writes. -/
def SubmitOp : StoreOp JournalTables → Prop
  | .submit _ ticket => ∃ (a : Admission) (store : SqliteStore), a.Checked ∧ ticket = a.ticket store
  | _ => True

theorem SubmitOp.journalOp {op : StoreOp JournalTables} (h : SubmitOp op) : JournalOp op := by
  cases op with
  | submit store ticket => exact .inl h
  | draw | reconcile | reconcileOperation | read | wall | poll => exact trivial

theorem Submission.issues (s : Submission) : (submitAdmission s.handle s.pending).Issues SubmitOp := by
  obtain ⟨hcheck, hticket⟩ := prepareWithPredecessor_eq_ok s.prepared
  have hchecked := (AdmissionRequest.check_eq_ok hcheck).1
  refine submitAdmission_issues (fun _ => trivial) trivial ?_
  exact ⟨s.pending.admission, s.preparedBy, hchecked, hticket⟩

/-- An operation of a submit that records no receipt leaves the tables. -/
theorem SubmitOp.uncommitted {op : StoreOp JournalTables} (h : SubmitOp op) (m : Moment)
    (db : Database JournalTables) (hreceipts : (op.exec m db).1.receipts = db.receipts) :
    (op.exec m db).1.tables = db.tables := by
  cases op with
  | submit store ticket =>
    obtain ⟨a, store', -, rfl⟩ := h
    rcases submit_admission store store' a m.host db with hsame | ⟨-, -, response, hnew⟩
    · exact congrArg Database.tables hsame
    · simp only [StoreOp.exec] at hreceipts
      rw [hnew] at hreceipts
      simp at hreceipts
  | draw | reconcile | reconcileOperation | read | wall | poll => rfl

/-! ### Every state of an interleaving -/

theorem RowLaw.single {tables : JournalTables} (h : RowLaw tables) {r : JournalRow} (hr : r ∈ tables.journal) :
    (tables.lifecycle.filter fun l => l.operation = r.operation).length = 1 := by
  have hnodup : (tables.lifecycle.map LifecycleRow.operation).Nodup := by
    rw [h.lifecycle]
    exact h.operations
  have hmem : r.operation ∈ tables.lifecycle.map LifecycleRow.operation := by
    rw [h.lifecycle]
    exact List.mem_map_of_mem hr
  have hcount := List.count_eq_one_of_mem hnodup hmem
  rw [List.count, List.countP_map] at hcount
  rw [← List.countP_eq_length_filter, ← hcount]
  refine List.countP_congr fun l _ => ?_
  simp

/-- The laws together, as one operation keeps them. -/
def Lawful (db : Database JournalTables) : Prop :=
  RowLaw db.tables ∧ ∀ scope equipment, TargetLaw db.tables scope equipment

theorem Lawful.exec {op : StoreOp JournalTables} (hop : JournalOp op) (m : Moment) {db : Database JournalTables}
    (h : Lawful db) : Lawful (op.exec m db).1 :=
  ⟨h.1.step (hop.step m db), fun scope equipment => (h.2 scope equipment).step (hop.step m db)⟩

theorem Lawful.casLaw {db : Database JournalTables} (h : Lawful db) : CasLaw db.tables where
  target := h.2
  expected r hr := by
    have := h.1.expected r hr
    omega
  lifecycle r hr := h.1.single hr

theorem submitPool_lawful (receipts : List ReceiptRow) (events : List SubmitEvent) :
    Lawful (submitPool receipts events).state ∧ (submitPool receipts events).AllIssue SubmitOp := by
  refine Prog.Pool.invariant (fun op m db hop h => h.exec hop.journalOp m) _ ?_ ?_ ?_
  · intro p hp
    obtain ⟨event, -, hevent⟩ := List.mem_map.1 hp
    cases event with
    | start s =>
      cases hevent
      exact s.issues
    | step i m => exact nomatch hevent
  · intro p hp
    exact nomatch hp
  · exact ⟨RowLaw.empty, TargetLaw.empty⟩

theorem submitPool_snoc (receipts : List ReceiptRow) (events : List SubmitEvent) (event : SubmitEvent) :
    submitPool receipts (events ++ [event]) = (submitPool receipts events).step StoreOp.exec event.event := by
  simp [submitPool, Prog.Pool.after]

/-- What the next event of an interleaving does when no ticket commits. -/
structure UncommittedLaw (before after : JournalPool) (event : SubmitEvent) : Prop where
  receipts : after.state.receipts = before.state.receipts → after.state.tables = before.state.tables
  refused : ∀ i m handle ticket next, event = .step i m →
    before.calls[i]? = some (.call (.submit handle ticket) next) →
      (submit handle ticket m.host before.state).2.Refused → after.state = before.state

/-- Per-target admission in every interleaving of submits. -/
theorem admission_cas (receipts : List ReceiptRow) (events : List SubmitEvent) (event : SubmitEvent) :
    CasLaw (submitPool receipts events).state.tables ∧
      UncommittedLaw (submitPool receipts events) (submitPool receipts (events ++ [event])) event := by
  obtain ⟨hlawful, hissue⟩ := submitPool_lawful receipts events
  refine ⟨hlawful.casLaw, ?_, ?_⟩
  · intro hsame
    have hstart : ∀ p, event.event = .start p → p.Issues SubmitOp := by
      intro p hp
      cases event with
      | start s =>
        cases hp
        exact s.issues
      | step i m => exact nomatch hp
    rw [submitPool_snoc] at hsame ⊢
    rcases (Prog.Pool.step_cases StoreOp.exec hissue hstart).2 with hstate | ⟨op, m, hop, hstate⟩
    · rw [hstate]
    · rw [hstate] at hsame ⊢
      exact hop.uncommitted m _ hsame
  · rintro i m handle ticket next rfl hcall hrefused
    have hop : SubmitOp (.submit handle ticket) := (hissue _ (List.mem_of_getElem? hcall)).1
    obtain ⟨a, store, -, rfl⟩ := hop
    rw [submitPool_snoc]
    simp only [SubmitEvent.event, Prog.Pool.step, hcall, StoreOp.exec]
    exact submit_refused (by simp [Admission.ticket]) hrefused

end Verdant.Action
