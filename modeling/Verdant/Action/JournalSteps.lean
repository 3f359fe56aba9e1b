import Verdant.Action.Journal

/-!
# What the journal's batches do

`run_admissionBody` and `run_transitionBody` say everything a batch that ran through did to the three tables.  From them
`submit_admission` and `submit_transition` say everything a submitted ticket can do: nothing, or the whole batch.
-/

namespace Verdant.Action

open Storage

/-! ### Statements -/

theorem insertJournal_exec {a : Admission} {s t : Session JournalTables} {rows : Rows}
    (h : (insertJournal a).exec s = .ok (t, rows)) :
    (a.row s.now).failedCheck = none ∧ s.tables.findJournal a.operation.text = none ∧ rows = [] ∧
      t = { s with
        tables := { s.tables with journal := s.tables.journal ++ [a.row s.now] }
        lastInsertRowid := s.tables.journal.length + 1
        changes := 1 } := by
  obtain ⟨e, he, rfl, rfl⟩ := Statement.onTables_eq_ok h
  simp only at he
  split at he
  · exact nomatch he
  · rename_i hcheck
    split at he
    · exact nomatch he
    · rename_i hfresh
      cases he
      exact ⟨hcheck, by simpa using hfresh, rfl, rfl⟩

theorem upsertTarget_exec {scope : TrustedScope} {equipment : InstalledId} {generation : UInt32}
    {s t : Session JournalTables} {rows : Rows}
    (h : (upsertTarget scope equipment generation).exec s = .ok (t, rows)) :
    rows = [] ∧ t.clock = s.clock ∧ t.receipts = s.receipts ∧
      t.tables = { s.tables with
        targets := upsertTargetRow scope.text equipment.text generation.toNat s.tables.targets } := by
  obtain ⟨e, he, rfl, rfl⟩ := Statement.onTables_eq_ok h
  cases he
  exact ⟨rfl, rfl, rfl, rfl⟩

theorem insertLifecycle_exec {a : Admission} {s t : Session JournalTables} {rows : Rows}
    (h : (insertLifecycle a).exec s = .ok (t, rows)) :
    s.tables.findLifecycle a.operation.text = none ∧
      (∀ old ∈ a.predecessor, s.tables.findJournal old.text ≠ none) ∧ rows = [] ∧ t.receipts = s.receipts ∧
      t.tables = { s.tables with lifecycle := s.tables.lifecycle ++ [a.lifecycleRow s.now] } := by
  obtain ⟨e, he, rfl, rfl⟩ := Statement.onTables_eq_ok h
  simp only at he
  split at he
  · exact nomatch he
  split at he
  · exact nomatch he
  rename_i hfresh
  split at he
  · exact nomatch he
  rename_i hkeys
  cases he
  refine ⟨by simpa using hfresh, ?_, rfl, rfl, rfl⟩
  intro old hold hnone
  apply hkeys
  simp [Admission.lifecycleRow, Option.mem_def.1 hold, hnone]

theorem upsertLifecycle_exec {operation : OperationId} {newState : LifecycleState} {s t : Session JournalTables}
    {rows : Rows} (h : (upsertLifecycle operation newState).exec s = .ok (t, rows)) :
    rows = [] ∧ t.receipts = s.receipts ∧
      ((s.tables.findJournal operation.text = none ∧ t.tables = s.tables ∧ t.changes = 0) ∨
        ∃ journal updated, s.tables.findJournal operation.text = some journal ∧
          t.tables = { s.tables with
            lifecycle := upsertLifecycleRow ⟨operation.text, journal.attempt, newState, updated, none⟩
              s.tables.lifecycle }) := by
  obtain ⟨e, he, rfl, rfl⟩ := Statement.onTables_eq_ok h
  simp only at he
  split at he
  · rename_i hnone
    cases he
    exact ⟨rfl, rfl, .inl ⟨hnone, rfl, rfl⟩⟩
  · rename_i journal hsome
    split at he
    · exact nomatch he
    · cases he
      exact ⟨rfl, rfl, .inr ⟨journal, s.now, hsome, rfl⟩⟩

/-! ### The admission batch -/

/-- The tables after one admission. -/
def JournalTables.admitted (tables : JournalTables) (a : Admission) (created updated : Int) : JournalTables where
  journal := tables.journal ++ [a.row created]
  targets := upsertTargetRow a.scope.text a.equipment.text a.targetGeneration.toNat tables.targets
  lifecycle := tables.lifecycle ++ [a.lifecycleRow updated]

/-- What an admission batch that ran through found and did; `guardNow` is the reading the rate guard took. -/
structure Admits (a : Admission) (guardNow created : Int) (before after : JournalTables) : Prop where
  current : before.currentGeneration a.scope.text a.equipment.text = a.expectedGeneration.toNat
  rate : a.identity.kind = .set →
    before.rateCount a.scope.text a.equipment.text guardNow < ownedRateMaxPerHour
  fresh : before.findJournal a.operation.text = none
  freshLifecycle : before.findLifecycle a.operation.text = none
  predecessor : ∀ old ∈ a.predecessor, old.text = a.operation.text ∨ before.findJournal old.text ≠ none
  after_eq : ∃ updated, after = before.admitted a created updated

theorem findJournal_append_of_ne {tables : JournalTables} {row : JournalRow} {operation : String}
    (h : row.operation ≠ operation) :
    ({ tables with journal := tables.journal ++ [row] } : JournalTables).findJournal operation =
      tables.findJournal operation := by
  simp [JournalTables.findJournal, List.find?_append, h]

theorem JournalTables.findJournal_admitted {tables : JournalTables} {a : Admission} {created updated : Int}
    {operation : String} {r : JournalRow} (h : tables.findJournal operation = some r) :
    (tables.admitted a created updated).findJournal operation = some r := by
  rw [findJournal] at h
  simp only [findJournal, admitted, List.find?_append, h, Option.some_or]

theorem JournalTables.lifecycleState_admitted {tables : JournalTables} {a : Admission} {created updated : Int}
    {operation : String} (h : a.operation.text ≠ operation) :
    (tables.admitted a created updated).lifecycleState operation = tables.lifecycleState operation := by
  simp [lifecycleState, findLifecycle, admitted, List.find?_append, h]

private theorem run_rows {a : Admission} {s t : Session JournalTables} {rows : Rows}
    (h : Script.run [insertJournal a, upsertTarget a.scope a.equipment a.targetGeneration, insertLifecycle a] s =
      .ok (t, rows)) :
    s.tables.findJournal a.operation.text = none ∧ s.tables.findLifecycle a.operation.text = none ∧
      (∀ old ∈ a.predecessor, old.text = a.operation.text ∨ s.tables.findJournal old.text ≠ none) ∧ rows = [] ∧
      t.receipts = s.receipts ∧ ∃ updated, t.tables = s.tables.admitted a s.now updated := by
  obtain ⟨u, first, rest, hjournal, hrun, rfl⟩ := Script.run_cons_ok.1 h
  obtain ⟨-, hfresh, rfl, rfl⟩ := insertJournal_exec hjournal
  obtain ⟨v, second, more, htarget, hlast, rfl⟩ := Script.run_cons_ok.1 hrun
  obtain ⟨rfl, -, hreceipts, htables⟩ := upsertTarget_exec htarget
  obtain ⟨w, third, nothing, hlifecycle, hnil, rfl⟩ := Script.run_cons_ok.1 hlast
  obtain ⟨hnone, hpredecessor, rfl, hreceipts', htables'⟩ := insertLifecycle_exec hlifecycle
  cases hnil
  simp only [Session.tick_tables, Session.tick_receipts] at *
  refine ⟨hfresh, ?_, ?_, rfl, by rw [hreceipts', hreceipts], v.tick.now, ?_⟩
  · rw [htables] at hnone
    exact hnone
  · intro old hold
    by_cases hself : old.text = a.operation.text
    · exact .inl hself
    · right
      have hfound := hpredecessor old hold
      rw [htables] at hfound
      have hne : (a.row s.now).operation ≠ old.text := fun heq => hself heq.symm
      rw [← findJournal_append_of_ne hne]
      exact hfound
  · rw [htables', htables]
    rfl

theorem run_admissionBody {a : Admission} {s t : Session JournalTables} {rows : Rows}
    (h : (admissionBodyV2 a).run s = .ok (t, rows)) :
    ∃ guardNow created, Admits a guardNow created s.tables t.tables ∧ t.receipts = s.receipts ∧ rows = [] ∧
      guardNow = (s.clock 3).toInt ∧ created = (s.clock (if a.identity.kind = .set then 4 else 2)).toInt := by
  unfold admissionBodyV2 generationGuard at h
  rw [List.append_assoc, Script.run_append_ok] at h
  obtain ⟨u, first, rest, hguard, hrun, rfl⟩ := h
  obtain ⟨b, out₁, more₁, hcreate, hinsert, rfl⟩ := Script.run_cons_ok.1 hguard
  obtain ⟨rfl, rfl⟩ := createGuard_exec hcreate
  obtain ⟨c, out₂, more₂, hcheck, hnil, rfl⟩ := Script.run_cons_ok.1 hinsert
  obtain ⟨hcurrent, rfl, rfl⟩ := insertGuard_exec hcheck
  cases hnil
  rw [decide_eq_true_eq] at hcurrent
  by_cases hset : a.identity.kind = .set
  · -- the rate guard runs between the generation guard and the insert
    rw [if_pos hset, Script.run_append_ok] at hrun
    obtain ⟨v, out₃, more₃, hrate, hrows, rfl⟩ := hrun
    unfold rateGuard at hrate
    obtain ⟨d, out₄, more₄, hcreate', hinsert', rfl⟩ := Script.run_cons_ok.1 hrate
    obtain ⟨rfl, rfl⟩ := createGuard_exec hcreate'
    obtain ⟨e, out₅, more₅, hcheck', hnil', rfl⟩ := Script.run_cons_ok.1 hinsert'
    obtain ⟨hcount, rfl, rfl⟩ := insertGuard_exec hcheck'
    cases hnil'
    rw [decide_eq_true_eq] at hcount
    obtain ⟨hfresh, hlifecycle, hpredecessor, rfl, hreceipts, updated, htables⟩ := run_rows hrows
    rw [if_pos hset]
    exact ⟨_, _, ⟨hcurrent, fun _ => hcount, hfresh, hlifecycle, hpredecessor, updated, htables⟩, hreceipts, rfl, rfl,
      rfl⟩
  · rw [if_neg hset, List.nil_append] at hrun
    obtain ⟨hfresh, hlifecycle, hpredecessor, rfl, hreceipts, updated, htables⟩ := run_rows hrun
    rw [if_neg hset]
    exact ⟨_, _, ⟨hcurrent, fun h => absurd h hset, hfresh, hlifecycle, hpredecessor, updated, htables⟩, hreceipts, rfl,
      rfl, rfl⟩

/-- The wall reading the rate guard takes in a batch. -/
def guardReading (host : Host) : Int := (host.clock 5).toInt

/-- The wall reading a batch stores as `created`: the statement after the last guard. -/
def createdReading (a : Admission) (host : Host) : Int :=
  (host.clock (if a.identity.kind = .set then 6 else 4)).toInt

/-! ### Submitted tickets -/

/-- The ticket of an admission, as `with_operation` leaves it. -/
def Admission.ticket (a : Admission) (store : SqliteStore) : PreparedMutation JournalTables where
  operation := a.operation
  store := store.identity
  body := guardedBatch "1" (fun _ => true) (admissionBodyV2 a)
  shape := .insert
  payloadBytes := a.payload.utf8ByteSize
  attempted := true

theorem prepareWithPredecessor_eq_ok {store : SqliteStore} {id : String} {request : AdmissionRequest}
    {pending : PendingAdmission} (h : prepareWithPredecessor store id request = .ok pending) :
    request.check store = .ok pending.admission ∧ pending.ticket = pending.admission.ticket store := by
  unfold prepareWithPredecessor at h
  split at h
  · exact nomatch h
  · rename_i admission hcheck
    split at h
    · exact nomatch h
    · rename_i ticket hticket
      cases h
      obtain ⟨-, hticket⟩ := prepareGuardedBatch_eq_ok hticket
      refine ⟨hcheck, ?_⟩
      rw [hticket]
      rfl

/-- The ticket of a transition, drawn under a fresh identity. -/
structure IsTransitionTicket (store : SqliteStore) (operation : OperationId) (newState : LifecycleState)
    (ticket : PreparedMutation JournalTables) : Prop where
  store_eq : ticket.store = store.identity
  body_eq : ticket.body = guardedBatch "1" (fun _ => true) (transitionBody operation newState)
  shape_eq : ticket.shape = .insert

theorem isTransitionTicket_of_prepare {store : SqliteStore} {id : String} {operation : OperationId}
    {newState : LifecycleState} {n : Nat} {ticket : PreparedMutation JournalTables}
    (h : prepareGuardedBatch store id "1" (fun _ => true) (transitionBody operation newState) n = .ok ticket) :
    IsTransitionTicket store operation newState ticket := by
  obtain ⟨-, hticket⟩ := prepareGuardedBatch_eq_ok h
  rw [hticket]
  exact ⟨rfl, rfl, rfl⟩

/-- A submitted admission ticket leaves the database, or commits its whole batch when it had no receipt. -/
theorem submit_admission (store store' : SqliteStore) (a : Admission) (host : Host) (db : Database JournalTables) :
    (submit store (a.ticket store') host db).1 = db ∨
      (findReceipt db.receipts a.operation.text = none ∧
        Admits a (guardReading host) (createdReading a host) db.tables (submit store (a.ticket store') host db).1.tables ∧
        ∃ response, (submit store (a.ticket store') host db).1.receipts =
          db.receipts ++ [⟨a.operation.text, (a.ticket store').request, response⟩]) := by
  rcases submit_step store (a.ticket store') host db with hsame | ⟨-, hnone, rows, happly, -⟩
  · exact .inl hsame
  · right
    obtain ⟨s, hrun, hnext⟩ := Application.apply_eq_some.1 happly
    obtain ⟨-, u, v, inner, hdb, hclock, hbody, htoDatabase, -⟩ := run_guardedBatch hrun
    obtain ⟨guardNow, created, hadmits, hreceipts, -, hguard, hcreated⟩ := run_admissionBody hbody
    have htables : s.tables = v.tables := congrArg Database.tables htoDatabase
    have hbefore : u.tables = db.tables := congrArg Database.tables hdb
    refine ⟨hnone, ?_, encodeResponse rows, ?_⟩
    · rw [hnext]
      simp only
      rw [htables, ← hbefore]
      have hguard' : guardNow = guardReading host := by rw [hguard, hclock]; rfl
      have hcreated' : created = createdReading a host := by
        rw [hcreated, hclock]
        unfold createdReading
        split <;> rfl
      rw [← hguard', ← hcreated']
      exact hadmits
    · have hreceiptsDb : s.receipts = db.receipts := by
        rw [show s.receipts = v.receipts from congrArg Database.receipts htoDatabase, hreceipts]
        exact congrArg Database.receipts hdb
      rw [hnext]
      simp only
      rw [hreceiptsDb]
      rfl

/-- What a transition batch does to the tables: the upsert of the lifecycle row of a journal row. -/
def Transits (operation : OperationId) (newState : LifecycleState) (before after : JournalTables) : Prop :=
  ∃ journal updated, before.findJournal operation.text = some journal ∧
    after = { before with
      lifecycle := upsertLifecycleRow ⟨operation.text, journal.attempt, newState, updated, none⟩ before.lifecycle }

/-- A submitted transition ticket leaves the database, or commits the upsert when it had no receipt. -/
theorem submit_transition (store : SqliteStore) {store' : SqliteStore} {operation : OperationId} {newState : LifecycleState}
    {ticket : PreparedMutation JournalTables} (hticket : IsTransitionTicket store' operation newState ticket)
    (host : Host) (db : Database JournalTables) :
    (submit store ticket host db).1 = db ∨
      (findReceipt db.receipts ticket.operation.text = none ∧
        Transits operation newState db.tables (submit store ticket host db).1.tables ∧
        ∃ response, (submit store ticket host db).1.receipts =
          db.receipts ++ [⟨ticket.operation.text, ticket.request, response⟩]) := by
  rcases submit_step store ticket host db with hsame | ⟨-, hnone, rows, happly, hvalid⟩
  · exact .inl hsame
  · right
    obtain ⟨s, hrun, hnext⟩ := Application.apply_eq_some.1 happly
    simp only [hticket.body_eq] at hrun
    obtain ⟨-, u, v, inner, hdb, hclock, hbody, htoDatabase, hrows⟩ := run_guardedBatch hrun
    obtain ⟨w, first, rest, hupsert, hnil, hinner⟩ := Script.run_cons_ok.1 hbody
    cases hnil
    obtain ⟨rfl, hreceipts, hcases⟩ := upsertLifecycle_exec hupsert
    simp only [Session.tick_tables, Session.tick_receipts, Session.tick_changes] at *
    have hbefore : u.tables = db.tables := congrArg Database.tables hdb
    have hafter : s.tables = w.tables := congrArg Database.tables htoDatabase
    refine ⟨hnone, ?_, encodeResponse rows, ?_⟩
    · rcases hcases with ⟨-, -, hzero⟩ | ⟨journal, updated, hjournal, htables⟩
      · -- no journal row: `changes()` is 0 and the insert shape refuses the rows
        rw [hrows, hinner, hticket.shape_eq, hzero] at hvalid
        obtain ⟨cell, n, hcells, -⟩ := validateRows_insert.1 hvalid
        simp only [List.nil_append, List.cons.injEq] at hcells
        exact absurd hcells.2.1.1 (by decide)
      · rw [hnext]
        refine ⟨journal, updated, ?_, ?_⟩
        · rw [← hbefore]
          exact hjournal
        · simp only
          rw [hafter, htables, hbefore]
    · have hreceiptsDb : s.receipts = db.receipts := by
        rw [show s.receipts = w.receipts from congrArg Database.receipts htoDatabase, hreceipts]
        exact congrArg Database.receipts hdb
      rw [hnext]
      simp only
      rw [hreceiptsDb]
      rfl

end Verdant.Action
