import Verdant.Storage.Receipts

/-!
# Guarded batches

A guard is a temporary table whose only row must pass `CHECK(ok=1)`: inserting a row for a false condition fails the
batch before any durable statement runs.  `prepareGuardedBatch` wraps a body in such a guard and ends it with the two
counters an insert answers with.
-/

namespace Verdant.Storage

variable {ρ : Type}

def createGuard (table constraint : String) : Statement ρ where
  text := s!"CREATE TEMP TABLE {table}(ok INTEGER NOT NULL CONSTRAINT {constraint} CHECK(ok=1));"
  exec s := .ok (s, [])

def insertGuard (table constraint condition : String) (holds : Session ρ → Bool) : Statement ρ where
  text := s!"INSERT INTO {table} VALUES(CASE WHEN {condition} THEN 1 ELSE 0 END);"
  exec s :=
    if holds s then .ok ({ s with lastInsertRowid := 1, changes := 1 }, [])
    else .error ("CHECK constraint failed: " ++ constraint)

theorem createGuard_exec {table constraint : String} {s t : Session ρ} {rows : Rows}
    (h : (createGuard table constraint).exec s = .ok (t, rows)) : t = s ∧ rows = [] := by
  cases h
  exact ⟨rfl, rfl⟩

theorem insertGuard_exec {table constraint condition : String} {holds : Session ρ → Bool} {s t : Session ρ}
    {rows : Rows} (h : (insertGuard table constraint condition holds).exec s = .ok (t, rows)) :
    holds s = true ∧ t = { s with lastInsertRowid := 1, changes := 1 } ∧ rows = [] := by
  simp only [insertGuard] at h
  split at h
  · rename_i hholds
    cases h
    exact ⟨hholds, rfl, rfl⟩
  · exact nomatch h

theorem createGuard_fails {p : String → Prop} (table constraint : String) (s : Session ρ) :
    Result.Fails p ((createGuard table constraint).exec s) := .ok

theorem insertGuard_fails {p : String → Prop} {constraint : String} (h : p ("CHECK constraint failed: " ++ constraint))
    (table condition : String) (holds : Session ρ → Bool) (s : Session ρ) :
    Result.Fails p ((insertGuard table constraint condition holds).exec s) := by
  simp only [insertGuard]
  split
  · exact .ok
  · exact .error h

/-- The guard table of a batch and its row. -/
def accessGuard (condition : String) (holds : Session ρ → Bool) : Script ρ :=
  [createGuard "access_guard" "access_guard_unchanged",
    insertGuard "access_guard" "access_guard_unchanged" s!"({condition})" holds]

def guardedBatch (condition : String) (holds : Session ρ → Bool) (body : Script ρ) : Script ρ :=
  accessGuard condition holds ++ body ++ [selectLastInsertRowid ρ, selectChanges ρ]

def prepareGuardedBatch (store : SqliteStore) (id : String) (condition : String) (holds : Session ρ → Bool)
    (body : Script ρ) (payloadBytes : Nat) : Except StorageError (PreparedMutation ρ) := do
  let pending ← PreparedMutation.new store id (guardedBatch condition holds body) .insert
  .ok { pending with payloadBytes := payloadBytes }

theorem prepareGuardedBatch_eq_ok {store : SqliteStore} {id condition : String} {holds : Session ρ → Bool}
    {body : Script ρ} {payloadBytes : Nat} {pending : PreparedMutation ρ}
    (h : prepareGuardedBatch store id condition holds body payloadBytes = .ok pending) :
    pending.operation.text = id ∧
      pending = ⟨pending.operation, store.identity, guardedBatch condition holds body, .insert, payloadBytes, false⟩ := by
  unfold prepareGuardedBatch at h
  rw [Result.bind_eq_ok] at h
  obtain ⟨p, hnew, hpending⟩ := h
  obtain ⟨htext, hp⟩ := PreparedMutation.new_eq_ok hnew
  cases hpending
  refine ⟨htext, ?_⟩
  rw [hp]

/-- What a guarded batch that ran through did: its condition held and its body ran on the same database. -/
theorem run_guardedBatch {condition : String} {holds : Session ρ → Bool} {body : Script ρ} {s t : Session ρ}
    {rows : Rows} (h : (guardedBatch condition holds body).run s = .ok (t, rows)) :
    holds s.tick = true ∧
      ∃ u v inner, u.toDatabase = s.toDatabase ∧ u.clock = (fun n => s.clock (n + 2)) ∧
        body.run u = .ok (v, inner) ∧ t.toDatabase = v.toDatabase ∧
        rows = inner ++ [[Nat.repr v.lastInsertRowid], [Nat.repr v.changes]] := by
  unfold guardedBatch accessGuard at h
  rw [Script.run_append_ok] at h
  obtain ⟨v, inner, last, hbody, hlast, rfl⟩ := h
  rw [List.cons_append, List.cons_append, List.nil_append] at hbody
  obtain ⟨a, first, rest, hcreate, htail, rfl⟩ := Script.run_cons_ok.1 hbody
  obtain ⟨rfl, rfl⟩ := createGuard_exec hcreate
  obtain ⟨b, second, more, hinsert, hrun, rfl⟩ := Script.run_cons_ok.1 htail
  obtain ⟨hholds, rfl, rfl⟩ := insertGuard_exec hinsert
  refine ⟨hholds, _, v, more, ?_, ?_, hrun, ?_⟩
  · rfl
  · rfl
  obtain ⟨c, firstCounter, secondCounter, hrowid, hchanges, rfl⟩ := Script.run_cons_ok.1 hlast
  cases hrowid
  obtain ⟨d, out, nothing, hcount, hnil, rfl⟩ := Script.run_cons_ok.1 hchanges
  cases hcount
  cases hnil
  exact ⟨rfl, rfl⟩

/-! ### Quiet submits -/

/-- A guarded batch whose condition holds and whose body runs, runs through. -/
theorem run_guardedBatch_of {condition : String} {holds : Session ρ → Bool} {body : Script ρ} {s v : Session ρ}
    {inner : Rows} (hholds : holds s.tick = true)
    (hbody : body.run { s with lastInsertRowid := 1, changes := 1, clock := fun n => s.clock (n + 2) } =
      .ok (v, inner)) :
    (guardedBatch condition holds body).run s =
      .ok (v.tick.tick, inner ++ [[Nat.repr v.lastInsertRowid], [Nat.repr v.changes]]) := by
  unfold guardedBatch accessGuard
  rw [Script.run_append_ok]
  refine ⟨v, inner, [[Nat.repr v.lastInsertRowid], [Nat.repr v.changes]], ?_, rfl, rfl⟩
  rw [List.cons_append, List.cons_append, List.nil_append, Script.run_cons_ok]
  refine ⟨s, [], inner, rfl, ?_, rfl⟩
  rw [Script.run_cons_ok]
  refine ⟨{ s.tick with lastInsertRowid := 1, changes := 1 }, [], inner, ?_, hbody, rfl⟩
  simp only [insertGuard]
  rw [if_pos hholds]

/-- Nothing fails on the host, whose disk is empty. -/
structure Host.Quiet (host : Host) : Prop where
  admission : host.admission = none
  lookup : host.lookup = none
  disk : host.disk = ⟨0, 0, 0⟩
  body : host.body = none
  record : host.record = none
  commit : host.commit = .reply

theorem insertReceipt_run {receipt : ReceiptRow} {s : Session ρ} (h : findReceipt s.receipts receipt.operation = none) :
    Script.run [insertReceipt receipt] s =
      .ok (({ s with receipts := s.receipts ++ [receipt], changes := 1 } : Session ρ).tick, []) := by
  rw [Script.run_cons_ok]
  refine ⟨{ s with receipts := s.receipts ++ [receipt], changes := 1 }, [], [], ?_, rfl, rfl⟩
  have hsome : ¬(findReceipt s.receipts receipt.operation).isSome = true := by simp [h]
  exact if_neg hsome

/-- A fresh insert that the store has room for commits on a host where nothing fails. -/
theorem submit_quiet (store : SqliteStore) (pending : PreparedMutation ρ) {host : Host} (hhost : host.Quiet)
    {db : Database ρ} {s : Session ρ} {rows : Rows} (hstore : pending.store = store.identity)
    (hshape : pending.shape = .insert) (hfresh : findReceipt db.receipts pending.operation.text = none)
    (hvalue : pending.payloadBytes ≤ store.bounds.maxValueBytes)
    (hspace : saturatingAdd 0 pending.payloadBytes ≤ store.bounds.maxDbBytes)
    (hrun : pending.body.run (db.begin host.clock) = .ok (s, rows)) (hreceipts : s.receipts = db.receipts)
    (hrows : validateRows .insert rows = .ok ()) :
    submit store pending host db =
      (⟨s.tables, s.receipts ++ [⟨pending.operation.text, pending.request, encodeResponse rows⟩]⟩,
        .committed pending.operation rows) := by
  have hroom : store.maintenanceReason ⟨0, 0, 0⟩ = none := by
    have hcapacity : Disk.capacityBytes ⟨0, 0, 0⟩ = 0 := rfl
    unfold SqliteStore.maintenanceReason
    rw [if_neg (Nat.not_lt_zero _), hcapacity, if_neg (Nat.not_lt_zero _)]
  have hadmission : insertAdmission store pending host = .ok () := by
    unfold insertAdmission
    rw [if_pos hshape, if_neg (Nat.not_lt.2 hvalue), hhost.disk, hroom]
    exact if_neg (Nat.not_lt.2 hspace)
  have hnew : findReceipt s.receipts pending.operation.text = none := by
    rw [hreceipts]
    exact hfresh
  have hrecord : Script.run
      [insertReceipt ⟨pending.operation.text, pending.request, encodeResponse rows⟩] s = _ :=
    insertReceipt_run hnew
  have hstage : stage store pending host db =
      .ok (⟨s.tables, s.receipts ++ [⟨pending.operation.text, pending.request, encodeResponse rows⟩]⟩, rows) := by
    unfold stage exchange
    rw [hadmission, Result.ok_bind, hhost.body, hrun, hhost.record]
    simp only [Result.ok_bind, hshape, hrows, hrecord]
    rfl
  have hlookup : lookupReceipt host.lookup db pending.operation = .ok none := by
    unfold lookupReceipt
    rw [hhost.lookup, hfresh]
  have houtcome : outcome pending.shape pending.operation rows = .committed pending.operation rows := by
    unfold outcome
    rw [if_neg]
    rw [hshape]
    rintro ⟨hbad, -⟩
    exact nomatch hbad
  unfold submit
  rw [if_neg (not_not.2 hstore), hhost.admission, hlookup, hstage]
  unfold settle
  rw [hhost.commit]
  exact congrArg (Prod.mk _) houtcome

end Verdant.Storage
