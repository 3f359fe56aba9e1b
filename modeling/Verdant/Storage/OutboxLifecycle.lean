import Verdant.Library.Pointwise
import Verdant.Storage.Outbox

/-!
# The claim lifecycle of outbox rows

The abstract picture of a row is a small machine: queued, then claimed by a token, then acknowledged or queued again
(`RowMove`).  Every call of every claimant moves each row by it, and only `insert` adds a row, behind the others
(`perform_cases`).  What the lifecycle promises then follows row by row, over every interleaving of the calls.
-/

namespace Verdant.Storage

/-! ### Runs -/

inductive OutboxCall where
  | insert (disk : Disk) (entry : OutboxEntry)
  | claimQueued (limit : Nat) (claimedBy : String)
  | acknowledge (row : Int) (expectedToken : String)
  | requeueClaim (row : Int) (expectedToken : String)

/-- One call through one handle; the host decides what fails. -/
structure OutboxEvent where
  store : SqliteStore
  host : Host
  call : OutboxCall

inductive OutboxAnswer where
  | inserted (result : Except StorageError Int)
  | claimed (result : Except StorageError (List OutboxRow))
  | changed (result : Except StorageError Unit)

def OutboxAnswer.error : OutboxAnswer → Option StorageError
  | .inserted (.error e) => some e
  | .claimed (.error e) => some e
  | .changed (.error e) => some e
  | _ => none

/-- The call under the fresh identity `id`. -/
def OutboxEvent.perform (e : OutboxEvent) (id : String) (db : Database OutboxTables) :
    Database OutboxTables × OutboxAnswer :=
  match e.call with
  | .insert disk entry =>
    let (db, result) := Storage.insert e.store id e.host db disk entry
    (db, .inserted result)
  | .claimQueued limit claimedBy =>
    let (db, result) := Storage.claimQueued e.store id e.host db limit claimedBy
    (db, .claimed result)
  | .acknowledge row token =>
    let (db, result) := Storage.acknowledge e.store id e.host db row token
    (db, .changed result)
  | .requeueClaim row token =>
    let (db, result) := Storage.requeueClaim e.store id e.host db row token
    (db, .changed result)

/-- The store with the number of identities drawn so far. -/
structure OutboxWorld where
  db : Database OutboxTables
  drawn : Nat

def OutboxWorld.step (ids : AutoIds) (w : OutboxWorld) (e : OutboxEvent) : OutboxWorld where
  db := (e.perform (ids.text w.drawn) w.db).1
  drawn := w.drawn + 1

def OutboxWorld.answer (ids : AutoIds) (w : OutboxWorld) (e : OutboxEvent) : OutboxAnswer :=
  (e.perform (ids.text w.drawn) w.db).2

def OutboxWorld.runFrom (ids : AutoIds) (w : OutboxWorld) (events : List OutboxEvent) : OutboxWorld :=
  events.foldl (OutboxWorld.step ids) w

/-- A run from an empty store. -/
def OutboxWorld.run (ids : AutoIds) (events : List OutboxEvent) : OutboxWorld :=
  OutboxWorld.runFrom ids ⟨⟨.empty, []⟩, 0⟩ events

/-! ### The machine of one row -/

/-- What a call may do to a row that is already there. -/
inductive RowMove : OutboxCall → OutboxRecord → OutboxRecord → Prop where
  | same (call : OutboxCall) (r : OutboxRecord) : RowMove call r r
  | claim (limit : Nat) (token : String) (r : OutboxRecord) (h : r.status = .queued) :
    RowMove (.claimQueued limit token) r (r.claim token)
  | ack (row : Int) (token : String) (r : OutboxRecord) (h : r.ownedBy row token = true) :
    RowMove (.acknowledge row token) r r.ack
  | requeue (row : Int) (token : String) (r : OutboxRecord) (h : r.ownedBy row token = true) :
    RowMove (.requeueClaim row token) r r.requeue

/-- The row without its claim state. -/
def OutboxRecord.content (r : OutboxRecord) : OutboxRecord := { r with status := .queued, claimedBy := none }

/-- Only a queued row is without an owner. -/
def OutboxRecord.OwnerOk (r : OutboxRecord) : Prop := r.claimedBy = none ↔ r.status = .queued

theorem OutboxRecord.ownedBy_iff {id : Int} {token : String} {r : OutboxRecord} :
    r.ownedBy id token = true ↔ (r.id : Int) = id ∧ r.status = .claimed ∧ r.claimedBy = some token := by
  simp [OutboxRecord.ownedBy]

section RowMove

variable {call : OutboxCall} {r r' : OutboxRecord}

theorem RowMove.content_eq (h : RowMove call r r') : r'.content = r.content := by
  cases h <;> rfl

theorem RowMove.id_eq (h : RowMove call r r') : r'.id = r.id := by
  cases h <;> rfl

theorem RowMove.ownerOk (h : RowMove call r r') (hr : r.OwnerOk) : r'.OwnerOk := by
  cases h with
  | same => exact hr
  | claim => simp [OutboxRecord.OwnerOk, OutboxRecord.claim]
  | ack row token _ hown => simp [OutboxRecord.OwnerOk, OutboxRecord.ack, (OutboxRecord.ownedBy_iff.1 hown).2.2]
  | requeue => simp [OutboxRecord.OwnerOk, OutboxRecord.requeue]

/-- A row leaves `claimed` only through `acknowledge` or `requeue_claim` under its owner's token. -/
theorem RowMove.of_claimed (h : RowMove call r r') (hr : r.status = .claimed) (hne : r' ≠ r) :
    ∃ token, r.claimedBy = some token ∧
      (call = .acknowledge r.id token ∨ call = .requeueClaim r.id token) := by
  cases h with
  | same => exact absurd rfl hne
  | claim limit token _ hq => rw [hr] at hq; exact nomatch hq
  | ack row token _ hown =>
    obtain ⟨hid, -, howner⟩ := OutboxRecord.ownedBy_iff.1 hown
    exact ⟨token, howner, .inl (by rw [hid])⟩
  | requeue row token _ hown =>
    obtain ⟨hid, -, howner⟩ := OutboxRecord.ownedBy_iff.1 hown
    exact ⟨token, howner, .inr (by rw [hid])⟩

theorem RowMove.of_acked (h : RowMove call r r') (hr : r.status = .acked) : r' = r := by
  cases h with
  | same => rfl
  | claim limit token _ hq => rw [hr] at hq; exact nomatch hq
  | ack row token _ hown => rw [(OutboxRecord.ownedBy_iff.1 hown).2.1] at hr; exact nomatch hr
  | requeue row token _ hown => rw [(OutboxRecord.ownedBy_iff.1 hown).2.1] at hr; exact nomatch hr

/-- A row becomes queued again only through `requeue_claim` under its owner's token. -/
theorem RowMove.to_queued (h : RowMove call r r') (hr : r.status ≠ .queued) (hr' : r'.status = .queued) :
    ∃ token, call = .requeueClaim r.id token ∧ r.claimedBy = some token := by
  cases h with
  | same => exact absurd hr' hr
  | claim limit token _ hq => exact absurd hq hr
  | ack => exact nomatch hr'
  | requeue row token _ hown =>
    obtain ⟨hid, -, howner⟩ := OutboxRecord.ownedBy_iff.1 hown
    exact ⟨token, by rw [hid], howner⟩

end RowMove

/-! ### What each statement does to the rows -/

/-- The tables after a call: every row moved by the call, and perhaps one new row behind them. -/
structure Moved (call : OutboxCall) (before after : OutboxTables) : Prop where
  rows : ∃ moved new, after.outbox = moved ++ new ∧ List.Forall₂ (RowMove call) before.outbox moved ∧
    ((new = [] ∧ after.lastId = before.lastId) ∨
      ∃ disk entry, call = .insert disk entry ∧ new = [entry.toRecord (before.lastId + 1)] ∧
        after.lastId = before.lastId + 1)

theorem Moved.refl (call : OutboxCall) (tables : OutboxTables) : Moved call tables tables :=
  ⟨tables.outbox, [], by simp, List.forall₂_same.2 fun r _ => .same call r, .inl ⟨rfl, rfl⟩⟩

private theorem insertOutbox_exec {entry : OutboxEntry} {s t : Session OutboxTables} {rows : Rows}
    (h : (insertOutbox entry).exec s = .ok (t, rows)) :
    rows = [] ∧ t.receipts = s.receipts ∧ t.lastInsertRowid = s.tables.lastId + 1 ∧
      t.tables.outbox = s.tables.outbox ++ [entry.toRecord (s.tables.lastId + 1)] ∧
      t.tables.lastId = s.tables.lastId + 1 := by
  obtain ⟨e, he, rfl, rfl⟩ := Statement.onTables_eq_ok h
  dsimp only at he
  split at he
  · cases he
    exact ⟨rfl, rfl, rfl, rfl, rfl⟩
  · exact nomatch he

private theorem markDirty_exec {entity : String} {s t : Session OutboxTables} {rows : Rows}
    (h : (markDirty entity).exec s = .ok (t, rows)) :
    rows = [] ∧ t.receipts = s.receipts ∧ t.changes = 1 ∧ t.tables.outbox = s.tables.outbox ∧
      t.tables.lastId = s.tables.lastId := by
  obtain ⟨e, he, rfl, rfl⟩ := Statement.onTables_eq_ok h
  split at he <;> cases he <;> exact ⟨rfl, rfl, rfl, rfl, rfl⟩

private theorem run_selectChanges {s t : Session OutboxTables} {rows : Rows}
    (h : Script.run [selectChanges _] s = .ok (t, rows)) :
    t.tables = s.tables ∧ t.receipts = s.receipts ∧ rows = [[Nat.repr s.changes]] := by
  obtain ⟨u, first, more, hfirst, hmore, hrows⟩ := Script.run_cons_ok.1 h
  cases hfirst
  cases hmore
  exact ⟨rfl, rfl, by simpa using hrows⟩

private theorem run_insert {entry : OutboxEntry} {s t : Session OutboxTables} {rows : Rows}
    (h : Script.run [insertOutbox entry, selectLastInsertRowid _, markDirty entry.entity.text, selectChanges _] s =
      .ok (t, rows)) :
    t.receipts = s.receipts ∧ t.tables.outbox = s.tables.outbox ++ [entry.toRecord (s.tables.lastId + 1)] ∧
      t.tables.lastId = s.tables.lastId + 1 ∧ rows = [[Nat.repr (s.tables.lastId + 1)], ["1"]] := by
  obtain ⟨u, none₁, rows₁, hinsert, h₁, rfl⟩ := Script.run_cons_ok.1 h
  obtain ⟨rfl, hreceipts, hrowid, hadded, hlast⟩ := insertOutbox_exec hinsert
  obtain ⟨v, rowid, rows₂, hselect, h₂, rfl⟩ := Script.run_cons_ok.1 h₁
  cases hselect
  obtain ⟨w, none₂, rows₃, hmark, h₃, rfl⟩ := Script.run_cons_ok.1 h₂
  obtain ⟨rfl, hreceipts', hchanges, hkept, hlast'⟩ := markDirty_exec hmark
  obtain ⟨htables, hreceipts'', rfl⟩ := run_selectChanges h₃
  refine ⟨hreceipts''.trans (hreceipts'.trans hreceipts), ?_, ?_, ?_⟩
  · rw [htables]
    exact hkept.trans hadded
  · rw [htables]
    exact hlast'.trans hlast
  · simp [hrowid, hchanges, show Nat.repr 1 = "1" from rfl]

private theorem run_claim {token : String} {limit : Nat} {s t : Session OutboxTables} {rows : Rows}
    (h : Script.run [claimUpdate token limit] s = .ok (t, rows)) :
    t.receipts = s.receipts ∧ t.tables.outbox = (claimRecords token limit s.tables.outbox).1 ∧
      t.tables.lastId = s.tables.lastId ∧
      rows = (claimRecords token limit s.tables.outbox).2.map OutboxRecord.columns := by
  obtain ⟨u, first, more, hclaim, hmore, rfl⟩ := Script.run_cons_ok.1 h
  obtain ⟨e, he, rfl, rfl⟩ := Statement.onTables_eq_ok hclaim
  cases he
  cases hmore
  exact ⟨rfl, rfl, rfl, by simp⟩

private theorem run_updateOwned {set : String} {id : Int} {token : String} {f : OutboxRecord → OutboxRecord}
    {s t : Session OutboxTables} {rows : Rows}
    (h : Script.run [updateOwned set id token f, selectChanges _] s = .ok (t, rows)) :
    t.receipts = s.receipts ∧
      t.tables.outbox = s.tables.outbox.map (fun r => if r.ownedBy id token then f r else r) ∧
      t.tables.lastId = s.tables.lastId ∧
      rows = [[Nat.repr (s.tables.outbox.filter (OutboxRecord.ownedBy id token)).length]] := by
  obtain ⟨u, first, more, hupdate, hmore, rfl⟩ := Script.run_cons_ok.1 h
  obtain ⟨e, he, rfl, rfl⟩ := Statement.onTables_eq_ok hupdate
  obtain ⟨htables, hreceipts, rfl⟩ := run_selectChanges hmore
  cases he
  exact ⟨hreceipts, by rw [htables]; rfl, by rw [htables]; rfl, rfl⟩

/-! ### The rows a claim takes -/

theorem claimRecords_moves (token : String) (limit claimLimit : Nat) (rows : List OutboxRecord) :
    List.Forall₂ (RowMove (.claimQueued claimLimit token)) rows (claimRecords token limit rows).1 := by
  induction rows generalizing limit with
  | nil => exact .nil
  | cons r rows ih =>
    unfold claimRecords
    split
    · rename_i hq
      exact .cons (.claim claimLimit token r hq.1) (ih _)
    · exact .cons (.same _ r) (ih _)

/-- Every claimed row was queued and is now among the rows under the claim's token. -/
theorem mem_claimRecords {token : String} {limit : Nat} {rows : List OutboxRecord} {r' : OutboxRecord}
    (h : r' ∈ (claimRecords token limit rows).2) :
    ∃ r ∈ rows, r.status = .queued ∧ r' = r.claim token ∧ r' ∈ (claimRecords token limit rows).1 := by
  induction rows generalizing limit with
  | nil => exact nomatch h
  | cons r rows ih =>
    unfold claimRecords at h ⊢
    split at h
    · rename_i hq
      rw [if_pos hq]
      rcases List.mem_cons.1 h with rfl | h
      · exact ⟨r, List.mem_cons_self, hq.1, rfl, List.mem_cons_self⟩
      · obtain ⟨r₀, hr₀, hqueued, heq, hmem⟩ := ih h
        exact ⟨r₀, List.mem_cons_of_mem _ hr₀, hqueued, heq, List.mem_cons_of_mem _ hmem⟩
    · rename_i hq
      rw [if_neg hq]
      obtain ⟨r₀, hr₀, hqueued, heq, hmem⟩ := ih h
      exact ⟨r₀, List.mem_cons_of_mem _ hr₀, hqueued, heq, List.mem_cons_of_mem _ hmem⟩

/-- A decoded claim row carries the id of the record it was read from. -/
theorem id_of_decoded_columns {r : OutboxRecord} {row : OutboxRow} (h : decodeRow r.columns = .ok row) :
    row.id = (r.id : Int) := by
  have hid : parseI64 (Nat.repr r.id) = some row.id := id_of_decodeRow h
  simp only [parseI64, TextCodec.parseInt_repr, Option.filter_eq_some_iff, Option.some.injEq] at hid
  exact hid.1.symm

/-! ### The calls -/

/-- Everything a call does: to the receipts, to the rows, and what its answer says about the rows. -/
structure Performed (call : OutboxCall) (id : String) (before after : Database OutboxTables)
    (answer : OutboxAnswer) : Prop where
  receipts : ∀ r ∈ after.receipts, r ∈ before.receipts ∨ r.operation = id
  moved : Moved call before.tables after.tables
  unchanged : ∀ e, answer.error = some e → ¬ e.IsUnknownOutcome → after.tables.outbox = before.tables.outbox
  inserted : ∀ n, answer = .inserted (.ok n) → ∃ disk entry, call = .insert disk entry ∧
    n = (before.tables.lastId + 1 : Nat) ∧
    after.tables.outbox = before.tables.outbox ++ [entry.toRecord (before.tables.lastId + 1)]
  claimed : ∀ rows, answer = .claimed (.ok rows) → ∃ limit token, call = .claimQueued limit token ∧
    ∀ row ∈ rows, ∃ r ∈ before.tables.outbox, r.status = .queued ∧ (r.id : Int) = row.id ∧
      r.claim token ∈ after.tables.outbox

/-- A call that reports an error and touched nothing. -/
private theorem performed_untouched (call : OutboxCall) (id : String) (db : Database OutboxTables)
    {answer : OutboxAnswer} {e : StorageError} (h : answer.error = some e) : Performed call id db db answer where
  receipts _ hr := .inl hr
  moved := .refl call _
  unchanged _ _ _ := rfl
  inserted := by
    rintro n rfl
    exact nomatch h
  claimed := by
    rintro rows rfl
    exact nomatch h

private theorem mem_receipts_append {receipts : List ReceiptRow} {id request response : String} {r : ReceiptRow}
    (h : r ∈ receipts ++ [⟨id, request, response⟩]) : r ∈ receipts ∨ r.operation = id := by
  rcases List.mem_append.1 h with h | h
  · exact .inl h
  · rw [List.mem_singleton] at h
    exact .inr (by rw [h])

private theorem prepareInsert_eq_ok {store : SqliteStore} {id : String} {disk : Disk} {entry : OutboxEntry}
    {pending : PreparedMutation OutboxTables} (h : prepareInsert store id disk entry = .ok pending) :
    pending.operation.text = id ∧ pending.store = store.identity ∧ pending.shape = .insert ∧
      pending.body =
        [insertOutbox entry, selectLastInsertRowid _, markDirty entry.entity.text, selectChanges _] := by
  unfold prepareInsert at h
  dsimp only at h
  split at h
  · exact nomatch h
  split at h
  · exact nomatch h
  split at h
  · exact nomatch h
  obtain ⟨-, -, h⟩ := Result.bind_eq_ok.1 h
  obtain ⟨fresh, hnew, h⟩ := Result.bind_eq_ok.1 h
  obtain ⟨hid, hfresh⟩ := PreparedMutation.new_eq_ok hnew
  cases h
  rw [hfresh]
  exact ⟨hid, rfl, rfl, rfl⟩

private theorem prepareClaim_eq_ok {store : SqliteStore} {id : String} {limit : Nat} {claimedBy : String}
    {pending : PreparedMutation OutboxTables} (h : prepareClaim store id limit claimedBy = .ok pending) :
    pending.operation.text = id ∧ pending.store = store.identity ∧ pending.shape = .rows ∧
      ∃ effective, pending.body = [claimUpdate claimedBy effective] := by
  unfold prepareClaim at h
  split at h
  · exact nomatch h
  obtain ⟨token, htoken, h⟩ := Result.bind_eq_ok.1 h
  obtain ⟨hid, hfresh⟩ := PreparedMutation.new_eq_ok h
  rw [hfresh, validateToken_eq_ok htoken]
  exact ⟨hid, rfl, rfl, _, rfl⟩

private theorem parseI64_of_validInsert {cell : String} {rest : List String} {n : Nat}
    (hcell : cell = Nat.repr n) (h : validateRows .insert [[cell], rest] = .ok ()) :
    parseI64 cell = some (n : Int) := by
  obtain ⟨cell', k, hrows, hparse, -⟩ := validateRows_insert.1 h
  simp only [List.cons.injEq, and_true] at hrows
  rw [← hrows.1] at hparse
  have hk := hparse
  rw [hcell] at hk
  simp only [parseI64, TextCodec.parseInt_repr, Option.filter_eq_some_iff, Option.some.injEq] at hk
  rw [hparse, hk.1]

private theorem insert_performed (store : SqliteStore) (id : String) (host : Host) (db : Database OutboxTables)
    (disk : Disk) (entry : OutboxEntry) (hfresh : findReceipt db.receipts id = none) :
    Performed (.insert disk entry) id db (Storage.insert store id host db disk entry).1
      (.inserted (Storage.insert store id host db disk entry).2) := by
  unfold Storage.insert
  cases hprepare : prepareInsert store id disk entry with
  | error e => exact performed_untouched _ id db rfl
  | ok pending =>
    obtain ⟨hid, hstore, hshape, hbody⟩ := prepareInsert_eq_ok hprepare
    have hsubmit := submit_fresh host hstore (by rw [hid]; exact hfresh)
    dsimp only
    generalize (submit store pending host db).1 = next at hsubmit ⊢
    generalize (submit store pending host db).2 = out at hsubmit ⊢
    cases hsubmit with
    | untouched _ e he =>
      apply performed_untouched _ id db (e := e)
      rw [he]
      rfl
    | applied s rows hrun hrows _ hout =>
      rw [hbody] at hrun
      obtain ⟨hreceipts, houtbox, hlast, rfl⟩ := run_insert hrun
      simp only [Database.begin_tables, Database.begin_receipts] at hreceipts houtbox hlast hrows hout
      rw [hshape] at hrows
      have hparse := parseI64_of_validInsert rfl hrows
      have hmoved : Moved (.insert disk entry) db.tables s.tables :=
        ⟨db.tables.outbox, _, houtbox, List.forall₂_same.2 fun r _ => .same _ r,
          .inr ⟨disk, entry, rfl, rfl, hlast⟩⟩
      refine ⟨fun r hr => ?_, hmoved, ?_, ?_, fun rows h => nomatch h⟩
      · rw [hreceipts, hid] at hr
        exact mem_receipts_append hr
      · intro e he hknown
        rcases hout with rfl | ⟨detail, rfl⟩
        · simp [outcome, hshape, MutationOutcome.intoResult, scalar, hparse, OutboxAnswer.error] at he
        · cases he
          exact absurd ⟨_, _, rfl⟩ hknown
      · intro n hn
        refine ⟨disk, entry, rfl, ?_, houtbox⟩
        rcases hout with rfl | ⟨detail, rfl⟩
        · simpa [outcome, hshape, MutationOutcome.intoResult, scalar, hparse] using hn.symm
        · simp [MutationOutcome.intoResult] at hn

private theorem claim_performed (store : SqliteStore) (id : String) (host : Host) (db : Database OutboxTables)
    (limit : Nat) (claimedBy : String) (hfresh : findReceipt db.receipts id = none) :
    Performed (.claimQueued limit claimedBy) id db (Storage.claimQueued store id host db limit claimedBy).1
      (.claimed (Storage.claimQueued store id host db limit claimedBy).2) := by
  unfold Storage.claimQueued
  cases hprepare : prepareClaim store id limit claimedBy with
  | error e => exact performed_untouched _ id db rfl
  | ok pending =>
    obtain ⟨hid, hstore, hshape, effective, hbody⟩ := prepareClaim_eq_ok hprepare
    have hsubmit := submit_fresh host hstore (by rw [hid]; exact hfresh)
    dsimp only
    generalize (submit store pending host db).1 = next at hsubmit ⊢
    generalize (submit store pending host db).2 = out at hsubmit ⊢
    cases hsubmit with
    | untouched _ e he =>
      apply performed_untouched _ id db (e := e)
      rw [he]
      rfl
    | applied s rows hrun hrows _ hout =>
      rw [hbody] at hrun
      obtain ⟨hreceipts, houtbox, hlast, rfl⟩ := run_claim hrun
      simp only [Database.begin_tables, Database.begin_receipts] at hreceipts houtbox hlast hrows hout
      rw [hshape] at hrows
      have hmoved : Moved (.claimQueued limit claimedBy) db.tables s.tables :=
        ⟨_, [], by rw [houtbox, List.append_nil], claimRecords_moves claimedBy effective limit _, .inl ⟨rfl, hlast⟩⟩
      obtain ⟨decoded, hdecoded⟩ := Result.exists_mapM_ok (validateRows_rows.1 hrows)
      refine ⟨fun r hr => ?_, hmoved, ?_, fun n h => (nomatch h), ?_⟩
      · rw [hreceipts, hid] at hr
        exact mem_receipts_append hr
      · intro e he hknown
        rcases hout with rfl | ⟨detail, rfl⟩
        · simp [outcome, hshape, MutationOutcome.intoResult, hdecoded, OutboxAnswer.error] at he
        · cases he
          exact absurd ⟨_, _, rfl⟩ hknown
      · intro rows hresult
        refine ⟨limit, claimedBy, rfl, fun row hrow => ?_⟩
        rcases hout with rfl | ⟨detail, rfl⟩
        swap
        · simp [MutationOutcome.intoResult] at hresult
        simp only [outcome, hshape, MutationOutcome.intoResult, hdecoded, reduceCtorEq, false_and, if_false,
          Result.ok_bind, OutboxAnswer.claimed.injEq, Except.ok.injEq] at hresult
        subst hresult
        -- Each decoded row is read from the columns of one claimed record.
        obtain ⟨columns, hcolumns, hdecode⟩ := Pointwise.exists_left (Result.mapM_eq_ok.1 hdecoded) hrow
        obtain ⟨claimed, hclaimed, rfl⟩ := List.mem_map.1 hcolumns
        obtain ⟨r, hr, hqueued, rfl, hmem⟩ := mem_claimRecords hclaimed
        exact ⟨r, hr, hqueued, (id_of_decoded_columns hdecode).symm, by rw [houtbox]; exact hmem⟩

private theorem filter_length_of_valid {rows : List OutboxRecord} {p : OutboxRecord → Bool}
    (h : validateRows .change [[Nat.repr (rows.filter p).length]] = .ok ()) :
    (rows.filter p = [] ∧ Nat.repr (rows.filter p).length = "0") ∨ Nat.repr (rows.filter p).length = "1" := by
  rcases validateRows_change.1 h with h | h
  · simp only [List.cons.injEq, and_true] at h
    refine .inl ⟨?_, h⟩
    rw [← List.length_eq_zero_iff]
    exact TextCodec.repr_injective h
  · simp only [List.cons.injEq, and_true] at h
    exact .inr h

/-- The two calls that change the row a token owns. -/
private theorem changeOwned_performed (store : SqliteStore) (id : String) (host : Host)
    (db : Database OutboxTables) (set what : String) (f : OutboxRecord → OutboxRecord) (row : Int) (token : String)
    (call : OutboxCall) (hmove : ∀ r : OutboxRecord, r.ownedBy row token = true → RowMove call r (f r))
    (hfresh : findReceipt db.receipts id = none) :
    Performed call id db (changeOwned store id host db set what f row token).1
      (.changed (changeOwned store id host db set what f row token).2) := by
  unfold changeOwned
  cases htoken : validateToken token with
  | error e => exact performed_untouched call id db rfl
  | ok token' =>
    cases validateToken_eq_ok htoken
    unfold execChanges
    dsimp only
    cases hnew : PreparedMutation.new store id [updateOwned set row token f, selectChanges _] .change with
    | error e => exact performed_untouched call id db rfl
    | ok pending =>
      obtain ⟨hid, hpending⟩ := PreparedMutation.new_eq_ok hnew
      have hstore : pending.store = store.identity := by rw [hpending]
      have hshape : pending.shape = .change := by rw [hpending]
      have hsubmit := submit_fresh host hstore (by rw [hid]; exact hfresh)
      dsimp only
      generalize (submit store pending host db).1 = next at hsubmit ⊢
      generalize (submit store pending host db).2 = out at hsubmit ⊢
      cases hsubmit with
      | untouched _ e he =>
        apply performed_untouched call id db (e := e)
        rw [he]
        rfl
      | applied s rows hrun hrows _ hout =>
        rw [PreparedMutation.new_body hnew] at hrun
        obtain ⟨hreceipts, houtbox, hlast, rfl⟩ := run_updateOwned hrun
        simp only [Database.begin_tables, Database.begin_receipts] at hreceipts houtbox hlast hrows hout
        rw [hshape] at hrows
        have hmoved : Moved call db.tables s.tables := by
          refine ⟨_, [], by rw [houtbox, List.append_nil], Pointwise.forall₂_map_of fun r _ => ?_, .inl ⟨rfl, hlast⟩⟩
          split
          · rename_i hown
            exact hmove r hown
          · exact .same call r
        refine ⟨fun r hr => ?_, hmoved, ?_, fun n h => (nomatch h), fun rows h => (nomatch h)⟩
        · rw [hreceipts, hid] at hr
          exact mem_receipts_append hr
        · intro e he hknown
          rcases hout with rfl | ⟨detail, rfl⟩
          swap
          · cases he
            exact absurd ⟨_, _, rfl⟩ hknown
          rcases filter_length_of_valid hrows with ⟨hnone, -⟩ | hone
          · -- No row is owned by the token, so the update leaves them all.
            have hkeep : ∀ r ∈ db.tables.outbox, (if r.ownedBy row token then f r else r) = r := by
              intro r hr
              rw [List.filter_eq_nil_iff] at hnone
              exact if_neg (hnone r hr)
            rw [houtbox, List.map_congr_left hkeep, List.map_id']
          · have hone' : parseI64 "1" = some 1 := by decide
            simp [outcome, hshape, hone, hone', MutationOutcome.intoResult, OutboxAnswer.error] at he

theorem OutboxEvent.perform_performed (e : OutboxEvent) (id : String) (db : Database OutboxTables)
    (hfresh : findReceipt db.receipts id = none) :
    Performed e.call id db (e.perform id db).1 (e.perform id db).2 := by
  obtain ⟨store, host, call⟩ := e
  cases call with
  | insert disk entry => exact insert_performed store id host db disk entry hfresh
  | claimQueued limit claimedBy => exact claim_performed store id host db limit claimedBy hfresh
  | acknowledge row token =>
    exact changeOwned_performed store id host db _ _ _ row token (.acknowledge row token)
      (fun r h => .ack row token r h) hfresh
  | requeueClaim row token =>
    exact changeOwned_performed store id host db _ _ _ row token (.requeueClaim row token)
      (fun r h => .requeue row token r h) hfresh

/-! ### The invariant of a run -/

structure OutboxInv (ids : AutoIds) (w : OutboxWorld) : Prop where
  increasing : (w.db.tables.outbox.map OutboxRecord.id).Pairwise (· < ·)
  bound : ∀ r ∈ w.db.tables.outbox, r.id ≤ w.db.tables.lastId
  owner : ∀ r ∈ w.db.tables.outbox, r.OwnerOk
  drawn : ∀ r ∈ w.db.receipts, ∃ k < w.drawn, r.operation = ids.text k

theorem OutboxInv.start (ids : AutoIds) : OutboxInv ids ⟨⟨.empty, []⟩, 0⟩ where
  increasing := List.Pairwise.nil
  bound _ hr := nomatch hr
  owner _ hr := nomatch hr
  drawn _ hr := nomatch hr

section Invariant

variable {ids : AutoIds} {w : OutboxWorld}

/-- The next identity has no receipt yet. -/
theorem OutboxInv.fresh (h : OutboxInv ids w) : findReceipt w.db.receipts (ids.text w.drawn) = none := by
  rw [findReceipt_none]
  intro r hr heq
  obtain ⟨k, hk, hop⟩ := h.drawn r hr
  have := ids.text_injective (hop.symm.trans heq)
  omega

theorem OutboxInv.eq_of_id (h : OutboxInv ids w) {r r' : OutboxRecord} (hr : r ∈ w.db.tables.outbox)
    (hr' : r' ∈ w.db.tables.outbox) (hid : r.id = r'.id) : r = r' := by
  have hnodup : (w.db.tables.outbox.map OutboxRecord.id).Nodup := h.increasing.imp (fun hlt => Nat.ne_of_lt hlt)
  exact List.inj_on_of_nodup_map hnodup hr hr' hid

theorem OutboxInv.performed (h : OutboxInv ids w) (e : OutboxEvent) :
    Performed e.call (ids.text w.drawn) w.db (w.step ids e).db (w.answer ids e) :=
  e.perform_performed _ _ h.fresh

theorem OutboxInv.step (h : OutboxInv ids w) (e : OutboxEvent) : OutboxInv ids (w.step ids e) := by
  have hperformed := h.performed e
  obtain ⟨moved, new, houtbox, hmoved, hnew⟩ := hperformed.moved.rows
  have hids : moved.map OutboxRecord.id = w.db.tables.outbox.map OutboxRecord.id :=
    Pointwise.map_eq hmoved fun _ _ hmove => hmove.id_eq
  have hbound : ∀ r ∈ moved, r.id ≤ w.db.tables.lastId := by
    intro r hr
    obtain ⟨r₀, hr₀, hmove⟩ := Pointwise.exists_left hmoved hr
    rw [hmove.id_eq]
    exact h.bound r₀ hr₀
  have howner : ∀ r ∈ moved, r.OwnerOk := by
    intro r hr
    obtain ⟨r₀, hr₀, hmove⟩ := Pointwise.exists_left hmoved hr
    exact hmove.ownerOk (h.owner r₀ hr₀)
  have hincreasing : (moved.map OutboxRecord.id).Pairwise (· < ·) := by
    rw [hids]
    exact h.increasing
  have hdrawn : ∀ r ∈ (w.step ids e).db.receipts, ∃ k < w.drawn + 1, r.operation = ids.text k := by
    intro r hr
    rcases hperformed.receipts r hr with hold | hop
    · obtain ⟨k, hk, hop⟩ := h.drawn r hold
      exact ⟨k, by omega, hop⟩
    · exact ⟨w.drawn, by omega, hop⟩
  rcases hnew with ⟨rfl, hlast⟩ | ⟨disk, entry, -, rfl, hlast⟩
  · rw [List.append_nil] at houtbox
    exact ⟨by rw [houtbox]; exact hincreasing, by rw [houtbox, hlast]; exact hbound,
      by rw [houtbox]; exact howner, hdrawn⟩
  · refine ⟨?_, ?_, ?_, hdrawn⟩
    · rw [houtbox, List.map_append, List.pairwise_append]
      refine ⟨hincreasing, List.pairwise_singleton _ _, ?_⟩
      intro a ha b hb
      obtain ⟨r, hr, rfl⟩ := List.mem_map.1 ha
      have hle := hbound r hr
      simp only [List.map_cons, List.map_nil, List.mem_singleton, OutboxEntry.toRecord] at hb
      omega
    · intro r hr
      rw [houtbox, List.mem_append, List.mem_singleton] at hr
      rcases hr with hr | rfl
      · have := hbound r hr
        omega
      · rw [hlast]
        exact Nat.le_refl _
    · intro r hr
      rw [houtbox, List.mem_append, List.mem_singleton] at hr
      rcases hr with hr | rfl
      · exact howner r hr
      · simp [OutboxRecord.OwnerOk, OutboxEntry.toRecord]

theorem OutboxInv.runFrom (h : OutboxInv ids w) (events : List OutboxEvent) :
    OutboxInv ids (w.runFrom ids events) := by
  induction events generalizing w with
  | nil => exact h
  | cons e events ih => exact ih (h.step e)

/-- The row stays, moved by the call. -/
theorem OutboxInv.row_step (h : OutboxInv ids w) (e : OutboxEvent) {r : OutboxRecord}
    (hr : r ∈ w.db.tables.outbox) : ∃ r' ∈ (w.step ids e).db.tables.outbox, RowMove e.call r r' := by
  obtain ⟨moved, new, houtbox, hmoved, -⟩ := (h.performed e).moved.rows
  obtain ⟨r', hr', hmove⟩ := Pointwise.exists_right hmoved hr
  exact ⟨r', by rw [houtbox]; exact List.mem_append_left _ hr', hmove⟩

/-- Between a moment at which a row is not queued and a later one at which it is, its owner's token requeued it. -/
theorem OutboxInv.requeued_between (h : OutboxInv ids w) (mid : List OutboxEvent) {r r' : OutboxRecord}
    (hr : r ∈ w.db.tables.outbox) (hstatus : r.status ≠ .queued)
    (hr' : r' ∈ (w.runFrom ids mid).db.tables.outbox) (hid : r'.id = r.id) (hqueued : r'.status = .queued) :
    ∃ before q after token, mid = before ++ q :: after ∧ q.call = .requeueClaim r.id token ∧
      ∃ owned ∈ (w.runFrom ids before).db.tables.outbox, owned.id = r.id ∧ owned.claimedBy = some token := by
  induction mid generalizing w r with
  | nil =>
    have : r' = r := h.eq_of_id hr' hr hid
    rw [this] at hqueued
    exact absurd hqueued hstatus
  | cons q mid ih =>
    obtain ⟨s, hs, hmove⟩ := h.row_step q hr
    by_cases hnow : s.status = .queued
    · obtain ⟨token, hcall, howner⟩ := hmove.to_queued hstatus hnow
      exact ⟨[], q, mid, token, rfl, hcall, r, hr, rfl, howner⟩
    · obtain ⟨before, q', after, token, rfl, hcall, hrest⟩ :=
        ih (h.step q) hs hnow hr' (hid.trans hmove.id_eq.symm)
      rw [hmove.id_eq] at hcall hrest
      exact ⟨q :: before, q', after, token, rfl, hcall, hrest⟩

end Invariant

/-! ### The lifecycle -/

/-- What one call may do, seen from the rows and from its answer. -/
structure OutboxStepLaw (before after : OutboxTables) (call : OutboxCall) (answer : OutboxAnswer) : Prop where
  /-- Every row stays in place with its content, and only an insert adds one. -/
  kept : ∃ new, after.outbox.map OutboxRecord.content = before.outbox.map OutboxRecord.content ++ new ∧
    (new = [] ∨ ∃ disk entry, call = .insert disk entry ∧ new = [entry.toRecord (before.lastId + 1)])
  inserted : ∀ n, answer = .inserted (.ok n) → ∃ disk entry, call = .insert disk entry ∧
    n = (before.lastId + 1 : Nat) ∧ after.outbox = before.outbox ++ [entry.toRecord (before.lastId + 1)]
  leaves : ∀ r ∈ before.outbox, r.status = .claimed → r ∉ after.outbox →
    ∃ token, r.claimedBy = some token ∧ (call = .acknowledge r.id token ∨ call = .requeueClaim r.id token)
  acked : ∀ r ∈ before.outbox, r.status = .acked → r ∈ after.outbox
  unchanged : ∀ e, answer.error = some e → ¬ e.IsUnknownOutcome → after.outbox = before.outbox

/-- A row two claims return was requeued by its owner's token between them. -/
def ClaimedOnce (ids : AutoIds) (events : List OutboxEvent) : Prop :=
  ∀ done e₁ mid e₂ rest rows₁ rows₂, events = done ++ e₁ :: (mid ++ e₂ :: rest) →
    (OutboxWorld.run ids done).answer ids e₁ = .claimed (.ok rows₁) →
    (OutboxWorld.run ids (done ++ e₁ :: mid)).answer ids e₂ = .claimed (.ok rows₂) →
    ∀ a ∈ rows₁, ∀ b ∈ rows₂, a.id = b.id →
      ∃ before q after token, mid = before ++ q :: after ∧ q.call = .requeueClaim a.id token ∧
        ∃ owned ∈ (OutboxWorld.run ids (done ++ e₁ :: before)).db.tables.outbox,
          (owned.id : Int) = a.id ∧ owned.claimedBy = some token

structure OutboxLifecycle (ids : AutoIds) (events : List OutboxEvent) : Prop where
  distinct : ((OutboxWorld.run ids events).db.tables.outbox.map OutboxRecord.id).Nodup
  owner : ∀ r ∈ (OutboxWorld.run ids events).db.tables.outbox, r.claimedBy = none ↔ r.status = .queued
  step : ∀ e : OutboxEvent, OutboxStepLaw (OutboxWorld.run ids events).db.tables
    ((OutboxWorld.run ids events).step ids e).db.tables e.call ((OutboxWorld.run ids events).answer ids e)
  once : ClaimedOnce ids events

theorem OutboxInv.stepLaw {ids : AutoIds} {w : OutboxWorld} (h : OutboxInv ids w) (e : OutboxEvent) :
    OutboxStepLaw w.db.tables (w.step ids e).db.tables e.call (w.answer ids e) where
  kept := by
    obtain ⟨moved, new, houtbox, hmoved, hnew⟩ := (h.performed e).moved.rows
    have hcontent : moved.map OutboxRecord.content = w.db.tables.outbox.map OutboxRecord.content :=
      Pointwise.map_eq hmoved fun _ _ hmove => hmove.content_eq
    refine ⟨new.map OutboxRecord.content, by rw [houtbox, List.map_append, hcontent], ?_⟩
    rcases hnew with ⟨rfl, -⟩ | ⟨disk, entry, hcall, rfl, -⟩
    · exact .inl rfl
    · exact .inr ⟨disk, entry, hcall, rfl⟩
  inserted := (h.performed e).inserted
  leaves r hr hclaimed hgone := by
    obtain ⟨r', hr', hmove⟩ := h.row_step e hr
    refine hmove.of_claimed hclaimed ?_
    rintro rfl
    exact hgone hr'
  acked r hr hacked := by
    obtain ⟨r', hr', hmove⟩ := h.row_step e hr
    rw [← hmove.of_acked hacked]
    exact hr'
  unchanged := (h.performed e).unchanged

private theorem run_append (ids : AutoIds) (a b : List OutboxEvent) :
    OutboxWorld.run ids (a ++ b) = (OutboxWorld.run ids a).runFrom ids b := by
  simp [OutboxWorld.run, OutboxWorld.runFrom]

theorem OutboxWorld.run_inv (ids : AutoIds) (events : List OutboxEvent) : OutboxInv ids (OutboxWorld.run ids events) :=
  (OutboxInv.start ids).runFrom events

private theorem claimed_once (ids : AutoIds) (events : List OutboxEvent) : ClaimedOnce ids events := by
  intro done e₁ mid e₂ rest rows₁ rows₂ _ h₁ h₂ a ha b hb hab
  have hinv := OutboxWorld.run_inv ids done
  obtain ⟨_, token, -, hrows₁⟩ := (hinv.performed e₁).claimed rows₁ h₁
  obtain ⟨r, hr, -, hra, hclaimed⟩ := hrows₁ a ha
  rw [run_append] at h₂
  obtain ⟨_, _, -, hrows₂⟩ := ((hinv.runFrom (e₁ :: mid)).performed e₂).claimed rows₂ h₂
  obtain ⟨r', hr', hqueued, hrb, -⟩ := hrows₂ b hb
  have hid : r'.id = (r.claim token).id := by
    have : (r'.id : Int) = (r.id : Int) := by rw [hrb, hra, hab]
    exact Int.ofNat.inj this
  obtain ⟨before, q, after, token', rfl, hcall, owned, howned, hoid, howner⟩ :=
    (hinv.step e₁).requeued_between mid hclaimed (by simp [OutboxRecord.claim]) hr' hid hqueued
  refine ⟨before, q, after, token', rfl, by rw [hcall, ← hra]; rfl, owned, ?_, ?_, howner⟩
  · rw [run_append]
    exact howned
  · rw [hoid, ← hra]
    rfl

/-- The claim lifecycle of the outbox holds over every interleaving of the four calls. -/
theorem outbox_claim_lifecycle (ids : AutoIds) (events : List OutboxEvent) : OutboxLifecycle ids events where
  distinct := (OutboxWorld.run_inv ids events).increasing.imp (fun h => Nat.ne_of_lt h)
  owner := (OutboxWorld.run_inv ids events).owner
  step := (OutboxWorld.run_inv ids events).stepLaw
  once := claimed_once ids events

end Verdant.Storage
