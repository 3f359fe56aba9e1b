import Verdant.Storage.Guarded
import Verdant.Storage.OutboxHistory

/-!
# One guarded row on a quiet host

A guarded batch that ends in one `INSERT INTO outbox`, submitted under a fresh identity where nothing fails, where its
condition holds and the statements before the insert run without a change: it commits the row and its receipt.
-/

namespace Verdant.Storage

/-- The session in which the body of a guarded batch starts. -/
def bodyStart (host : Host) (db : Database OutboxTables) : Session OutboxTables :=
  { db.begin host.clock with lastInsertRowid := 1, changes := 1, clock := fun n => host.clock (n + 2) }

/-- What an insert of one row needs of its store and of the database. -/
structure Admits (store : SqliteStore) (operation : OperationId) (payload : Nat) (db : Database OutboxTables) :
    Prop where
  fresh : findReceipt db.receipts operation.text = none
  value : payload ≤ store.bounds.maxValueBytes
  space : saturatingAdd 0 payload ≤ store.bounds.maxDbBytes
  room : db.tables.lastId + 1 < 2 ^ 63

theorem insertRow_runs (text : String) (row : NewRow) {s : Session OutboxTables} (hroom : s.tables.lastId + 1 < 2 ^ 63) :
    ∃ v, Script.run [insertRow text row fun _ => true] s = .ok (v, []) ∧ Appended s.tables v.tables [row] ∧
      v.receipts = s.receipts ∧ v.lastInsertRowid = s.tables.lastId + 1 ∧ v.changes = 1 := by
  have hexec : (insertRow text row fun _ => true).exec s = .ok
      (({ s with
        tables := { s.tables with
          outbox := s.tables.outbox ++ [row.record (s.tables.lastId + 1)]
          lastId := s.tables.lastId + 1 }
        lastInsertRowid := s.tables.lastId + 1
        changes := 1 } : Session OutboxTables), []) := by
    unfold insertRow Statement.onTables
    simp only [if_pos hroom]
    rfl
  exact ⟨_, Script.run_cons_ok.2 ⟨_, [], [], hexec, rfl, rfl⟩, ⟨rfl, rfl, fun _ => hroom⟩, rfl, rfl, rfl⟩

theorem submit_row_quiet {store : SqliteStore} {operation : OperationId} {condition : String}
    {holds : Session OutboxTables → Bool} {front : Script OutboxTables} {text : String} {row : NewRow} {payload : Nat}
    {attempted : Bool} {host : Host} (hhost : host.Quiet) {db : Database OutboxTables}
    (h : Admits store operation payload db) (hholds : holds (db.begin host.clock).tick = true)
    (hfront : ∃ t, front.run (bodyStart host db) = .ok (t, []) ∧ t.toDatabase = db) :
    ∃ db', submit store ⟨operation, store.identity, guardedBatch condition holds
        (front ++ [insertRow text row fun _ => true]), .insert, payload, attempted⟩ host db =
        (db', .committed operation [[Nat.repr (db.tables.lastId + 1)], ["1"]]) ∧
      Appended db.tables db'.tables [row] ∧
      db'.receipts.map ReceiptRow.operation = db.receipts.map ReceiptRow.operation ++ [operation.text] := by
  obtain ⟨w, hrun, hw⟩ := hfront
  have htables : w.tables = db.tables := congrArg Database.tables hw
  obtain ⟨v, hinsert, happended, hreceipts, hlast, hchanges⟩ := insertRow_runs text row
    (by rw [htables]; exact h.room : w.tables.lastId + 1 < 2 ^ 63)
  rw [htables] at happended hlast
  have hkept : v.receipts = db.receipts := hreceipts.trans (congrArg Database.receipts hw)
  have hbody : (guardedBatch condition holds (front ++ [insertRow text row fun _ => true])).run (db.begin host.clock) =
      .ok (v.tick.tick, [] ++ [[Nat.repr v.lastInsertRowid], [Nat.repr v.changes]]) :=
    run_guardedBatch_of hholds (Script.run_append_ok.2 ⟨w, [], [], hrun, hinsert, rfl⟩)
  have hvalid : validateRows .insert [[Nat.repr v.lastInsertRowid], [Nat.repr v.changes]] = .ok () := by
    rw [hlast, hchanges]
    exact validateRows_insert.2 ⟨_, _, rfl, parseI64_repr h.room, by omega⟩
  have hsubmit := submit_quiet store ⟨operation, store.identity, guardedBatch condition holds
    (front ++ [insertRow text row fun _ => true]), .insert, payload, attempted⟩ hhost rfl rfl h.fresh h.value h.space
    hbody hkept hvalid
  have hone : Nat.repr 1 = "1" := rfl
  rw [hlast, hchanges, hone] at hsubmit
  refine ⟨_, hsubmit, happended, ?_⟩
  have hleft : v.tick.tick.receipts = db.receipts := hkept
  rw [List.map_append, hleft]
  rfl

end Verdant.Storage
