import Verdant.Domain.JsonText
import Verdant.Library.Interference
import Verdant.Storage.Client
import Verdant.Storage.Guarded
import Verdant.Storage.Outbox

/-!
# Histories in the outbox

Access, binding, seals and acceptance keep their histories as rows of `outbox` under reserved operations.  No statement
deletes such a row or rewrites it, but for its claim columns, so `history` only ever grows at the end: this is the law
`outboxLaw` of every party of the database.  An owner appends its rows in a guarded batch, and the guard counts the rows
of the history it was computed from; under the law an equal count means an equal history (`logOf_eq_of_length`).
-/

namespace Verdant.Storage

/-! ### Histories -/

/-- The rows without their claim columns. -/
def history (tables : OutboxTables) : List OutboxRecord := tables.outbox.map OutboxRecord.requeue

/-- The rows of one owner, in id order. -/
def logOf (mine : OutboxRecord → Bool) (tables : OutboxTables) : List OutboxRecord := (history tables).filter mine

/-- `s LIKE 'prefix%'`, which does not tell the case of ASCII letters. -/
def likePrefix (front s : String) : Bool := (front.toList.map Char.toLower).isPrefixOf (s.toList.map Char.toLower)

/-- The ids grow along the table and the counter is past them. -/
structure Ordered (tables : OutboxTables) : Prop where
  increasing : tables.outbox.Pairwise fun a b => a.id < b.id
  counted : ∀ r ∈ tables.outbox, 0 < r.id ∧ r.id ≤ tables.lastId
  room : tables.lastId < 2 ^ 63

theorem ordered_empty : Ordered OutboxTables.empty where
  increasing := List.Pairwise.nil
  counted _ h := nomatch h
  room := by decide

/-- The rows of `s` come first in `t`. -/
def RowsGrow (s t : Database OutboxTables) : Prop := history s.tables <+: history t.tables

theorem RowsGrow.refl (s : Database OutboxTables) : RowsGrow s s := List.prefix_refl _

theorem RowsGrow.trans {s t u : Database OutboxTables} (h : RowsGrow s t) (h' : RowsGrow t u) : RowsGrow s u :=
  List.IsPrefix.trans h h'

/-- So do the receipts. -/
def BothGrow (s t : Database OutboxTables) : Prop := history s.tables <+: history t.tables ∧ s.receipts <+: t.receipts

theorem BothGrow.refl (s : Database OutboxTables) : BothGrow s s := ⟨List.prefix_refl _, List.prefix_refl _⟩

theorem BothGrow.trans {s t u : Database OutboxTables} (h : BothGrow s t) (h' : BothGrow t u) : BothGrow s u :=
  ⟨h.1.trans h'.1, h.2.trans h'.2⟩

/-- What every party of an outbox database does to it. -/
def outboxLaw : Law (Database OutboxTables) :=
  Law.keeping (fun db => Ordered db.tables)
    (fun s t => history s.tables <+: history t.tables ∧ s.receipts <+: t.receipts)
    BothGrow.refl @BothGrow.trans

theorem logOf_grows {mine : OutboxRecord → Bool} {s t : OutboxTables} (h : history s <+: history t) :
    logOf mine s <+: logOf mine t := h.filter mine

/-- A history that has not grown is the same history. -/
theorem logOf_eq_of_length {mine : OutboxRecord → Bool} {s t : OutboxTables} (h : history s <+: history t)
    (hlen : (logOf mine t).length = (logOf mine s).length) : logOf mine t = logOf mine s :=
  ((logOf_grows h).eq_of_length hlen.symm).symm

theorem Ordered.id_injective {tables : OutboxTables} (h : Ordered tables) {a b : OutboxRecord}
    (ha : a ∈ history tables) (hb : b ∈ history tables) (hid : a.id = b.id) : a = b := by
  have hids : (history tables).Pairwise fun a b => a.id < b.id := by
    unfold history
    rw [List.pairwise_map]
    exact h.increasing
  obtain ⟨i, hi, rfl⟩ := List.mem_iff_getElem.1 ha
  obtain ⟨j, hj, rfl⟩ := List.mem_iff_getElem.1 hb
  rw [List.pairwise_iff_getElem] at hids
  rcases Nat.lt_trichotomy i j with hlt | rfl | hlt
  · have := hids i j hi hj hlt
    omega
  · rfl
  · have := hids j i hj hi hlt
    omega

theorem Ordered.id_pos {tables : OutboxTables} (h : Ordered tables) {r : OutboxRecord} (hr : r ∈ history tables) :
    0 < r.id ∧ r.id < 2 ^ 63 := by
  obtain ⟨o, ho, rfl⟩ := List.mem_map.1 hr
  have hroom := h.room
  have hcounted := h.counted o ho
  exact ⟨hcounted.1, by
    have hid : (OutboxRecord.requeue o).id = o.id := rfl
    omega⟩

/-! ### Appending -/

/-- The columns an insert writes; the claim columns start queued. -/
structure NewRow where
  operation : String
  entity : String
  sensor : String
  valueJson : String
  unit : String
  sourceMs : String
  receiptMs : String
  ingestionMs : String
  generation : String
  seq : String
  deriving DecidableEq

def NewRow.record (row : NewRow) (id : Nat) : OutboxRecord where
  id := id
  operation := row.operation
  entity := row.entity
  sensor := row.sensor
  valueJson := row.valueJson
  unit := row.unit
  sourceMs := row.sourceMs
  receiptMs := row.receiptMs
  ingestionMs := row.ingestionMs
  generation := row.generation
  seq := row.seq
  status := .queued
  claimedBy := none

/-- The rows with the ids after `last`. -/
def numbered (last : Nat) : List NewRow → List OutboxRecord
  | [] => []
  | row :: rows => row.record (last + 1) :: numbered (last + 1) rows

theorem numbered_append (last : Nat) (a b : List NewRow) :
    numbered last (a ++ b) = numbered last a ++ numbered (last + a.length) b := by
  induction a generalizing last with
  | nil => rfl
  | cons row rows ih =>
    have hlen : last + 1 + rows.length = last + (row :: rows).length := by
      rw [List.length_cons]
      omega
    rw [List.cons_append, numbered, numbered, ih, hlen]
    rfl

theorem mem_numbered {last : Nat} {rows : List NewRow} {r : OutboxRecord} (h : r ∈ numbered last rows) :
    last < r.id ∧ r.id ≤ last + rows.length ∧ ∃ row ∈ rows, r = row.record r.id := by
  induction rows generalizing last with
  | nil => exact nomatch h
  | cons row rows ih =>
    rw [List.length_cons]
    rcases List.mem_cons.1 h with rfl | h
    · have hid : (row.record (last + 1)).id = last + 1 := rfl
      exact ⟨by omega, by omega, row, List.mem_cons_self, rfl⟩
    · obtain ⟨hlow, hhigh, row', hmem, hrow⟩ := ih h
      exact ⟨by omega, by omega, row', List.mem_cons_of_mem _ hmem, hrow⟩

theorem numbered_increasing (last : Nat) (rows : List NewRow) :
    (numbered last rows).Pairwise fun a b => a.id < b.id := by
  induction rows generalizing last with
  | nil => exact List.Pairwise.nil
  | cons row rows ih =>
    refine List.Pairwise.cons (fun r hr => ?_) (ih (last + 1))
    exact (mem_numbered hr).1

theorem requeue_numbered (last : Nat) (rows : List NewRow) :
    (numbered last rows).map OutboxRecord.requeue = numbered last rows := by
  induction rows generalizing last with
  | nil => rfl
  | cons row rows ih =>
    rw [numbered, List.map_cons, ih]
    rfl

/-- The tables with these rows at the end. -/
structure Appended (s t : OutboxTables) (rows : List NewRow) : Prop where
  outbox : t.outbox = s.outbox ++ numbered s.lastId rows
  lastId : t.lastId = s.lastId + rows.length
  room : s.lastId < 2 ^ 63 → t.lastId < 2 ^ 63

namespace Appended

variable {s t u : OutboxTables} {a b : List NewRow}

theorem refl (s : OutboxTables) : Appended s s [] where
  outbox := (List.append_nil _).symm
  lastId := rfl
  room h := h

theorem trans (h : Appended s t a) (h' : Appended t u b) : Appended s u (a ++ b) where
  outbox := by rw [h'.outbox, h.outbox, h.lastId, numbered_append, List.append_assoc]
  lastId := by
    rw [h'.lastId, h.lastId, List.length_append]
    omega
  room hs := h'.room (h.room hs)

theorem history_eq (h : Appended s t a) : history t = history s ++ numbered s.lastId a := by
  unfold history
  rw [h.outbox, List.map_append, requeue_numbered]

theorem logOf_eq (h : Appended s t a) (mine : OutboxRecord → Bool) :
    logOf mine t = logOf mine s ++ (numbered s.lastId a).filter mine := by
  unfold logOf
  rw [h.history_eq, List.filter_append]

theorem ordered (h : Appended s t a) (hs : Ordered s) : Ordered t where
  increasing := by
    rw [h.outbox, List.pairwise_append]
    refine ⟨hs.increasing, numbered_increasing _ _, fun r hr r' hr' => ?_⟩
    have hold := (hs.counted r hr).2
    have hnew := (mem_numbered hr').1
    omega
  counted r hr := by
    rw [h.outbox, List.mem_append] at hr
    have hlast := h.lastId
    rcases hr with hr | hr
    · have hold := hs.counted r hr
      omega
    · obtain ⟨hlow, hhigh, -⟩ := mem_numbered hr
      omega
  room := h.room hs.room

theorem grows (h : Appended s t a) : history s <+: history t := by
  rw [h.history_eq]
  exact List.prefix_append _ _

end Appended

/-! ### Statements of the owners -/

/-- `INSERT INTO outbox`, of one row when the condition of its `SELECT` holds. -/
def insertRow (text : String) (row : NewRow) (condition : Session OutboxTables → Bool) : Statement OutboxTables :=
  .onTables text fun s =>
    if condition s then
      if s.tables.lastId + 1 < 2 ^ 63 then
        .ok {
          tables := { s.tables with
            outbox := s.tables.outbox ++ [row.record (s.tables.lastId + 1)]
            lastId := s.tables.lastId + 1 }
          lastInsertRowid := s.tables.lastId + 1
          changes := 1
          rows := [] }
      else .error "database or disk is full"
    else
      .ok {
        tables := s.tables
        lastInsertRowid := s.lastInsertRowid
        changes := 0
        rows := [] }

theorem insertRow_exec {text : String} {row : NewRow} {condition : Session OutboxTables → Bool}
    {s t : Session OutboxTables} {out : Rows} (h : (insertRow text row condition).exec s = .ok (t, out)) :
    out = [] ∧ t.receipts = s.receipts ∧ t.clock = s.clock ∧
      ((condition s = true ∧ Appended s.tables t.tables [row] ∧ t.lastInsertRowid = s.tables.lastId + 1 ∧
          t.changes = 1) ∨
        (condition s = false ∧ t.tables = s.tables ∧ t.lastInsertRowid = s.lastInsertRowid ∧ t.changes = 0)) := by
  obtain ⟨e, he, rfl, rfl⟩ := Statement.onTables_eq_ok h
  simp only at he
  by_cases hcondition : condition s = true
  · rw [if_pos hcondition] at he
    split at he
    · rename_i hroom
      cases he
      exact ⟨rfl, rfl, rfl, .inl ⟨hcondition, ⟨rfl, rfl, fun _ => hroom⟩, rfl, rfl⟩⟩
    · exact nomatch he
  · rw [if_neg hcondition] at he
    cases he
    exact ⟨rfl, rfl, rfl, .inr ⟨by simpa using hcondition, rfl, rfl, rfl⟩⟩

/-- The mark of an entity, in the owner's own text. -/
def markEntity (text entity : String) : Statement OutboxTables := { markDirty entity with text := text }

theorem markEntity_exec {text entity : String} {s t : Session OutboxTables} {out : Rows}
    (h : (markEntity text entity).exec s = .ok (t, out)) :
    out = [] ∧ t.receipts = s.receipts ∧ t.clock = s.clock ∧ Appended s.tables t.tables [] := by
  have h' : (markDirty entity).exec s = .ok (t, out) := h
  obtain ⟨e, he, rfl, rfl⟩ := Statement.onTables_eq_ok h'
  simp only at he
  split at he
  · cases he
    exact ⟨rfl, rfl, rfl, ⟨(List.append_nil _).symm, rfl, fun h => h⟩⟩
  · cases he
    exact ⟨rfl, rfl, rfl, ⟨(List.append_nil _).symm, rfl, fun h => h⟩⟩

/-! ### Guards over a history -/

/-- `(SELECT COUNT(*) FROM outbox WHERE …)=n`. -/
def countIs (mine : OutboxRecord → Bool) (n : Nat) (tables : OutboxTables) : Bool := (logOf mine tables).length = n

/-- `EXISTS(SELECT 1 FROM outbox WHERE …)`. -/
def present (p : OutboxRecord → Bool) (tables : OutboxTables) : Bool := (history tables).any p

/-- A condition on the tables with its SQL text. -/
structure Guard where
  text : String
  holds : OutboxTables → Bool

/-- The guard with one more conjunct at the end of its text. -/
def Guard.also (guard : Guard) (text : String) (p : OutboxTables → Bool) : Guard where
  text := guard.text ++ text
  holds tables := guard.holds tables && p tables

/-- The conjuncts of a guard only add to it. -/
theorem Guard.holds_of_foldl {α : Type} {f : Guard → α → Guard} (hf : ∀ g a t, (f g a).holds t = true → g.holds t = true)
    {xs : List α} {guard : Guard} {tables : OutboxTables} (h : (xs.foldl f guard).holds tables = true) :
    guard.holds tables = true := by
  induction xs generalizing guard with
  | nil => exact h
  | cons x xs ih => exact hf guard x tables (ih h)

/-! ### Reads -/

/-- `SELECT … FROM outbox WHERE … ORDER BY id LIMIT …`; the columns are among those nobody rewrites. -/
def selectLog (text : String) (mine : OutboxRecord → Bool) (columns : OutboxRecord → List String)
    (limit : Option Nat) : Query OutboxTables where
  text := text
  rows _ db :=
    let log := logOf mine db.tables
    .ok ((match limit with
      | some n => log.take n
      | none => log).map columns)

/-! ### Submits -/

/-- What a submit of a guarded batch does: nothing, or its guard held and its whole body ran. -/
theorem submit_guarded (store : SqliteStore) {pending : PreparedMutation OutboxTables} {condition : String}
    {holds : Session OutboxTables → Bool} {body : Script OutboxTables}
    (hbody : pending.body = guardedBatch condition holds body) (host : Host) (db : Database OutboxTables) :
    (submit store pending host db).1 = db ∨
      ∃ u v inner rows, holds (db.begin host.clock).tick = true ∧ u.toDatabase = db ∧
        u.clock = (fun n => host.clock (n + 2)) ∧ body.run u = .ok (v, inner) ∧
        rows = inner ++ [[Nat.repr v.lastInsertRowid], [Nat.repr v.changes]] ∧
        validateRows pending.shape rows = .ok () ∧
        pending.store = store.identity ∧ findReceipt db.receipts pending.operation.text = none ∧
        (submit store pending host db).1 =
          ⟨v.tables, v.receipts ++ [⟨pending.operation.text, pending.request, encodeResponse rows⟩]⟩ := by
  rcases submit_step store pending host db with h | ⟨hstore, hnone, rows, happly, hshape⟩
  · exact .inl h
  obtain ⟨s, hrun, hafter⟩ := Application.apply_eq_some.1 happly
  simp only at hrun hafter
  rw [hbody] at hrun
  obtain ⟨hholds, u, v, inner, hdb, hclock, hinner, htables, hrows⟩ := run_guardedBatch hrun
  have hreceipts : s.receipts = v.receipts := congrArg Database.receipts htables
  have htab : s.tables = v.tables := congrArg Database.tables htables
  refine .inr ⟨u, v, inner, rows, hholds, hdb, hclock, hinner, hrows, hshape, hstore, hnone, ?_⟩
  rw [hafter, ← hreceipts, ← htab]
  rfl

/-- A mutation of another owner: it keeps the histories and adds no row of this one. -/
structure OtherOwner (mine : OutboxRecord → Bool) (pending : PreparedMutation OutboxTables) : Prop where
  frame : ∀ s t rows, pending.body.run s = .ok (t, rows) → Ordered s.tables →
    Ordered t.tables ∧ history s.tables <+: history t.tables ∧ logOf mine t.tables = logOf mine s.tables ∧
      t.receipts = s.receipts

/-- A guarded batch that appends rows of others. -/
theorem OtherOwner.of_guarded {mine : OutboxRecord → Bool} {pending : PreparedMutation OutboxTables} {condition : String}
    {holds : Session OutboxTables → Bool} {body : Script OutboxTables}
    (hbody : pending.body = guardedBatch condition holds body)
    (h : ∀ u v inner, body.run u = .ok (v, inner) → v.receipts = u.receipts ∧
      ∃ rows, Appended u.tables v.tables rows ∧ ∀ row ∈ rows, ∀ n, mine (row.record n) = false) :
    OtherOwner mine pending := by
  constructor
  intro s t rows hrun hs
  rw [hbody] at hrun
  obtain ⟨-, u, v, inner, hus, -, hinner, htv, -⟩ := run_guardedBatch hrun
  obtain ⟨hreceipts, new, happended, hmine⟩ := h u v inner hinner
  have hut : u.tables = s.tables := congrArg Database.tables hus
  have hur : u.receipts = s.receipts := congrArg Database.receipts hus
  have hvt : t.tables = v.tables := congrArg Database.tables htv
  have hvr : t.receipts = v.receipts := congrArg Database.receipts htv
  rw [hut, ← hvt] at happended
  refine ⟨happended.ordered hs, happended.grows, ?_, by rw [hvr, hreceipts, hur]⟩
  have hnone : (numbered s.tables.lastId new).filter mine = [] := by
    rw [List.filter_eq_nil_iff]
    intro r hr
    obtain ⟨-, -, row, hrow, hrecord⟩ := mem_numbered hr
    rw [hrecord, hmine row hrow]
    exact Bool.false_ne_true
  rw [happended.logOf_eq, hnone, List.append_nil]

theorem OtherOwner.submit {mine : OutboxRecord → Bool} {pending : PreparedMutation OutboxTables}
    (h : OtherOwner mine pending) (store : SqliteStore) (host : Host) {db : Database OutboxTables}
    (hdb : Ordered db.tables) :
    Ordered (Storage.submit store pending host db).1.tables ∧
      history db.tables <+: history (Storage.submit store pending host db).1.tables ∧
      db.receipts <+: (Storage.submit store pending host db).1.receipts ∧
      logOf mine (Storage.submit store pending host db).1.tables = logOf mine db.tables := by
  rcases submit_step store pending host db with hsame | ⟨-, -, rows, happly, -⟩
  · rw [hsame]
    exact ⟨hdb, List.prefix_refl _, List.prefix_refl _, rfl⟩
  · obtain ⟨s, hrun, hnext⟩ := Application.apply_eq_some.1 happly
    obtain ⟨hordered, hgrows, hlog, hreceipts⟩ := h.frame _ _ _ hrun hdb
    rw [hnext]
    refine ⟨hordered, hgrows, ?_, hlog⟩
    exact hreceipts ▸ List.prefix_append _ _

end Verdant.Storage
