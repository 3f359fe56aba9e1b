import Verdant.Storage.Receipts

/-!
# The outbox operations

The rows of `outbox` and `derived_marks`, the statements of `insert`, `claim_queued`, `acknowledge` and
`requeue_claim` with their effects, and the four calls themselves: each prepares one fresh ticket and submits it once.
-/

namespace Verdant.Storage

/-! ### Tables -/

/-- One row of `outbox`; the text columns are as stored. -/
structure OutboxRecord where
  id : Nat
  operation : String
  entity : String
  sensor : String
  valueJson : String
  unit : String
  sourceMs : String
  receiptMs : String
  ingestionMs : String
  generation : String
  seq : String
  status : OutboxStatus
  claimedBy : Option String
  deriving DecidableEq, Repr

structure DerivedMark where
  entity : String
  dirty : Bool
  checkedGeneration : Nat
  deriving DecidableEq, Repr

/-- The outbox tables; `lastId` is the `AUTOINCREMENT` counter of `outbox`. -/
structure OutboxTables where
  outbox : List OutboxRecord
  lastId : Nat
  derivedMarks : List DerivedMark
  deriving DecidableEq, Repr

def OutboxTables.empty : OutboxTables := ⟨[], 0, []⟩

/-! ### Validation -/

/-- Why a text would break the framing of the output lines. -/
def envelopeFramingRefusal (raw : String) : Option String :=
  if Char.ofNat 0x1f ∈ raw.toList then
    some "value contains the envelope column separator (0x1F); refused to preserve page framing"
  else if '\n' ∈ raw.toList then
    some "value contains a line feed (0x0A); refused to preserve page framing"
  else if '\r' ∈ raw.toList then
    some "value contains a carriage return (0x0D); refused to preserve page framing"
  else if raw = "VERDANT_BEGIN" ∨ raw = "VERDANT_DATA" ∨ raw = "VERDANT_END" then
    some "value equals an envelope sentinel (VERDANT_BEGIN/DATA/END); refused to preserve page framing"
  else none

def validateToken (raw : String) : Except StorageError String :=
  if raw = "" then .error (.invalidInput "claim token" "token must not be empty")
  else if 128 < raw.utf8ByteSize then
    .error (.invalidInput "claim token" s!"token is {raw.utf8ByteSize} chars; maximum is 128")
  else match envelopeFramingRefusal raw with
    | some reason => .error (.invalidInput "claim token" reason)
    | none => .ok raw

theorem validateToken_eq_ok {raw token : String} (h : validateToken raw = .ok token) : token = raw := by
  unfold validateToken at h
  split at h
  · exact nomatch h
  split at h
  · exact nomatch h
  split at h
  · exact nomatch h
  · exact (Except.ok.inj h).symm

def validateUnit (unit : MeasureUnit) : Except StorageError Unit :=
  match envelopeFramingRefusal unit.asStr with
  | some reason => .error (.invalidInput "unit" reason)
  | none => .ok ()

/-! ### Statements -/

/-- What an insert writes: the row without its id and claim state. -/
structure OutboxEntry where
  operation : OperationId
  entity : InstalledId
  sensor : InstalledId
  value : Value
  unit : MeasureUnit
  times : TimeTriple
  record : RecordIdentity

def OutboxEntry.toRecord (entry : OutboxEntry) (id : Nat) : OutboxRecord where
  id := id
  operation := entry.operation.text
  entity := entry.entity.text
  sensor := entry.sensor.text
  valueJson := entry.value.toJson
  unit := entry.unit.asStr
  sourceMs := toString entry.times.source
  receiptMs := toString entry.times.receipt
  ingestionMs := toString entry.times.ingestion
  generation := entry.record.generation.text
  seq := toString entry.record.seq
  status := .queued
  claimedBy := none

def nowNanosSql : String :=
  "CAST(unixepoch()*1000000000 + CAST(substr(strftime('%f','now'),4,3) AS INTEGER)*1000000 AS TEXT)"

/-- `INSERT INTO outbox`: the next `AUTOINCREMENT` id, which never comes back. -/
def insertOutbox (entry : OutboxEntry) : Statement OutboxTables :=
  .onTables
    ("INSERT INTO outbox(operation, entity, sensor, value_json, unit, source_ms, receipt_ms, ingestion_ms, " ++
      "generation, seq, status, claimed_by, created_nanos) VALUES (" ++
      String.intercalate ", " ([entry.operation.text, entry.entity.text, entry.sensor.text, entry.value.toJson,
        entry.unit.asStr, toString entry.times.source, toString entry.times.receipt,
        toString entry.times.ingestion, entry.record.generation.text, toString entry.record.seq].map sqlQuote) ++
      s!", 'queued', NULL, {nowNanosSql});")
    fun s =>
      let id := s.tables.lastId + 1
      if id < 2 ^ 63 then
        .ok {
          tables := { s.tables with outbox := s.tables.outbox ++ [entry.toRecord id], lastId := id }
          lastInsertRowid := id
          changes := 1
          rows := [] }
      else .error "database or disk is full"

/-- The upsert that marks an entity dirty. -/
def markDirty (entity : String) : Statement OutboxTables :=
  .onTables
    (s!"INSERT INTO derived_marks(entity, dirty, checked_generation) VALUES ({sqlQuote entity}, 1, 0) " ++
      "ON CONFLICT(entity) DO UPDATE SET dirty = 1;")
    fun s =>
      if s.tables.derivedMarks.any fun m => m.entity = entity then
        .ok {
          tables := { s.tables with
            derivedMarks := s.tables.derivedMarks.map fun m => if m.entity = entity then { m with dirty := true } else m }
          lastInsertRowid := s.lastInsertRowid
          changes := 1
          rows := [] }
      else
        .ok {
          tables := { s.tables with derivedMarks := s.tables.derivedMarks ++ [⟨entity, true, 0⟩] }
          lastInsertRowid := s.tables.derivedMarks.length + 1
          changes := 1
          rows := [] }

/-- The thirteen columns a claim returns for a row. -/
def OutboxRecord.columns (r : OutboxRecord) : List String :=
  Nat.repr r.id :: [r.operation, r.entity, r.sensor, r.valueJson, r.unit, r.sourceMs, r.receiptMs, r.ingestionMs,
    r.generation, r.seq, r.status.asStr].map sqlQuote ++
    [match r.claimedBy with
      | some token => sqlQuote token
      | none => "NULL"]

def OutboxRecord.claim (token : String) (r : OutboxRecord) : OutboxRecord :=
  { r with status := .claimed, claimedBy := some token }

/-- Claims the first `limit` queued rows, in id order; the second list is the claimed rows as they are now. -/
def claimRecords (token : String) : Nat → List OutboxRecord → List OutboxRecord × List OutboxRecord
  | _, [] => ([], [])
  | limit, r :: rest =>
    if r.status = .queued ∧ 0 < limit then
      let (kept, claimed) := claimRecords token (limit - 1) rest
      (r.claim token :: kept, r.claim token :: claimed)
    else
      let (kept, claimed) := claimRecords token limit rest
      (r :: kept, claimed)

def claimUpdate (token : String) (limit : Nat) : Statement OutboxTables :=
  .onTables
    (s!"UPDATE outbox SET status = 'claimed', claimed_by = {sqlQuote token} WHERE id IN (SELECT id FROM outbox " ++
      s!"WHERE status = 'queued' ORDER BY id LIMIT {limit}) RETURNING id, quote(operation), quote(entity), " ++
      "quote(sensor), quote(value_json), quote(unit), quote(source_ms), quote(receipt_ms), quote(ingestion_ms), " ++
      "quote(generation), quote(seq), quote(status), quote(claimed_by);")
    fun s =>
      let (records, claimed) := claimRecords token limit s.tables.outbox
      .ok {
        tables := { s.tables with outbox := records }
        lastInsertRowid := s.lastInsertRowid
        changes := claimed.length
        rows := claimed.map OutboxRecord.columns }

/-- The row is claimed by this token. -/
def OutboxRecord.ownedBy (id : Int) (token : String) (r : OutboxRecord) : Bool :=
  (r.id : Int) = id ∧ r.status = .claimed ∧ r.claimedBy = some token

/-- An update of the rows a token owns; it changes nothing else and reports how many rows it changed. -/
def updateOwned (set : String) (id : Int) (token : String) (f : OutboxRecord → OutboxRecord) :
    Statement OutboxTables :=
  .onTables
    (s!"UPDATE outbox SET {set} WHERE id = {id} AND status = 'claimed' AND claimed_by = {sqlQuote token};")
    fun s => .ok {
      tables := { s.tables with
        outbox := s.tables.outbox.map fun r => if r.ownedBy id token then f r else r }
      lastInsertRowid := s.lastInsertRowid
      changes := (s.tables.outbox.filter (OutboxRecord.ownedBy id token)).length
      rows := [] }

def OutboxRecord.ack (r : OutboxRecord) : OutboxRecord := { r with status := .acked }

def OutboxRecord.requeue (r : OutboxRecord) : OutboxRecord := { r with status := .queued, claimedBy := none }

/-! ### Tickets -/

def prepareInsert (store : SqliteStore) (id : String) (disk : Disk) (entry : OutboxEntry) :
    Except StorageError (PreparedMutation OutboxTables) :=
  let valueJson := entry.value.toJson
  if store.bounds.maxValueBytes < valueJson.utf8ByteSize then
    .error (.valueTooLarge valueJson.utf8ByteSize store.bounds.maxValueBytes)
  else match store.maintenanceReason disk with
    | some reason => .error (.maintenanceRequired reason)
    | none =>
      if store.bounds.maxDbBytes < saturatingAdd disk.capacityBytes valueJson.utf8ByteSize then
        .error (.spaceExhausted
          (s!"synthetic space budget: main + WAL + SHM {disk.capacityBytes} bytes + {valueJson.utf8ByteSize} " ++
            s!"payload bytes exceeds max_db_bytes {store.bounds.maxDbBytes}"))
      else do
        validateUnit entry.unit
        let body := [insertOutbox entry, selectLastInsertRowid _, markDirty entry.entity.text, selectChanges _]
        let pending ← PreparedMutation.new store id body .insert
        .ok { pending with payloadBytes := valueJson.utf8ByteSize }

def prepareClaim (store : SqliteStore) (id : String) (limit : Nat) (claimedBy : String) :
    Except StorageError (PreparedMutation OutboxTables) :=
  if limit = 0 then .error (.invalidInput "claim limit" "limit must be at least 1")
  else do
    let token ← validateToken claimedBy
    let effective := max (min limit store.bounds.maxReplayRows) 1
    PreparedMutation.new store id [claimUpdate token effective] .rows

/-! ### Calls -/

section Calls

variable (store : SqliteStore) (id : String) (host : Host) (db : Database OutboxTables)

/-- `insert`: the id of the new row; `disk` are the file sizes read before the ticket is made. -/
def insert (disk : Disk) (entry : OutboxEntry) : Database OutboxTables × Except StorageError Int :=
  match prepareInsert store id disk entry with
  | .error e => (db, .error e)
  | .ok pending =>
    let (db, answer) := submit store pending host db
    (db, do
      match ← answer.intoResult with
      | [] => .error (failure "insert id missing")
      | row :: _ =>
        let cell ← scalar [row]
        match parseI64 cell with
        | some n => .ok n
        | none => .error (failure "insert id unreadable"))

def claimQueued (limit : Nat) (claimedBy : String) : Database OutboxTables × Except StorageError (List OutboxRow) :=
  match prepareClaim store id limit claimedBy with
  | .error e => (db, .error e)
  | .ok pending =>
    let (db, answer) := submit store pending host db
    (db, do
      let rows ← answer.intoResult
      rows.mapM decodeRow)

/-- `exec_changes`: the number of changed rows. -/
def execChanges (body : Script OutboxTables) : Database OutboxTables × Except StorageError Int :=
  match PreparedMutation.new store id body .change with
  | .error e => (db, .error e)
  | .ok pending =>
    let (db, answer) := submit store pending host db
    (db, do
      match ← answer.intoResult with
      | (raw :: _) :: _ =>
        match parseI64 raw with
        | some n => .ok n
        | none => .error (failure "expected a single changes() row")
      | _ => .error (failure "expected a single changes() row"))

/-- The calls that change the one row a token owns. -/
def changeOwned (set what : String) (f : OutboxRecord → OutboxRecord) (row : Int) (expectedToken : String) :
    Database OutboxTables × Except StorageError Unit :=
  match validateToken expectedToken with
  | .error e => (db, .error e)
  | .ok token =>
    let (db, changed) := execChanges store id host db [updateOwned set row token f, selectChanges _]
    (db, do
      if (← changed) = 1 then .ok ()
      else .error (.conflict what))

def acknowledge (row : Int) (expectedToken : String) : Database OutboxTables × Except StorageError Unit :=
  changeOwned store id host db "status = 'acked'"
    s!"acknowledge id {row}: zero affected rows (not claimed by this token)" OutboxRecord.ack row expectedToken

def requeueClaim (row : Int) (expectedToken : String) : Database OutboxTables × Except StorageError Unit :=
  changeOwned store id host db "status = 'queued', claimed_by = NULL"
    s!"requeue id {row}: zero affected rows (not dangling under this token)" OutboxRecord.requeue row expectedToken

end Calls

end Verdant.Storage
