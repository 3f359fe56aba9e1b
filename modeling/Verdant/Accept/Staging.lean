import Verdant.Accept.ConfigText

/-!
# Staging

A configuration is staged as the payload of a content row under its own operation, and read back from that row alone.  On a
store with room for the row both calls go through, so what comes back is what `decode` makes of the bytes
(`readStaged_of_row`).
-/

namespace Verdant.Accept

open TextCodec Storage Access Binding Prog

/-- Durable but unapproved intent. -/
structure Staged where
  operation : OperationId
  config : EffectiveConfig
  valueJson : String
  deriving DecidableEq

structure AcceptanceStore where
  store : SqliteStore

/-! ### Writing -/

def isStageOperation (operation : OperationId) : Bool := "accept-stage-".toList.isPrefixOf operation.text.toList

def stageOperation (operation : OperationId) : Except AcceptError Unit :=
  if isStageOperation operation then .ok () else .error (.invalid "staging operation namespace")

/-- `insert_row`, behind a condition of its `SELECT`. -/
def insertAccept (row : NewRow) (condition : String) (holds : Session OutboxTables → Bool) : Statement OutboxTables :=
  insertRow ("INSERT INTO outbox(operation,entity,sensor,value_json,unit,source_ms,receipt_ms,ingestion_ms,generation,seq," ++
    s!"status,claimed_by,created_nanos) SELECT {sqlQuote row.operation},{sqlQuote row.entity},{sqlQuote row.sensor}," ++
    s!"{sqlQuote row.valueJson},'{row.unit}','{row.sourceMs}','{row.receiptMs}','{row.ingestionMs}'," ++
    s!"'{row.generation}','{row.seq}','queued',NULL,'0'{condition};") row holds

def acceptRow (operation entity sensor valueJson : String) (seq : Nat) : NewRow where
  operation := operation
  entity := entity
  sensor := sensor
  valueJson := valueJson
  unit := "count"
  sourceMs := "0"
  receiptMs := "0"
  ingestionMs := "0"
  generation := "gen-1"
  seq := Nat.repr seq

def stageRow (operation : OperationId) (valueJson : String) : NewRow :=
  acceptRow operation.text "accept-config" "accept-staged" valueJson 1

def isOperation (operation : OperationId) (r : OutboxRecord) : Bool := r.operation = operation.text

/-- No row has the operation yet. -/
def unstaged (operation : OperationId) : Guard where
  text := s!"NOT EXISTS(SELECT 1 FROM outbox WHERE operation={sqlQuote operation.text})"
  holds tables := !present (isOperation operation) tables

def committedRow : MutationOutcome → Except AcceptError Int
  | .committed _ rows =>
    if rows[1]? = some ["0"] then .error (.conflict "zero affected rows")
    else if rows.length ≠ 2 ∨ rows[1]? ≠ some ["1"] then .error (.invalid "accept receipt shape")
    else match ((rows.head?.bind List.head?).bind parseI64).filter fun id => 0 < id with
      | some id => .ok id
      | none => .error (.invalid "accept receipt row")
  | .notCommitted _ (.sqliteFailure detail) =>
    if containsText detail "CHECK constraint failed: accept_expected_changed" then
      .error (.conflict "zero affected rows: expected accepted revision lost")
    else if containsText detail "CHECK constraint failed: access_guard_unchanged" then
      .error (.conflict "authority, binding or publication changed")
    else .error (.storage (.sqliteFailure detail))
  | .notCommitted _ error => .error (.storage error)
  | .conflict _ detail => .error (.conflict detail)
  | .unknown operation detail => .error (.unknown operation detail)

/-! ### Reading -/

def stageColumns (r : OutboxRecord) : List String := [sqlQuote r.valueJson, r.seq, r.entity, r.sensor]

def selectStaged (operation : OperationId) : Query OutboxTables :=
  selectLog s!"SELECT quote(value_json),seq,entity,sensor FROM outbox WHERE operation={sqlQuote operation.text} LIMIT 2;"
    (isOperation operation) stageColumns (some 2)

def unquoteColumn (raw : String) : Except AcceptError (Option String) :=
  (unquoteText raw).mapError fun _ => .binding (unreadable s!"quoted binding column malformed: '{raw}'")

/-- The configuration in the content of a staged row. -/
def stagedContent (valueJson : String) : Except AcceptError EffectiveConfig := do
  let text ← textJson valueJson
  match ← decode text 262144 4 with
  | [version, status, payload, _] =>
    if version ≠ "verdant-content-v1" ∨ status ≠ "valid-structural" then
      .error (.invalid "staged content version/status")
    else EffectiveConfig.decode payload
  | _ => .error (.invalid "staged content version/status")

def stagedRow (operation : OperationId) : Rows → Except AcceptError Staged
  | [[json, seq, entity, sensor]] =>
    if seq ≠ "1" ∨ entity ≠ "accept-config" ∨ sensor ≠ "accept-staged" then .error (.invalid "staged row columns")
    else do
      match ← unquoteColumn json with
      | none => .error (.invalid "NULL stage")
      | some valueJson =>
        let config ← stagedContent valueJson
        .ok ⟨operation, config, valueJson⟩
  | [_] => .error (.invalid "staged row columns")
  | _ => .error (.invalid "missing/ambiguous staged row")

namespace AcceptanceStore

variable (accept : AcceptanceStore)

/-- Stages immutable bytes under an explicit operation. -/
def stage (names : List String) (operation : OperationId) (config : EffectiveConfig) (findings : List Seal.RowKey) :
    AcceptCall Staged := do
  Prog.check (checkEnvironment names)
  Prog.check (stageOperation operation)
  let node ← Prog.check ((Seal.ContentNode.new config.canonicalBytes findings).mapError AcceptError.seal)
  let valueJson := node.value.toJson
  let id ← (Call.draw : Call OutboxTables String)
  let pending ← Prog.check ((prepareGuardedBatch accept.store id (unstaged operation).text
    (fun s => (unstaged operation).holds s.tables) [insertAccept (stageRow operation valueJson) "" fun _ => true]
    valueJson.utf8ByteSize).mapError AcceptError.storage)
  let pending := pending.withOperation operation
  let outcome ← (Call.submit accept.store pending : Call OutboxTables MutationOutcome)
  let outcome ← (match outcome with
    | .unknown _ _ => Call.reconcile accept.store pending
    | other => pure other : Call OutboxTables MutationOutcome)
  let _ ← Prog.check (committedRow outcome)
  return ⟨operation, config, valueJson⟩

def readStaged (operation : OperationId) : AcceptCall Staged := do
  Prog.check (stageOperation operation)
  let rows ← Prog.mapErr AcceptError.storage (Prog.attempt (Call.read (selectStaged operation)))
  Prog.check (stagedRow operation rows)

end AcceptanceStore

/-! ### A stage and its read -/

/-- The content row of a configuration. -/
def stagedJson (config : EffectiveConfig) (findings : List Seal.RowKey) : String :=
  (Seal.ContentNode.mk config.canonicalBytes (Seal.sortDedup findings)).value.toJson

/-- A store that takes a row under a new operation. -/
structure Stageable (store : SqliteStore) (operation : OperationId) (valueJson : String) (db : Database OutboxTables) :
    Prop where
  fresh : findReceipt db.receipts operation.text = none
  unstaged : (unstaged operation).holds db.tables = true
  room : db.tables.lastId + 1 < 2 ^ 63
  value : valueJson.utf8ByteSize ≤ store.bounds.maxValueBytes
  space : saturatingAdd 0 valueJson.utf8ByteSize ≤ store.bounds.maxDbBytes

/-- The content of a staged row is read as its payload is. -/
theorem stagedContent_stagedJson {config : EffectiveConfig} {findings : List Seal.RowKey}
    (hsmall : config.canonicalBytes.utf8ByteSize ≤ maxConfigBytes) (hfew : findings.length ≤ Seal.maxNodes) :
    stagedContent (stagedJson config findings) = EffectiveConfig.decode config.canonicalBytes := by
  have hframe : Accept.decode (Seal.encode ["verdant-content-v1", "valid-structural", config.canonicalBytes,
      Seal.encode ((Seal.sortDedup findings).map Seal.RowKey.encode)]) 262144 4 = .ok _ :=
    Accept.decode_encode (Seal.ContentNode.utf8ByteSize_content_le hsmall hfew) (by simp) (by decide)
  unfold stagedContent stagedJson Seal.ContentNode.value
  rw [textJson_toJson, Result.ok_bind, hframe, Result.ok_bind]
  exact if_neg (by decide)

/-- The only row of an operation is read as its content is. -/
theorem stagedRow_stageRow (operation : OperationId) (valueJson : String) (id : Nat) :
    stagedRow operation [stageColumns ((stageRow operation valueJson).record id)] =
      (stagedContent valueJson).map fun config => ⟨operation, config, valueJson⟩ := by
  have hquote : unquoteColumn (sqlQuote valueJson) = .ok (some valueJson) := by
    unfold unquoteColumn
    rw [unquoteText_sqlQuote]
    rfl
  have hcolumns : stageColumns ((stageRow operation valueJson).record id) =
      [sqlQuote valueJson, "1", "accept-config", "accept-staged"] := rfl
  rw [hcolumns]
  simp only [stagedRow, ne_eq, not_true_eq_false, or_false, if_false, hquote, Result.ok_bind]
  cases stagedContent valueJson <;> rfl

theorem insertAccept_runs {row : NewRow} {condition : String} {holds : Session OutboxTables → Bool}
    {s : Session OutboxTables} (hholds : holds s = true) (hroom : s.tables.lastId + 1 < 2 ^ 63) :
    (insertAccept row condition holds).exec s = .ok ({ s with
      tables := { s.tables with
        outbox := s.tables.outbox ++ [row.record (s.tables.lastId + 1)]
        lastId := s.tables.lastId + 1 }
      lastInsertRowid := s.tables.lastId + 1
      changes := 1 }, []) := by
  unfold insertAccept insertRow Statement.onTables
  simp only [hholds, if_true, if_pos hroom, Result.ok_bind]

/-- The ticket of a stage. -/
def stageTicket (store : SqliteStore) (operation : OperationId) (valueJson : String) : PreparedMutation OutboxTables where
  operation := operation
  store := store.identity
  body := guardedBatch (unstaged operation).text (fun s => (unstaged operation).holds s.tables)
    [insertAccept (stageRow operation valueJson) "" fun _ => true]
  shape := .insert
  payloadBytes := valueJson.utf8ByteSize
  attempted := true

theorem submit_stageTicket {store : SqliteStore} {operation : OperationId} {valueJson : String}
    {db : Database OutboxTables} (h : Stageable store operation valueJson db) {host : Host} (hhost : host.Quiet) :
    ∃ db', submit store (stageTicket store operation valueJson) host db =
        (db', .committed operation [[Nat.repr (db.tables.lastId + 1)], [Nat.repr 1]]) ∧
      Appended db.tables db'.tables [stageRow operation valueJson] := by
  obtain ⟨v, hbody, happended, hreceipts, hlast, hchanges⟩ :
      ∃ v : Session OutboxTables, Script.run [insertAccept (stageRow operation valueJson) "" fun _ => true]
          { db.begin host.clock with lastInsertRowid := 1, changes := 1, clock := fun n => host.clock (n + 2) } = .ok (v, []) ∧
        Appended db.tables v.tables [stageRow operation valueJson] ∧ v.receipts = db.receipts ∧
        v.lastInsertRowid = db.tables.lastId + 1 ∧ v.changes = 1 := by
    refine ⟨_, Script.run_cons_ok.2 ⟨_, [], [], insertAccept_runs rfl h.room, rfl, rfl⟩, ⟨rfl, rfl, fun _ => h.room⟩, rfl,
      rfl, rfl⟩
  have hvalid : validateRows .insert [[Nat.repr v.lastInsertRowid], [Nat.repr v.changes]] = .ok () := by
    rw [hlast, hchanges]
    exact validateRows_insert.2 ⟨_, _, rfl, parseI64_repr h.room, by omega⟩
  have hsubmit := submit_quiet store (stageTicket store operation valueJson) hhost rfl rfl h.fresh h.value h.space
    (run_guardedBatch_of h.unstaged hbody) hreceipts hvalid
  rw [hlast, hchanges] at hsubmit
  exact ⟨_, hsubmit, happended⟩

theorem committedRow_insert {operation : OperationId} {n : Nat} (hpos : 0 < n) (h : n < 2 ^ 63) :
    committedRow (.committed operation [[Nat.repr n], [Nat.repr 1]]) = .ok (n : Int) := by
  have hfilter : (some (n : Int)).filter (fun id => decide (0 < id)) = some (n : Int) :=
    Option.filter_some_pos (by simpa using hpos)
  have hone : Nat.repr 1 = "1" := rfl
  unfold committedRow
  simp [hone, parseI64_repr h, hfilter]

namespace AcceptanceStore

variable {accept : AcceptanceStore} {operation : OperationId} {config : EffectiveConfig} {findings : List Seal.RowKey}

/-- A stage on a store that takes its row commits that row and nothing else. -/
theorem stage_runs {names : List String} {db : Database OutboxTables} {m m' : Moment} {drawn : OperationId}
    (henvironment : checkEnvironment names = .ok ()) (hnamespace : isStageOperation operation = true)
    (hsmall : config.canonicalBytes.utf8ByteSize ≤ maxConfigBytes) (hfew : findings.length ≤ Seal.maxNodes)
    (hid : OperationId.parse m.id = .ok drawn) (hhost : m'.host.Quiet)
    (hstore : Stageable accept.store operation (stagedJson config findings) db) :
    ∃ db', (accept.stage names operation config findings).run.run StoreOp.exec [m, m'] db =
        (db', some (.ok ⟨operation, config, stagedJson config findings⟩, [])) ∧
      Appended db.tables db'.tables [stageRow operation (stagedJson config findings)] := by
  have hnode : Seal.ContentNode.new config.canonicalBytes findings = .ok ⟨config.canonicalBytes, Seal.sortDedup findings⟩ :=
    if_neg (not_or.2 ⟨Nat.not_lt.2 hsmall, Nat.not_lt.2 hfew⟩)
  have hoperation : stageOperation operation = .ok () := if_pos hnamespace
  have hpending : prepareGuardedBatch accept.store m.id (unstaged operation).text
      (fun s => (unstaged operation).holds s.tables)
      [insertAccept (stageRow operation (stagedJson config findings)) "" fun _ => true]
      (stagedJson config findings).utf8ByteSize =
        .ok { stageTicket accept.store operation (stagedJson config findings) with operation := drawn, attempted := false } := by
    unfold prepareGuardedBatch PreparedMutation.new
    rw [hid]
    rfl
  obtain ⟨db', hsubmit, happended⟩ := submit_stageTicket hstore hhost
  refine ⟨db', ?_, happended⟩
  unfold stage
  rw [henvironment, check_bind_ok, hoperation, check_bind_ok, hnode]
  have hrow : ((Except.ok (⟨config.canonicalBytes, Seal.sortDedup findings⟩ : Seal.ContentNode) :
      Except Seal.SealError Seal.ContentNode).mapError AcceptError.seal) = .ok ⟨config.canonicalBytes, Seal.sortDedup findings⟩ := rfl
  rw [hrow, check_bind_ok]
  refine run_try_ok.2 ⟨m.id, db, [m'], rfl, ?_⟩
  have hprepared : ((prepareGuardedBatch accept.store m.id (unstaged operation).text
      (fun s => (unstaged operation).holds s.tables)
      [insertAccept (stageRow operation (stagedJson config findings)) "" fun _ => true]
      (stagedJson config findings).utf8ByteSize).mapError AcceptError.storage) =
        .ok { stageTicket accept.store operation (stagedJson config findings) with operation := drawn, attempted := false } := by
    rw [hpending]
    rfl
  show (check ((prepareGuardedBatch accept.store m.id (unstaged operation).text
      (fun s => (unstaged operation).holds s.tables)
      [insertAccept (stageRow operation (stagedJson config findings)) "" fun _ => true]
      (stagedJson config findings).utf8ByteSize).mapError AcceptError.storage) >>= _).run.run _ _ _ = _
  rw [hprepared, check_bind_ok]
  refine run_try_ok.2 ⟨.committed operation [[Nat.repr (db.tables.lastId + 1)], [Nat.repr 1]], db', [], ?_, ?_⟩
  · exact congrArg (fun r : Database OutboxTables × MutationOutcome =>
      (r.1, (some (Except.ok r.2, []) : Option (Except AcceptError MutationOutcome × List Moment)))) hsubmit
  refine run_try_ok.2 ⟨_, db', [], rfl, ?_⟩
  rw [committedRow_insert (Nat.succ_pos _) hstore.room, check_bind_ok]
  rfl

/-- A read of an operation with one staged row is the read of its content. -/
theorem readStaged_of_row {db : Database OutboxTables} {valueJson : String} {id : Nat} {m : Moment} (hread : m.read = none)
    (hnamespace : isStageOperation operation = true)
    (hrow : logOf (isOperation operation) db.tables = [(stageRow operation valueJson).record id]) :
    (readStaged operation).run.run StoreOp.exec [m] db =
      (db, some ((stagedContent valueJson).map (fun config => ⟨operation, config, valueJson⟩), [])) := by
  have hoperation : stageOperation operation = .ok () := if_pos hnamespace
  have hanswer : execScript m (selectStaged operation) db = .ok [stageColumns ((stageRow operation valueJson).record id)] := by
    unfold execScript selectStaged selectLog
    rw [hread]
    simp only [hrow]
    rfl
  have hrun : (mapErr AcceptError.storage (attempt (Call.read (selectStaged operation)))).run.run StoreOp.exec [m] db =
      (db, some ((execScript m (selectStaged operation) db).mapError AcceptError.storage, [])) := rfl
  unfold readStaged
  rw [hoperation, check_bind_ok, run_try_bind, hrun, hanswer]
  simp only [Except.mapError, stagedRow_stageRow]
  rfl

end AcceptanceStore

end Verdant.Accept
