import Verdant.Binding.History
import Verdant.Storage.Guarded

/-!
# The binding registry

Every call replays the history first, decides on the memory it gave, and writes at most one row in a guarded batch whose
guard is the history replayed.  A record call then evolves its own memory; a proposal or a finding joins a fresh access
report to its row, under the guard that the admission rows read before authentication are still all there is, and
replays once more.
-/

namespace Verdant.Binding

open TextCodec Storage Access

def conflict (detail : String) : BindingError := .conflict detail

/-! ### Memory of the record calls -/

namespace Memory

variable (memory : Memory)

/-- An installed identity already recorded. -/
def installed (id : String) : Bool :=
  (memory.equipment id).isSome || (memory.spaces id).isSome || (memory.sources id).isSome

def recordEquipment (id : String) (record : EquipmentRecord) : Memory :=
  let reassessment :=
    if record.address.text ∈ memory.retiredAddrs then insert id memory.reassessment else memory.reassessment
  { memory with reassessment := reassessment, equipment := put id record memory.equipment }.bumpRevision

def recordSpace (id : String) (record : SpaceRecord) : Memory :=
  { memory with spaces := put id record memory.spaces }.bumpRevision

def recordSource (id : String) (record : SourceRecord) : Memory :=
  { memory with sources := put id record memory.sources }.bumpRevision

def recordPoint (key : String) (record : PointRecord) : Memory :=
  { memory with points := put key record memory.points }.bumpRevision

def recordRetire (id address : String) : Memory :=
  { memory with
    retired := insert id memory.retired
    retiredAddrs := insert address memory.retiredAddrs }.bumpRevision

end Memory

/-! ### Authority -/

/-- A fresh access report with the guard of the admission rows it was made from. -/
structure Authority where
  report : EnterReport
  guard : Guard

/-- What canonicalizing the two database paths gave. -/
structure CanonicalPaths where
  registry : Except String String
  gate : Except String String

def CanonicalPaths.require (paths : CanonicalPaths) : Except BindingError Unit := do
  let registry ← paths.registry.mapError unreadable
  let gate ← paths.gate.mapError unreadable
  if registry ≠ gate then .error (conflict "access and binding must share the owning database") else .ok ()

def countAccess (n : Nat) : Guard where
  text := s!"(SELECT COUNT(*) FROM outbox WHERE operation LIKE 'access-%')={n}"
  holds := countIs isAdmission n

def accessText (column : String) : Except BindingError String := textColumn (unreadable "NULL access snapshot field") column

def captureRow (guard : Guard) : List String → Except BindingError Guard
  | [c0, c1, c2, c3] =>
    match parseI64 c0 with
    | none => .error (unreadable "invalid access row identity")
    | some id => do
      let operation ← accessText c1
      let entity ← accessText c2
      let valueJson ← accessText c3
      .ok (guard.also (admissionExists id operation entity valueJson)
        (present fun r => r.id = id && r.operation = operation && r.entity = entity && r.valueJson = valueJson))
  | _ => .error (unreadable "access snapshot requires four columns")

/-- The guard over the admission rows of one read of at most `limit` of them. -/
def capture (limit : Nat) (rows : Rows) : Except BindingError Guard :=
  if rows.length = limit then .error (unreadable "access history exceeds authentication horizon")
  else rows.foldlM captureRow (countAccess rows.length)

/-- The refusal an access refusal becomes. -/
def denial (requested : BindingRole) (error : AccessError) : BindingError :=
  match error with
  | .scopeDenied expected presented => .scopeDenied expected presented
  | .ceilingExceeded _ _ => .wrongRole requested.asStr error.display
  | .roleDenied _ _ => .wrongRole requested.asStr error.display
  | _ => .capabilityDenied error.display error.code

def roleOf : BindingRole → RoleKind
  | .sense => .reviewer
  | .drive => .publisher

def authority (gate : AccessGate) (credential : Option Credential) (scope : TrustedScope) (requested : BindingRole)
    (paths : CanonicalPaths) : BindingCall Authority := do
  Prog.check paths.require
  -- captured before authentication: every byte it consults must still be there when the row is written
  let limit := gate.store.bounds.maxReplayRows + 1
  let rows ← Prog.mapErr BindingError.store (Prog.attempt (Call.read (selectAdmissions limit)))
  let guard ← Prog.check (capture limit rows)
  let report ← Prog.mapErr (denial requested) (gate.enter credential scope (roleOf requested))
  return ⟨report, guard⟩

theorem authority_noSubmit (gate : AccessGate) (credential : Option Credential) (scope : TrustedScope)
    (requested : BindingRole) (paths : CanonicalPaths) :
    (authority gate credential scope requested paths).run.Issues NoSubmit := by
  unfold authority
  refine Prog.Issues.tryBind Prog.issues_check fun _ => ?_
  refine Prog.Issues.tryBind (Prog.Issues.mapErr (Prog.issues_issue trivial)) fun rows => ?_
  refine Prog.Issues.tryBind Prog.issues_check fun guard => ?_
  refine Prog.Issues.tryBind (Prog.Issues.mapErr (gate.enter_noSubmit credential scope _)) fun report => ?_
  exact trivial

/-! ### Batches -/

def bindingRow (seq : Nat) (kind : String) (entity : InstalledId) (valueJson : String) : NewRow where
  operation := kind
  entity := entity.text
  sensor := bindingSensorText
  valueJson := valueJson
  unit := bindingUnitText
  sourceMs := "1700000000123"
  receiptMs := "1700000000456"
  ingestionMs := "1700000000789"
  generation := "gen-1"
  seq := Nat.repr seq

def markBinding (entity : InstalledId) : Statement OutboxTables :=
  markEntity ("INSERT INTO derived_marks(entity, dirty, checked_generation) VALUES (" ++ sqlQuote entity.text ++
    ",1,0) ON CONFLICT(entity) DO UPDATE SET dirty=1;") entity.text

def insertBinding (row : NewRow) : Statement OutboxTables :=
  insertRow
    ("INSERT INTO outbox(operation,entity,sensor,value_json,unit,source_ms,receipt_ms,ingestion_ms,generation,seq," ++
      "status,claimed_by,created_nanos) VALUES (" ++ sqlQuote row.operation ++ "," ++ sqlQuote row.entity ++ "," ++
      sqlQuote row.sensor ++ "," ++ sqlQuote row.valueJson ++ "," ++ sqlQuote row.unit ++ ",'" ++ row.sourceMs ++
      "','" ++ row.receiptMs ++ "','" ++ row.ingestionMs ++ "','gen-1','" ++ row.seq ++
      "','queued',NULL,CAST(unixepoch()*1000000000 + CAST(substr(strftime('%f','now'),4,3) AS INTEGER)*1000000 AS TEXT));")
    row fun _ => true

/-- The guard that the commit is before the expiry of the authority. -/
def liveGuard : Option Int64 → Script OutboxTables
  | some expiry =>
    [createGuard "binding_live" "binding_guard_live",
      insertGuard "binding_live" "binding_guard_live"
        s!"CAST(unixepoch('subsec')*1000 AS INTEGER)<{expiry.toInt}" fun s => s.now < expiry.toInt]
  | none => []

def Authority.expiresAt (authority : Option Authority) : Option Int64 :=
  authority.bind fun a => a.report.actor.row.policy.expiresAtMs

/-- The history guard, joined to the guard of the authority. -/
def joinedGuard (guard : Guard) : Option Authority → Guard
  | some authority => guard.also s!" AND ({authority.guard.text})" authority.guard.holds
  | none => guard

/-- The mark comes first, so the row identity a receipt answers with is that of the outbox row. -/
def bindingScript (row : NewRow) (entity : InstalledId) (authority : Option Authority) : Script OutboxTables :=
  liveGuard (Authority.expiresAt authority) ++ [markBinding entity, insertBinding row]

/-- The liveness guard of a batch answers nothing and leaves the database. -/
theorem liveGuard_run {expires : Option Int64} {s t : Session OutboxTables} {out : Rows}
    (h : (liveGuard expires).run s = .ok (t, out)) :
    t.toDatabase = s.toDatabase ∧ ∀ expiry ∈ expires, (s.clock 1).toInt < expiry.toInt := by
  cases expires with
  | none =>
    cases h
    exact ⟨rfl, fun expiry hexpiry => nomatch hexpiry⟩
  | some expiry =>
    unfold liveGuard at h
    obtain ⟨u, first, more, hcreate, hmore, rfl⟩ := Script.run_cons_ok.1 h
    obtain ⟨rfl, -⟩ := createGuard_exec hcreate
    obtain ⟨v, second, last, hinsert, hlast, rfl⟩ := Script.run_cons_ok.1 hmore
    obtain ⟨hholds, rfl, -⟩ := insertGuard_exec hinsert
    cases hlast
    refine ⟨rfl, ?_⟩
    rintro e ⟨⟩
    simpa [Session.now, Session.tick] using hholds

/-- The statements of a batch append its row. -/
theorem bindingScript_run {row : NewRow} {entity : InstalledId} {authority : Option Authority}
    {s t : Session OutboxTables} {out : Rows} (h : (bindingScript row entity authority).run s = .ok (t, out)) :
    t.receipts = s.receipts ∧ Appended s.tables t.tables [row] := by
  obtain ⟨u, first, more, hlive, hmore, -⟩ := Script.run_append_ok.1 h
  obtain ⟨hus, -⟩ := liveGuard_run hlive
  obtain ⟨v, second, rest, hmark, hrest, -⟩ := Script.run_cons_ok.1 hmore
  obtain ⟨-, hmarked, -, hnothing⟩ := markEntity_exec hmark
  obtain ⟨w, third, last, hinsert, hlast, -⟩ := Script.run_cons_ok.1 hrest
  obtain ⟨-, hinserted, -, hcases⟩ := insertRow_exec hinsert
  obtain ⟨-, happended, -, -⟩ := hcases.resolve_right fun hfalse => nomatch hfalse.1
  cases hlast
  have hut : u.tables = s.tables := congrArg Database.tables hus
  have hur : u.receipts = s.receipts := congrArg Database.receipts hus
  refine ⟨?_, ?_⟩
  · exact hinserted.trans (hmarked.trans hur)
  · rw [← hut]
    exact hnothing.trans happended

def submitted : MutationOutcome → Except BindingError Int
  | .committed _ rows =>
    match (((rows.head?.bind List.head?).bind parseI64).filter fun id => 0 < id) with
    | some id => .ok id
    | none => .error (conflict "receipt row identity invalid")
  | .notCommitted _ (.sqliteFailure detail) =>
    if containsText detail "CHECK constraint failed: access_guard_unchanged" then
      .error (conflict "registry or authority changed at mutation boundary")
    else if containsText detail "CHECK constraint failed: binding_guard_live" then
      .error (.capabilityDenied "credential expired at mutation boundary" "expired-credential")
    else .error (.store (.sqliteFailure detail))
  | .notCommitted _ error => .error (.store error)
  | .conflict _ detail => .error (conflict detail)
  | .unknown operation detail => .error (.mutationUnknown operation detail)

/-- No receipt was found. -/
def absent : MutationOutcome → Bool
  | .notCommitted _ _ => true
  | _ => false

/-- A fresh operation identity. -/
def operationId : BindingCall OperationId := do
  let id ← (Call.draw : Call OutboxTables String)
  Prog.check ((OperationId.parse id).mapError fun e => conflict e.display)

/-- A refresh failure is not a noncommit: the caller still owns the identity. -/
def refreshFailed (operation : OperationId) (error : BindingError) : BindingError :=
  .mutationUnknown operation s!"committed; refresh failed: {error.display}"

/-- Immutable intent: an operation identity with its inputs. -/
structure PendingProposal where
  operation : OperationId
  revision : BindingRevision
  binding : ProposedBinding
  deriving DecidableEq

structure ProposalCommit where
  operation : OperationId
  rowId : Int
  revision : BindingRevision
  binding : ProposedBinding
  deriving DecidableEq

/-- The checks of a row before it is written: its sequence and, but for a finding, room for one more revision. -/
def nextSequence (sequence : Nat) (revision : BindingRevision) (kind : String) : Except BindingError Nat :=
  if 2 ^ 64 ≤ sequence + 1 then .error (conflict "sequence overflow")
  else if kind ≠ opFindingText ∧ revision.value.toNat = 2 ^ 32 - 1 then .error (conflict "revision overflow")
  else .ok (sequence + 1)

def committedText (rows : Rows) : Except BindingError String :=
  match rows with
  | [[column]] => textColumn (conflict "NULL committed descriptor") column
  | _ => .error (conflict "operation receipt does not identify a binding row")

def committedValue (valueJson : String) : Except BindingError String := do
  match ← (Value.fromJson valueJson).mapError fun e => conflict e.display with
  | .text descriptor => .ok descriptor
  | _ => .error (conflict "committed descriptor is not text")

def committedFields (operation : OperationId) (rows : Rows) : Except BindingError Fields := do
  let raw ← committedText rows
  let text ← committedValue raw
  let map ← splitBinding text
  let version ← field map "v"
  if version ≠ "2" then .error (conflict "operation receipt/descriptor mismatch")
  else
    let identity ← field map "operation"
    if identity ≠ operation.text then .error (conflict "operation receipt/descriptor mismatch") else .ok map

def selectCommitted (rowId : Int) (kind : String) : Query OutboxTables where
  text := s!"SELECT quote(value_json) FROM outbox WHERE id={rowId} AND operation={sqlQuote kind};"
  rows _ db := .ok (((history db.tables).filter fun r => r.id = rowId && r.operation = kind).map
    fun r => [sqlQuote r.valueJson])

namespace BindingRegistry

variable (registry : BindingRegistry)

def requireRevision (revision : BindingRevision) : Except BindingError Unit :=
  if registry.memory.revision ≠ revision then
    .error (conflict (s!"input revision {revision.value.toNat} differs from current " ++
      s!"{registry.memory.revision.value.toNat}; re-resolve inputs"))
  else .ok ()

/-- The binding resolved against the memory. -/
def resolve (binding : ProposedBinding) : Except BindingError Unit :=
  let equipment := binding.pointEquipment.text
  if equipment ∈ registry.memory.retired then
    .error (conflict "equipment is retired; cached binding cannot be used")
  else if equipment ∈ registry.memory.reassessment then
    .error (.needsReassessment equipment binding.endpoint.text "replacement requires fresh qualification")
  else match registry.memory.points (pointKey equipment binding.pointProperty.text) with
    | none => .error (unreadable s!"unknown point '{pointKey equipment binding.pointProperty.text}'")
    | some point =>
      if binding.pointScope ≠ point.scope then .error (conflict "point scope changed; re-resolve proposal")
      else if binding.status = .observedQualified then
        .error (conflict "static proposal cannot claim observed qualification")
      else do
        let _ ← propose binding.endpoint binding.endpointClass binding.endpointScope binding.pointEquipment
          binding.pointProperty point.scope binding.source point.unit point.endpointClass binding.unit binding.mode
          binding.requested binding.effective binding.feedback
        .ok ()

def prepareRow (operation : OperationId) (kind : String) (entity : InstalledId) (text : String)
    (authority : Option Authority) : BindingCall (PreparedMutation OutboxTables) := do
  let seq ← Prog.check (nextSequence registry.sequence registry.memory.revision kind)
  let value := (Value.text text).toJson
  let guard := joinedGuard registry.guard authority
  let id ← (Call.draw : Call OutboxTables String)
  let pending ← Prog.check ((prepareGuardedBatch registry.store id guard.text (fun s => guard.holds s.tables)
    (bindingScript (bindingRow seq kind entity value) entity authority) value.utf8ByteSize).mapError .store)
  return pending.withOperation operation

def submitRow (pending : PreparedMutation OutboxTables) : BindingCall Int := do
  let outcome ← Call.submit registry.store pending
  Prog.check (submitted outcome)

/-- Writes a record under a fresh identity; what the fields say is at the revision of the memory. -/
def writeRecord (kind : String) (entity : InstalledId) (fields : Fields) : BindingCall BindingRegistry := do
  let operation ← operationId
  let pending ← registry.prepareRow operation kind entity
    (descriptor (fields ++ recordTail operation registry.memory.revision)) none
  let _ ← registry.submitRow pending
  return { registry with sequence := registry.sequence + 1 }

/-! ### Records -/

def duplicate (id detail : String) : BindingError := .duplicateIdentity id detail

def recordEquipment (id : String) (kind : EquipmentKind) (scope : TrustedScope) (label address : String) :
    BindingCall BindingRegistry := do
  let registry ← registry.replay
  if registry.memory.installed id then
    throw (duplicate id "installed identity already recorded with different labels; labels are not identity")
  else
    let record ← Prog.check (EquipmentRecord.parse id kind scope label address)
    let registry ← registry.writeRecord opEquipmentText record.id (equipmentFields record)
    return { registry with memory := registry.memory.recordEquipment id record }

def recordSpace (id : String) (scope : TrustedScope) (label : String) : BindingCall BindingRegistry := do
  let registry ← registry.replay
  if registry.memory.installed id then
    throw (duplicate id "installed identity already recorded; labels are not identity")
  else
    let record ← Prog.check (SpaceRecord.parse id scope label)
    let registry ← registry.writeRecord opSpaceText record.id (spaceFields record)
    return { registry with memory := registry.memory.recordSpace id record }

def recordSource (id : String) (scope : TrustedScope) (label : String) : BindingCall BindingRegistry := do
  let registry ← registry.replay
  if registry.memory.installed id then
    throw (duplicate id "installed identity already recorded; labels are not identity")
  else
    let record ← Prog.check (SourceRecord.parse id scope label)
    let registry ← registry.writeRecord opSourceText record.id (sourceFields record)
    return { registry with memory := registry.memory.recordSource id record }

def recordPoint (equipment property : String) (scope : TrustedScope) (unitText : String)
    (endpointClass : EndpointClass) : BindingCall BindingRegistry := do
  let registry ← registry.replay
  let key := pointKey equipment property
  if (registry.memory.points key).isSome then
    throw (duplicate key "point already recorded for this equipment and property")
  else
    let record ← Prog.check (PointRecord.parse equipment property scope unitText endpointClass)
    let registry ← registry.writeRecord opPointText record.equipment (pointFields record)
    return { registry with memory := registry.memory.recordPoint key record }

/-- The equipment a retirement may retire. -/
def retirable (id reason : String) : Except BindingError EquipmentRecord :=
  match registry.memory.equipment id with
  | none => .error (unreadable s!"cannot retire unknown equipment '{id}'")
  | some record =>
    if reason = "" then .error (.invalidInput "reason" "retire reason must not be empty")
    else if id ∈ registry.memory.retired then .error (unreadable s!"equipment '{id}' is already retired")
    else .ok record

def retire (id reason : String) : BindingCall BindingRegistry := do
  let registry ← registry.replay
  let record ← Prog.check (registry.retirable id reason)
  let registry ← registry.writeRecord opRetireText record.id (retireFields id record.address.text reason)
  return { registry with memory := registry.memory.recordRetire id record.address.text }

/-! ### Proposals -/

/-- The commit a receipt and its row stand for. -/
def proposalCommit (pending : PendingProposal) (rowId : Int) (map : Fields) : Except BindingError ProposalCommit := do
  let binding ← decodePropose map
  let revision ← storedRevision map
  if binding ≠ pending.binding ∨ revision ≠ pending.revision then
    .error (conflict "operation identity reused with different proposal inputs")
  else match checkedSucc revision.value with
    | none => .error (conflict "revision overflow")
    | some next => .ok ⟨pending.operation, rowId, ⟨next⟩, binding⟩

def committedDescriptor (rowId : Int) (operation : OperationId) (kind : String) : BindingCall Fields := do
  let rows ← Prog.mapErr BindingError.store (Prog.attempt (Call.read (selectCommitted rowId kind)))
  Prog.check (committedFields operation rows)

/-- Receipt-only recovery: never dispatches work and never authorizes. -/
def reconcileProposal (pending : PendingProposal) : BindingCall (BindingRegistry × Option ProposalCommit) := do
  let registry ← registry.replay
  let outcome ← (Call.reconcileOperation registry.store pending.operation : Call OutboxTables MutationOutcome)
  if absent outcome then return (registry, none)
  else
    let rowId ← Prog.check (submitted outcome)
    let map ← committedDescriptor rowId pending.operation opProposeText
    let commit ← Prog.check (proposalCommit pending rowId map)
    return (registry, some commit)

/-- New work at the memory of `registry`. -/
def dispatchProposal (gate : AccessGate) (credential : Option Credential) (pending : PendingProposal)
    (paths : CanonicalPaths) : BindingCall (BindingRegistry × ProposalCommit) := do
  Prog.check (registry.requireRevision pending.revision)
  Prog.check (registry.resolve pending.binding)
  let authority ← authority gate credential pending.binding.pointScope pending.binding.requested paths
  let ticket ← registry.prepareRow pending.operation opProposeText pending.binding.pointEquipment
    (proposalText pending.operation pending.revision pending.binding authority.report.actor) (some authority)
  let rowId ← registry.submitRow ticket
  -- no local evolution before the commit
  let registry ← Prog.mapErr (refreshFailed pending.operation) registry.replay
  return (registry, ⟨pending.operation, rowId, ⟨pending.revision.value + 1⟩, pending.binding⟩)

def submitProposal (gate : AccessGate) (credential : Option Credential) (pending : PendingProposal)
    (paths : CanonicalPaths) : BindingCall (BindingRegistry × ProposalCommit) := do
  let (registry, commit) ← registry.reconcileProposal pending
  match commit with
  | some commit => return (registry, commit)
  | none => registry.dispatchProposal gate credential pending paths

/-- The stored point of a pair, unless its equipment needs reassessment. -/
def pointTruth (doing equipment property fallback : String) : Except BindingError PointRecord :=
  match registry.memory.points (pointKey equipment property) with
  | none => .error (unreadable s!"unknown point '{pointKey equipment property}'; record the point before {doing}")
  | some point =>
    if equipment ∈ registry.memory.reassessment then
      .error (.needsReassessment equipment
        (((registry.memory.equipment equipment).map fun r => r.address.text).getD fallback)
        ("replacement at a retired address needs fresh qualification; old history retained, not overwritten"))
    else .ok point

def proposeWithCredential (gate : AccessGate) (credential : Option Credential) (endpointAddress : String)
    (endpointClass : EndpointClass) (endpointScope : TrustedScope) (pointEquipment pointProperty sourceText : String)
    (unit : MeasureUnit) (mode : Option OpMode) (requested effective : BindingRole) (feedback : Feedback)
    (paths : CanonicalPaths) : BindingCall (BindingRegistry × ProposedBinding) := do
  let registry ← registry.replay
  let point ← Prog.check (registry.pointTruth "proposing" pointEquipment pointProperty "")
  let endpoint ← Prog.check (EndpointAddress.parse endpointAddress)
  let equipment ← Prog.check (parseInstalled "installed" pointEquipment)
  let property ← Prog.check (PropertyName.parse pointProperty)
  let source ← Prog.check (parseInstalled "source" sourceText)
  let binding ← Prog.check (propose endpoint endpointClass endpointScope equipment property point.scope source point.unit
    point.endpointClass unit mode requested effective feedback)
  let operation ← operationId
  let (registry, commit) ← registry.submitProposal gate credential ⟨operation, registry.memory.revision, binding⟩ paths
  return (registry, commit.binding)

def importWithCredential (gate : AccessGate) (credential : Option Credential) (conversion : Conversion)
    (inputRevision : BindingRevision) (endpointAddress : String) (endpointClass : EndpointClass)
    (endpointScope : TrustedScope) (pointProperty sourceText : String) (requested effective : BindingRole)
    (feedback : Feedback) (paths : CanonicalPaths) : BindingCall (BindingRegistry × ProposedBinding) := do
  let registry ← registry.replay
  Prog.check (registry.requireRevision inputRevision)
  let stored ← Prog.check (registry.pointTruth "importing" conversion.verdantId.text pointProperty endpointAddress)
  let imported ← Prog.check (importBinding conversion endpointAddress endpointClass endpointScope pointProperty
    stored.scope sourceText stored.unit stored.endpointClass requested effective feedback)
  let operation ← operationId
  let (registry, commit) ← registry.submitProposal gate credential ⟨operation, inputRevision, imported⟩ paths
  return (registry, commit.binding)

/-! ### Findings -/

/-- The replayed finding a committed row stands for. -/
def findingCommit (revision : BindingRevision) (binding : ProposedBinding) (map : Fields) :
    Except BindingError Finding := do
  let stored ← storedRevision map
  if stored ≠ revision then .error (conflict "operation identity reused with different finding inputs")
  else
    let text ← field map "binding"
    if text ≠ binding.canonicalBytes then .error (conflict "operation identity reused with different finding inputs")
    else
      let fid ← field map "fid"
      match registry.memory.findings.find? fun f => f.id.text = fid && f.generation = revision.value with
      | some finding => .ok finding
      | none => .error (conflict "receipt has no replayed finding")

def durableBinding (binding : ProposedBinding) : Except BindingError Unit :=
  if binding ∈ registry.memory.bindings then .ok ()
  else .error (conflict "finding requires a durable proposal at current truth")

/-- New work at the memory of `registry`. -/
def dispatchFinding (operation : OperationId) (revision : BindingRevision) (gate : AccessGate)
    (binding : ProposedBinding) (credential : Credential) (paths : CanonicalPaths) :
    BindingCall (BindingRegistry × Finding) := do
  Prog.check (registry.requireRevision revision)
  Prog.check (registry.resolve binding)
  Prog.check (registry.durableBinding binding)
  let authority ← authority gate (some credential) binding.pointScope binding.requested paths
  let finding := Finding.forBinding binding revision (descriptor (actorFields authority.report.actor))
  let ticket ← registry.prepareRow operation opFindingText binding.pointEquipment
    (descriptor (findingFields operation revision binding finding authority.report.actor)) (some authority)
  let _ ← registry.submitRow ticket
  let registry ← Prog.mapErr (refreshFailed operation) registry.replay
  return (registry, finding)

def emitFindingOperation (operation : OperationId) (revision : BindingRevision) (gate : AccessGate)
    (binding : ProposedBinding) (credential : Credential) (paths : CanonicalPaths) :
    BindingCall (BindingRegistry × Finding) := do
  let registry ← registry.replay
  let outcome ← (Call.reconcileOperation registry.store operation : Call OutboxTables MutationOutcome)
  if absent outcome then registry.dispatchFinding operation revision gate binding credential paths
  else
    let rowId ← Prog.check (submitted outcome)
    let map ← committedDescriptor rowId operation opFindingText
    let finding ← Prog.check (registry.findingCommit revision binding map)
    return (registry, finding)

def emitFinding (gate : AccessGate) (binding : ProposedBinding) (credential : Credential) (paths : CanonicalPaths) :
    BindingCall (BindingRegistry × Finding) := do
  let registry ← registry.replay
  let operation ← operationId
  registry.emitFindingOperation operation registry.memory.revision gate binding credential paths

end BindingRegistry

end Verdant.Binding
