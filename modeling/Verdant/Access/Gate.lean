import Verdant.Access.State
import Verdant.Storage.Guarded

/-!
# The access gate

Access mutations are optimistic guarded batches, never check-then-insert: `bootstrap`, `issueWithPolicy`, `rotate` and
`revoke` read the state, build their rows from it and submit them under its guard; a policy that expires adds the guard
that the commit is still before its expiry.  `authenticate` and `enter` only read.
-/

namespace Verdant.Access

open TextCodec Storage

/-- A fallible call of the access module. -/
abbrev AccessCall (α : Type) := Prog.Try (StoreOp.Answer (ρ := OutboxTables)) AccessError α

/-- Direct-entry gate; its issuer and user are the frozen ones. -/
structure AccessGate where
  store : SqliteStore

def AccessGate.issuer (_ : AccessGate) : IssuerId := frozenIssuer
def AccessGate.user (_ : AccessGate) : UserId := frozenUser

/-- Bootstrap credentials; the keys are returned once. -/
structure BootstrapCredentials where
  reviewer : Credential
  publisher : Credential

def alreadyBootstrapped : AccessError :=
  .alreadyBootstrapped "admission identity already exists; never overwrite or re-bootstrap"

def earliest : Option Int64 → Option Int64 → Option Int64
  | some a, some b => some (min a b)
  | some a, none => some a
  | none, some b => some b
  | none, none => none

/-! ### Rows -/

namespace AccessGate

variable (gate : AccessGate)

def issueRow (credential : Credential) (scope : TrustedScope) (ceiling : UInt8) (role : RoleKind) (reason : Reason)
    (label : DisplayLabel) (policy : CapabilityPolicy) : IssueRow where
  cap := credential.capability
  scope := scope
  ceiling := ceiling
  role := role
  keyId := credential.keyId
  keyFp := credential.key.fingerprint
  issuer := gate.issuer
  capgen := 1
  user := gate.user
  reason := reason.text
  label := label.text
  policy := policy

def revokeRow (row : IssueRow) (reason : Reason) : RevokeRow where
  cap := row.cap
  keyId := row.keyId
  capgen := row.capgen
  issuer := gate.issuer
  reason := reason.text

end AccessGate

/-- The row that takes the place of `row` when its key is rotated. -/
def IssueRow.successor (row : IssueRow) (next : UInt32) (keyId : KeyId) (key : SyntheticKey) (reason : Reason) :
    IssueRow :=
  { row with capgen := next, keyId := keyId, keyFp := key.fingerprint, reason := reason.text }

/-! ### Batches -/

/-- One row to add: operation, entity and descriptor. -/
structure AdmissionRecord where
  operation : String
  entity : String
  descriptor : String

def Admission.toRecord (row : Admission) : AdmissionRecord := ⟨row.operation, row.anchor, row.encode⟩

def admissionRow (seq : Nat) (record : AdmissionRecord) : NewRow where
  operation := record.operation
  entity := record.entity
  sensor := syntheticSensorText
  valueJson := (Value.text record.descriptor).toJson
  unit := accessUnitText
  sourceMs := "1700000000123"
  receiptMs := "1700000000456"
  ingestionMs := "1700000000789"
  generation := "gen-1"
  seq := Nat.repr seq

def insertAdmission (row : NewRow) : Statement OutboxTables :=
  insertRow
    ("INSERT INTO outbox(operation, entity, sensor, value_json, unit, source_ms, receipt_ms, ingestion_ms, " ++
      "generation, seq, status, claimed_by, created_nanos) VALUES (" ++ sqlQuote row.operation ++ ", " ++
      sqlQuote row.entity ++ ", " ++ sqlQuote row.sensor ++ ", " ++ sqlQuote row.valueJson ++ ", " ++
      sqlQuote row.unit ++ ", '" ++ row.sourceMs ++ "', '" ++ row.receiptMs ++ "', '" ++ row.ingestionMs ++ "', " ++
      sqlQuote row.generation ++ ", '" ++ row.seq ++
      "', 'queued', NULL, CAST(unixepoch('subsec') * 1000000000 AS TEXT));")
    row fun _ => true

def markAdmission (entity : String) : Statement OutboxTables :=
  markEntity ("INSERT INTO derived_marks(entity, dirty, checked_generation) VALUES (" ++ sqlQuote entity ++
    ", 1, 0) ON CONFLICT(entity) DO UPDATE SET dirty=1;") entity

/-- The statements of the records, the first of them the `index`-th of the batch, with the payload so far. -/
def admissionScript (count : Nat) : Nat → Nat → List AdmissionRecord → Except AccessError (Script OutboxTables × Nat)
  | _, payload, [] => .ok ([], payload)
  | index, payload, record :: records => do
    let _ ← (OperationId.parse record.operation).mapError fun e => invalid e.display
    let _ ← (InstalledId.parse record.entity).mapError fun e => invalid e.display
    let row := admissionRow (count + index + 1) record
    let payload := payload + row.valueJson.utf8ByteSize
    if 2 ^ 64 ≤ payload then .error (invalid "batch size overflow")
    else
      let (script, payload) ← admissionScript count (index + 1) payload records
      .ok (insertAdmission row :: markAdmission record.entity :: script, payload)

/-- The guard that the commit is before the expiry. -/
def liveGuard : Option Int64 → Script OutboxTables
  | some expiry =>
    [createGuard "access_live" "access_guard_live",
      insertGuard "access_live" "access_guard_live"
        s!"CAST(unixepoch('subsec') * 1000 AS INTEGER) < {expiry.toInt}" fun s => s.now < expiry.toInt]
  | none => []

namespace AccessGate

variable (gate : AccessGate)

def batch (state : State) (records : List AdmissionRecord) (expires : Option Int64) :
    AccessCall (PreparedMutation OutboxTables) := do
  let (script, payload) ← Prog.check (admissionScript state.count 0 0 records)
  let id ← (Call.draw : Call OutboxTables String)
  Prog.check ((prepareGuardedBatch gate.store id state.guard.text (fun s => state.guard.holds s.tables)
    (liveGuard expires ++ script) payload).mapError .store)

def submitResult : MutationOutcome → Except AccessError Unit
  | .committed _ _ => .ok ()
  | .notCommitted _ (.sqliteFailure detail) =>
    if containsText detail "CHECK constraint failed: access_guard_unchanged" then
      .error (.store (.conflict "access state changed at mutation boundary"))
    else if containsText detail "CHECK constraint failed: access_guard_live" then
      .error (.policyDenied "credential expired at mutation boundary")
    else .error (.store (.sqliteFailure detail))
  | .notCommitted _ error => .error (.store error)
  | .conflict _ detail => .error (.store (.conflict detail))
  | .unknown operation detail => .error (.mutationUnknown operation detail)

def submit (pending : PreparedMutation OutboxTables) : AccessCall Unit := do
  let outcome ← Call.submit gate.store pending
  Prog.check (submitResult outcome)

/-! ### Mutations -/

/-- The key of a bootstrap credential, of the `uniq`-th bootstrap of the process. -/
def bootstrapCredential (pid uniq : Nat) (cap : CapabilityName) (keyId : String) : Except AccessError Credential := do
  let keyId ← KeyId.parse keyId
  let key ← SyntheticKey.parse s!"synthetic-bootstrap-{pid}-{uniq}-{cap.text}"
  .ok ⟨cap, keyId, key⟩

def bootstrapMarker (reason : Reason) : BootstrapRow where
  user := gate.user
  issuer := gate.issuer
  reason := reason.text
  generation := accessSchemaGeneration

def bootstrapScope (raw : String) : Except AccessError TrustedScope :=
  (TrustedScope.parse raw).mapError fun e => invalid e.display

/-- The three rows of a bootstrap. -/
def bootstrapRows (reviewer publisher : Credential) (reason : Reason) : Except AccessError (List Admission) := do
  let scopeA ← bootstrapScope "scope-a"
  let scopeB ← bootstrapScope "scope-b"
  let reviewerLabel ← DisplayLabel.parse syntheticLabelText
  let reviewerRow := gate.issueRow reviewer scopeA 1 .reviewer reason reviewerLabel (.entryOnly none)
  let publisherLabel ← DisplayLabel.parse syntheticLabelText
  let policy ← CapabilityPolicy.administrator [scopeA, scopeB] 2 none
  let publisherRow := gate.issueRow publisher scopeA 2 .publisher reason publisherLabel policy
  .ok [.bootstrap (gate.bootstrapMarker reason), .issue reviewerRow, .issue publisherRow]

/-- The losers of the race for the bootstrap see it taken. -/
def bootstrapError : AccessError → AccessError
  | .store (.conflict _) => alreadyBootstrapped
  | e => e

def bootstrap (pid uniq : Nat) (reason : Reason) : AccessCall BootstrapCredentials := do
  let state ← State.read gate.store
  if state.count ≠ 0 then throw alreadyBootstrapped
  else
    let reviewer ← Prog.check (bootstrapCredential pid uniq reviewerCap reviewerKeyText)
    let publisher ← Prog.check (bootstrapCredential pid uniq publisherCap publisherKeyText)
    let rows ← Prog.check (gate.bootstrapRows reviewer publisher reason)
    let pending ← gate.batch state (rows.map Admission.toRecord) none
    Prog.mapErr bootstrapError (gate.submit pending)
    return ⟨reviewer, publisher⟩

def issueWithPolicy (capability : CapabilityName) (scope : TrustedScope) (ceiling : UInt8) (role : RoleKind)
    (keyId : KeyId) (key : SyntheticKey) (administrator : Credential) (reason : Reason) (label : DisplayLabel)
    (policy : CapabilityPolicy) : AccessCall Credential := do
  let state ← State.read gate.store
  let admin ← state.checked administrator none false
  let bound ← Prog.check ((CredentialCeiling.new scope ceiling).mapError fun e => .invalidInput "ceiling" e.display)
  Prog.check (admin.policy.authorize bound policy)
  let now ← nowMs
  Prog.check (policy.requireLive now)
  if state.issues.any fun row => row.cap = capability then throw alreadyBootstrapped
  else
    let credential : Credential := ⟨capability, keyId, key⟩
    let row := gate.issueRow credential scope ceiling role reason label policy
    let pending ← gate.batch state [(Admission.issue row).toRecord]
      (earliest admin.policy.expiresAtMs policy.expiresAtMs)
    gate.submit pending
    return credential

def issue (capability : CapabilityName) (scope : TrustedScope) (ceiling : UInt8) (role : RoleKind)
    (keyId : KeyId) (key : SyntheticKey) (administrator : Credential) (reason : Reason) (label : DisplayLabel) :
    AccessCall Credential :=
  gate.issueWithPolicy capability scope ceiling role keyId key administrator reason label (.entryOnly none)

/-- `checked_add(1)`. -/
def nextGeneration (row : IssueRow) : Except AccessError UInt32 :=
  if row.capgen.toNat + 1 < 2 ^ 32 then .ok (row.capgen + 1) else .error (.generationOverflow row.cap.text)

def rotate (current : Credential) (newKeyId : KeyId) (newKey : SyntheticKey) (reason : Reason) :
    AccessCall Credential := do
  let state ← State.read gate.store
  let row ← state.checked current none true
  let next ← Prog.check (nextGeneration row)
  if state.issues.any fun r => r.cap = row.cap && r.keyId = newKeyId then
    throw (.invalidInput "key-id" "rotation requires a fresh key identity")
  else
    let pending ← gate.batch state [(Admission.revoke (gate.revokeRow row reason)).toRecord,
      (Admission.issue (row.successor next newKeyId newKey reason)).toRecord] row.policy.expiresAtMs
    gate.submit pending
    return ⟨current.capability, newKeyId, newKey⟩

def revoke (current : Credential) (reason : Reason) : AccessCall Unit := do
  let state ← State.read gate.store
  let row ← state.checked current none false
  let pending ← gate.batch state [(Admission.revoke (gate.revokeRow row reason)).toRecord] row.policy.expiresAtMs
  gate.submit pending

end AccessGate

/-! ### Entry -/

/-- Stable authenticated actor references: evidence at authentication time. -/
structure ActorContext where
  row : IssueRow
  bound : CredentialCeiling
  deriving DecidableEq

def ActorContext.role (actor : ActorContext) : RoleKind := actor.row.role

def ActorContext.fromChecked (row : IssueRow) : Except AccessError ActorContext := do
  let bound ← (CredentialCeiling.new row.scope row.ceiling).mapError fun e => invalid e.display
  .ok ⟨row, bound⟩

/-- What an entry reports. -/
structure EnterReport where
  capability : CapabilityName
  scope : TrustedScope
  ceiling : UInt8
  role : RoleKind
  capGeneration : UInt32
  actor : ActorContext
  deriving DecidableEq

def ActorContext.report (actor : ActorContext) : EnterReport where
  capability := actor.row.cap
  scope := actor.row.scope
  ceiling := actor.row.ceiling
  role := actor.row.role
  capGeneration := actor.row.capgen
  actor := actor

def requiredCeiling : RoleKind → UInt8
  | .reviewer => requiredReviewCeiling
  | .publisher => requiredPublishCeiling

/-- An actor may enter where its level and its role suffice. -/
def entryAllowed (actor : ActorContext) (required : RoleKind) : Except AccessError Unit :=
  if actor.bound.level < requiredCeiling required then
    .error (.ceilingExceeded actor.bound.level (requiredCeiling required))
  else match actor.role, required with
    | .reviewer, .publisher => .error (.roleDenied "reviewer" "publisher")
    | _, _ => .ok ()

namespace AccessGate

variable (gate : AccessGate)

def authenticate (credential : Option Credential) (scope : TrustedScope) : AccessCall ActorContext :=
  match credential with
  | none => throw (.anonymousDenied "anonymous entry is refused; present a named capability credential")
  | some credential => do
    let state ← State.read gate.store
    let row ← state.checked credential (some scope) false
    Prog.check (ActorContext.fromChecked row)

def enter (credential : Option Credential) (scope : TrustedScope) (required : RoleKind) : AccessCall EnterReport := do
  let actor ← gate.authenticate credential scope
  Prog.check (entryAllowed actor required)
  return actor.report

def enterReview (credential : Option Credential) (scope : TrustedScope) : AccessCall EnterReport :=
  gate.enter credential scope .reviewer

def enterPublish (credential : Option Credential) (scope : TrustedScope) : AccessCall EnterReport :=
  gate.enter credential scope .publisher

/-! ### Lookups -/

def isRevoked (capability : CapabilityName) (keyId : KeyId) : AccessCall Bool := do
  let state ← State.read gate.store
  return state.revokes.any fun r => r.cap = capability && r.keyId = keyId

def bootstrapReason : AccessCall String := do
  let state ← State.read gate.store
  Prog.check state.requireBootstrapped
  match state.bootstraps with
  | marker :: _ => return marker.reason
  | [] => throw (invalid "incomplete or inconsistent bootstrap; no fallback minting")

/-- The reason of the newest issue of a capability. -/
def issueReason (capability : CapabilityName) : AccessCall String := do
  let state ← State.read gate.store
  let row ← Prog.check (state.latest capability)
  return row.reason

end AccessGate

/-! ### Calls that submit nothing -/

theorem read_noSubmit (store : SqliteStore) : (State.read store).run.Issues NoSubmit :=
  Prog.Issues.tryBind (Prog.Issues.mapErr (Prog.issues_issue trivial)) fun _ => Prog.issues_check

theorem nowMs_noSubmit : nowMs.run.Issues NoSubmit :=
  Prog.Issues.tryBind (Prog.issues_lift (Prog.issues_issue trivial)) fun _ => Prog.issues_check

theorem checked_noSubmit (state : State) (cred : Credential) (scope : Option TrustedScope) (rotating : Bool) :
    (state.checked cred scope rotating).run.Issues NoSubmit := by
  unfold State.checked
  refine Prog.Issues.tryBind Prog.issues_check fun row => ?_
  refine Prog.Issues.tryBind nowMs_noSubmit fun now => ?_
  exact Prog.Issues.tryBind Prog.issues_check fun _ => trivial

namespace AccessGate

variable (gate : AccessGate)

theorem authenticate_noSubmit (credential : Option Credential) (scope : TrustedScope) :
    (gate.authenticate credential scope).run.Issues NoSubmit := by
  cases credential with
  | none => exact trivial
  | some credential =>
    refine Prog.Issues.tryBind (read_noSubmit gate.store) fun state => ?_
    exact Prog.Issues.tryBind (checked_noSubmit state credential (some scope) false) fun row => Prog.issues_check

theorem enter_noSubmit (credential : Option Credential) (scope : TrustedScope) (required : RoleKind) :
    (gate.enter credential scope required).run.Issues NoSubmit := by
  unfold enter
  refine Prog.Issues.tryBind (gate.authenticate_noSubmit credential scope) fun actor => ?_
  exact Prog.Issues.tryBind Prog.issues_check fun _ => trivial

theorem isRevoked_noSubmit (capability : CapabilityName) (keyId : KeyId) :
    (gate.isRevoked capability keyId).run.Issues NoSubmit :=
  Prog.Issues.tryBind (read_noSubmit gate.store) fun _ => trivial

theorem bootstrapReason_noSubmit : gate.bootstrapReason.run.Issues NoSubmit := by
  unfold bootstrapReason
  refine Prog.Issues.tryBind (read_noSubmit gate.store) fun state => ?_
  refine Prog.Issues.tryBind Prog.issues_check fun _ => ?_
  cases state.bootstraps <;> exact trivial

theorem issueReason_noSubmit (capability : CapabilityName) : (gate.issueReason capability).run.Issues NoSubmit := by
  unfold issueReason
  refine Prog.Issues.tryBind (read_noSubmit gate.store) fun state => ?_
  exact Prog.Issues.tryBind Prog.issues_check fun _ => trivial

end AccessGate

end Verdant.Access
