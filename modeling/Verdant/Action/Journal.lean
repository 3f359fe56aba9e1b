import Verdant.Action.JournalTables
import Verdant.Action.Preview

/-!
# The action journal

Admission, reconciliation and lifecycle transitions as calls over the store.  `submit` first reconciles its ticket,
then commits it, then reads the row back; `transition` reads the row and writes the new state in a second step.  The
announcements to the in-memory queues after a commit are not part of the durable state and are left out.
-/

namespace Verdant.Action

open Storage TextCodec

/-- Typed admission failure. -/
inductive WriterError where
  | invalid (detail : String)
  | invalidDetail (what detail : String)
  | ceiling (have_ required : UInt8)
  | scopeDenied (expected presented : String)
  | conflict (detail : String)
  | staleGeneration (expected current : UInt32)
  | notFound (operation : String)
  | unknown (operation : OperationId) (detail : String)
  | rateExceeded (used limit : Nat)
  | deadlineExceeded (elapsedSecs deadlineSecs : Nat)
  | rateIndeterminate (reason : String)
  | storage (error : StorageError)
  deriving DecidableEq

def WriterError.ofStorage : StorageError → WriterError
  | .conflict detail => .conflict detail
  | e => .storage e

/-! ### Checks before a ticket -/

def checkCeiling (ceiling : UInt8) (role : RoleKind) : Except WriterError Unit :=
  match role with
  | .publisher => if ceiling < requiredPublishCeiling then .error (.ceiling ceiling requiredPublishCeiling) else .ok ()
  | .reviewer => .error (.ceiling ceiling requiredPublishCeiling)

def checkActor (raw : String) : Except WriterError Unit :=
  if raw = "" then .error (.invalid "empty actor")
  else if 128 < raw.utf8ByteSize then .error (.invalid "actor too long")
  else if !raw.toList.all idChar then .error (.invalid "actor characters")
  else if Char.ofNat 0x1f ∈ raw.toList ∨ '\n' ∈ raw.toList ∨ '\r' ∈ raw.toList then
    .error (.invalid "actor framing")
  else if raw = "VERDANT_BEGIN" ∨ raw = "VERDANT_DATA" ∨ raw = "VERDANT_END" then
    .error (.invalid "actor sentinel")
  else .ok ()

def ActionKind.fromPreview (preview : Preview) : ActionKind :=
  if preview.releaseAdmitted then .release else .set

def Identity.fromPreview (preview : Preview) : Identity where
  wireBits := preview.encoded.wireBits
  kind := .fromPreview preview
  releaseAdmitted := preview.releaseAdmitted
  releaseTarget := preview.releaseTarget

def checkPreview (preview : Preview) : Except WriterError Unit :=
  if preview.format ≠ previewFormat then .error (.invalid "preview format")
  else if preview.isReservation || preview.isDispatch || preview.isQualified then
    .error (.invalid "preview is information only")
  else if preview.timing.apduRetries ≠ apduRetries then .error (.invalid "apdu_retries frozen")
  else if preview.timing.durationSecs ≠ durationSecs then .error (.invalid "duration 15min")
  else if preview.timing.deadlineSecs ≠ deadlineSecs then .error (.invalid "deadline 5s")
  else if preview.timing.ratePerHour ≠ rateMaxPerHour then .error (.invalid "rate bound")
  else if preview.releaseAdmitted ≠ (ActionKind.fromPreview preview = .release : Bool) then
    .error (.invalid "release admission/kind mismatch")
  else .ok ()

/-- The arguments of one admission. -/
structure AdmissionRequest where
  operation : OperationId
  scope : TrustedScope
  ceiling : UInt8
  role : RoleKind
  actor : String
  preview : Preview
  expectedGeneration : UInt32
  predecessor : Option OperationId

/-- The values a request admits under its successor generation. -/
def AdmissionRequest.admission (request : AdmissionRequest) (targetGeneration : UInt32) : Admission where
  operation := request.operation
  scope := request.scope
  equipment := request.preview.target.equipment
  bindingRevision := request.preview.target.bindingRevision
  acceptedRevision := request.preview.target.acceptedRevision
  expectedGeneration := request.expectedGeneration
  targetGeneration := targetGeneration
  payload := request.preview.canonicalBytes
  deadlineSecs := request.preview.timing.deadlineSecs
  ceiling := request.ceiling
  actor := request.actor
  attempt := request.operation
  identity := .fromPreview request.preview
  predecessor := request.predecessor

/-- Every check that needs no ticket. -/
def AdmissionRequest.check (store : SqliteStore) (request : AdmissionRequest) : Except WriterError Admission := do
  checkCeiling request.ceiling request.role
  checkActor request.actor
  checkPreview request.preview
  if request.preview.target.scope ≠ request.scope then
    .error (.scopeDenied request.preview.target.scope.text request.scope.text)
  else match checkedSucc request.expectedGeneration with
    | none => .error (.invalid "target generation overflow")
    | some targetGeneration =>
      let payload := request.preview.canonicalBytes
      if payload = "" ∨ store.bounds.maxValueBytes < payload.utf8ByteSize then
        .error (.invalidDetail "payload" s!"payload is {payload.utf8ByteSize} bytes")
      else .ok (request.admission targetGeneration)

/-- Validated intent plus its retained storage ticket. -/
structure PendingAdmission where
  admission : Admission
  ticket : PreparedMutation JournalTables

/-- Prepares a request under the identity `id` the process has just drawn for the ticket. -/
def prepareWithPredecessor (store : SqliteStore) (id : String) (request : AdmissionRequest) :
    Except WriterError PendingAdmission :=
  match request.check store with
  | .error e => .error e
  | .ok admission =>
    match prepareGuardedBatch store id "1" (fun _ => true) (admissionBodyV2 admission)
      admission.payload.utf8ByteSize with
    | .error e => .error (.ofStorage e)
    | .ok ticket => .ok ⟨admission, ticket.withOperation admission.operation⟩

/-! ### Durable rows read back -/

/-- Durable admitted intent: the journal row with its lifecycle and the reconciliation flag. -/
structure Admitted where
  operation : OperationId
  scope : TrustedScope
  equipment : InstalledId
  bindingRevision : BindingRevision
  acceptedRevision : AcceptedRevision
  expectedGeneration : UInt32
  targetGeneration : UInt32
  payload : String
  deadlineSecs : Nat
  ceiling : UInt8
  actor : String
  attempt : OperationId
  reconciled : Bool
  wireBits : Option UInt32
  actionKind : Option ActionKind
  releaseAdmitted : Option Bool
  releaseTarget : Option InstalledId
  lifecycle : LifecycleState
  predecessor : Option OperationId
  createdSecs : Int
  deriving DecidableEq

/-- Legacy rounded payload: readable but stale. -/
def Admitted.isLegacy (admitted : Admitted) : Bool := admitted.wireBits.isNone || admitted.actionKind.isNone

/-- A value that has to be there. -/
def require {α : Type} (what : String) : Option α → Except WriterError α
  | some a => .ok a
  | none => .error (.invalid what)

private def undoubleQuotes : List Char → List Char
  | '\'' :: '\'' :: cs => '\'' :: undoubleQuotes cs
  | c :: cs => c :: undoubleQuotes cs
  | [] => []

/-- The text inside quotes, with its quotes undoubled; any other text as it is. -/
def stripQuotes (raw : String) : String :=
  match raw.toList with
  | '\'' :: rest => if rest.getLast? = some '\'' then String.ofList (undoubleQuotes rest.dropLast) else raw
  | _ => raw

/-- Nullable column text: `NULL` and the empty text are absent. -/
def parseNullable (raw : String) : Option String :=
  if raw = "NULL" ∨ raw = "" then none else some (stripQuotes raw)

/-- A nullable column whose text must parse. -/
def nullableColumn {α : Type} (what raw : String) (parse : String → Option α) : Except WriterError (Option α) :=
  match parseNullable raw with
  | none => .ok none
  | some text => (require what (parse text)).map some

def decodeLifecycleOrDefault : Option String → Except WriterError LifecycleState
  | none => .ok .admitted
  | some text => require "lifecycle state" (LifecycleState.parse text)

def parseUInt8 (s : String) : Option UInt8 := ((parseNat s).filter fun n => n < 256).map UInt8.ofNat

@[simp]
theorem parseUInt8_repr (n : UInt8) : parseUInt8 (Nat.repr n.toNat) = some n := by
  have hlt : n.toNat < 256 := n.toNat_lt
  simp [parseUInt8, hlt]

def parseBit (s : String) : Option Bool :=
  if s = "0" then some false else if s = "1" then some true else none

@[simp]
theorem parseBit_bitSql (b : Bool) : parseBit (bitSql b) = some b := by
  cases b <;> rfl

/-- The first thirteen columns. -/
def decodeBase (row : List String) (scope : TrustedScope) : Except WriterError Admitted :=
  match row with
  | [operation, scopeText, equipment, binding, accepted, expected, target, payload, deadline, ceiling, actor, attempt,
      state] => do
    let operation ← require "journal operation" (OperationId.parse operation).toOption
    Result.refuseIf (scopeText ≠ scope.text) (.scopeDenied scope.text scopeText)
    let equipment ← require "journal equipment" (InstalledId.parse equipment).toOption
    let binding ← require "journal binding revision" (parseUInt32 binding)
    let accepted ← require "journal accepted revision" (parseUInt32 accepted)
    let accepted ← require "journal accepted revision" (AcceptedRevision.new accepted)
    let expected ← require "journal expected generation" (parseUInt32 expected)
    let target ← require "journal target generation" (parseUInt32 target)
    Result.refuseIf (checkedSucc expected ≠ some target) (.invalid "journal generation order")
    Result.refuseIf (payload = "") (.invalid "journal payload")
    let deadline ← require "journal deadline" (parseU64 deadline)
    Result.refuseIf (deadline ≠ deadlineSecs) (.invalid "deadline 5s")
    let ceiling ← require "journal ceiling" (parseUInt8 ceiling)
    checkActor actor
    let attempt ← require "journal attempt" (OperationId.parse attempt).toOption
    Result.refuseIf (state ≠ "admitted") (.invalid "journal state")
    .ok {
      operation := operation
      scope := scope
      equipment := equipment
      bindingRevision := ⟨binding⟩
      acceptedRevision := accepted
      expectedGeneration := expected
      targetGeneration := target
      payload := payload
      deadlineSecs := deadline
      ceiling := ceiling
      actor := actor
      attempt := attempt
      reconciled := false
      wireBits := none
      actionKind := none
      releaseAdmitted := none
      releaseTarget := none
      lifecycle := .admitted
      predecessor := none
      createdSecs := 0 }
  | _ => .error (.invalid "journal row shape")

/-- The four identity columns. -/
def decodeIdentity (wire kind release target : String) (base : Admitted) : Except WriterError Admitted := do
  let wireBits ← nullableColumn "journal wire_bits" wire parseUInt32
  let actionKind ← nullableColumn "journal action kind" kind ActionKind.parse
  let releaseAdmitted ← nullableColumn "journal release admission" release parseBit
  let releaseTarget ← nullableColumn "journal release target" target fun s => (InstalledId.parse s).toOption
  let legacy := wireBits.isNone || actionKind.isNone || releaseAdmitted.isNone || releaseTarget.isNone
  let complete := wireBits.isSome && actionKind.isSome && releaseAdmitted.isSome && releaseTarget.isSome
  Result.refuseIf (!legacy && !complete) (.invalid "journal identity partial")
  .ok { base with
    wireBits := wireBits
    actionKind := actionKind
    releaseAdmitted := releaseAdmitted
    releaseTarget := releaseTarget }

/-- The lifecycle columns of the join. -/
def decodeLifecycle (created lifecycle predecessor : String) (base : Admitted) : Except WriterError Admitted := do
  let created ← require "journal created" (parseI64 created)
  let lifecycle ← decodeLifecycleOrDefault (parseNullable lifecycle)
  let predecessor ← nullableColumn "lifecycle predecessor" predecessor fun s =>
    (OperationId.parse (stripQuotes s)).toOption
  .ok { base with createdSecs := created, lifecycle := lifecycle, predecessor := predecessor }

/-- A journal row of the 0004, 0005 or 0006 shape. -/
def decodeRow (row : List String) (scope : TrustedScope) : Except WriterError Admitted :=
  match row.drop 13 with
  | [] => decodeBase row scope
  | [wire, kind, release, target] => do
    let base ← decodeBase (row.take 13) scope
    decodeIdentity wire kind release target base
  | [wire, kind, release, target, created, lifecycle, predecessor] => do
    let base ← decodeBase (row.take 13) scope
    let identified ← decodeIdentity wire kind release target base
    decodeLifecycle created lifecycle predecessor identified
  | _ => .error (.invalid "journal row shape")

/-- The first row of a read. -/
def decodeFirst (operation : OperationId) (scope : TrustedScope) : Rows → Except WriterError Admitted
  | [] => .error (.notFound operation.text)
  | row :: _ => decodeRow row scope

/-- The journal row of an operation in a scope; older shapes are tried where the schema lacks the newer columns. -/
def readRow (operation : OperationId) (scope : TrustedScope) : Call JournalTables (Except WriterError Admitted) := do
  match ← Call.read (readRowSql operation scope) with
  | .ok rows => return decodeFirst operation scope rows
  | .error e =>
    if e.missingSchema then
      match ← Call.read (legacyRowSql 17 operation scope) with
      | .ok rows => return decodeFirst operation scope rows
      | .error e =>
        if e.missingColumn then
          match ← Call.read (legacyRowSql 13 operation scope) with
          | .ok rows => return decodeFirst operation scope rows
          | .error e => return .error (.ofStorage e)
        else return .error (.ofStorage e)
    else return .error (.ofStorage e)

/-- `reconcile`: read-only recovery from the durable rows. -/
def reconcileRow (operation : OperationId) (scope : TrustedScope) :
    Call JournalTables (Except WriterError Admitted) := do
  return (← readRow operation scope).map fun found => { found with reconciled := true }

/-- The `current_generation` rows of one target. -/
def decodeGeneration : Rows → Except WriterError UInt32
  | [] => .ok 0
  | [[cell]] => require "target generation" (parseUInt32 cell)
  | _ => .error (.invalid "target generation shape")

def durableCurrentGeneration (scope : TrustedScope) (equipment : InstalledId) :
    Call JournalTables (Except WriterError UInt32) := do
  match ← Call.read (currentGenerationSql scope equipment) with
  | .ok rows => return decodeGeneration rows
  | .error e => return .error (.ofStorage e)

def decodeRateUsed : Rows → Except WriterError Nat
  | [[cell]] => require "rate count" (parseU32 cell)
  | _ => .error (.invalid "rate count shape")

def rateUsed (scope : TrustedScope) (equipment : InstalledId) : Call JournalTables (Except WriterError Nat) := do
  match ← Call.read (rateUsedSql scope equipment) with
  | .ok rows => return decodeRateUsed rows
  | .error e => return .error (.ofStorage e)

/-! ### Admission -/

/-- Lossless identical-retry comparison. -/
def requireIdentical (pending : PendingAdmission) (found : Admitted) : Except WriterError Unit :=
  let a := pending.admission
  if found.payload ≠ a.payload then .error (.conflict "operation identity reused with different payload")
  else if found.wireBits = none then
    .error (.conflict "operation identity reused: legacy rounded payload vs lossless identity")
  else if found.wireBits ≠ some a.identity.wireBits ∨ found.actionKind ≠ some a.identity.kind ∨
      found.releaseAdmitted ≠ some a.identity.releaseAdmitted ∨
      found.releaseTarget.map InstalledId.text ≠ some a.identity.releaseTarget.text then
    .error (.conflict "operation identity reused with different lossless identity (bits/kind/target)")
  else if found.predecessor.map OperationId.text ≠ a.predecessor.map OperationId.text then
    .error (.conflict "operation identity reused with different predecessor obligation link")
  else .ok ()

/-- The row of a pending admission, compared with it. -/
def readIdentical (pending : PendingAdmission) (reconciled : Bool) :
    Call JournalTables (Except WriterError Admitted) := do
  match ← readRow pending.admission.operation pending.admission.scope with
  | .error e => return .error e
  | .ok found => return (requireIdentical pending found).map fun _ => { found with reconciled := reconciled }

def tryReconcileTicket (store : SqliteStore) (pending : PendingAdmission) :
    Call JournalTables (Except WriterError (Option Admitted)) := do
  match ← Call.reconcile store pending.ticket with
  | .committed _ _ => return (← readIdentical pending true).map some
  | .notCommitted _ _ => return .ok none
  | .conflict _ detail => return .error (.conflict detail)
  | .unknown operation detail => return .error (.unknown operation detail)

def mapSubmitError : StorageError → WriterError
  | .sqliteFailure detail =>
    if containsText detail "UNIQUE constraint failed: action_journal.operation" then
      .conflict "journal operation already recorded with this store"
    else .storage (.sqliteFailure detail)
  | .conflict detail => .conflict detail
  | e => .storage e

/-- The error of a ticket that did not commit: a failed guard is reported with what the durable rows say now. -/
def admissionRefused (a : Admission) (error : StorageError) : Call JournalTables (Except WriterError Admitted) :=
  match error with
  | .sqliteFailure detail =>
    if containsText detail "CHECK constraint failed: admission_generation" then do
      match ← durableCurrentGeneration a.scope a.equipment with
      | .ok current => return .error (.staleGeneration a.expectedGeneration current)
      | .error e => return .error e
    else if containsText detail "admission_rate" then do
      match ← rateUsed a.scope a.equipment with
      | .ok used => return .error (.rateExceeded used ownedRateMaxPerHour)
      | .error _ => return .error (.rateExceeded ownedRateMaxPerHour ownedRateMaxPerHour)
    else return .error (mapSubmitError error)
  | e => return .error (mapSubmitError e)

def admissionAnswer (pending : PendingAdmission) : MutationOutcome → Call JournalTables (Except WriterError Admitted)
  | .committed _ _ => readIdentical pending false
  | .notCommitted _ error => admissionRefused pending.admission error
  | .conflict _ detail => return .error (.conflict detail)
  | .unknown operation detail => return .error (.unknown operation detail)

/-- `Journal::submit`: commits or reconciles one prepared admission. -/
def submitAdmission (store : SqliteStore) (pending : PendingAdmission) :
    Call JournalTables (Except WriterError Admitted) := do
  match ← tryReconcileTicket store pending with
  | .error e => return .error e
  | .ok (some committed) => return .ok committed
  | .ok none => admissionAnswer pending (← Call.submit store pending.ticket)

/-- `Journal::admit` and `Journal::admit_with_predecessor`: prepares, then submits with the same identities. -/
def admitRequest (store : SqliteStore) (request : AdmissionRequest) : Call JournalTables (Except WriterError Admitted) := do
  match prepareWithPredecessor store (← Call.draw) request with
  | .error e => return .error e
  | .ok pending => submitAdmission store pending

/-! ### Transitions -/

/-- The write step of a transition, and the read-back after its commit. -/
def writeTransition (store : SqliteStore) (operation : OperationId) (scope : TrustedScope)
    (newState : LifecycleState) : Call JournalTables (Except WriterError Admitted) := do
  let body := transitionBody operation newState
  match prepareGuardedBatch store (← Call.draw) "1" (fun _ => true) body (Script.text body).utf8ByteSize with
  | .error e => return .error (.ofStorage e)
  | .ok ticket =>
    match ← Call.submit store ticket with
    | .committed _ _ => readRow operation scope
    | .notCommitted _ error => return .error (mapSubmitError error)
    | .conflict _ detail => return .error (.conflict detail)
    | .unknown operation detail => return .error (.unknown operation detail)

/-- `Journal::transition`: the state is checked on a row read before the write. -/
def transition (store : SqliteStore) (operation : OperationId) (scope : TrustedScope) (newState : LifecycleState) :
    Call JournalTables (Except WriterError Admitted) := do
  match ← readRow operation scope with
  | .error e => return .error e
  | .ok current =>
    if current.lifecycle = .terminal ∧ newState ≠ .terminal then
      return .error (.conflict "lifecycle terminal is final; reconcile history, do not resend")
    else if current.lifecycle = newState then return .ok current
    else writeTransition store operation scope newState

def markDispatched (store : SqliteStore) (operation : OperationId) (scope : TrustedScope) :=
  transition store operation scope .dispatched

def markTerminal (store : SqliteStore) (operation : OperationId) (scope : TrustedScope) :=
  transition store operation scope .terminal

def markUnresolved (store : SqliteStore) (operation : OperationId) (scope : TrustedScope) :=
  transition store operation scope .unresolved

end Verdant.Action
