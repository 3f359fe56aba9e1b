import Verdant.Api.Codec
import Verdant.Binding.Registry

/-!
# The intent journal

API-owned intent records only: one row of `outbox` for each operation a coordinator takes up, and one for each
cancellation.  `remember` reads the history of the scope, decides on it, and appends one row under a guard: the authority is
unchanged, the scope has as many intents as were read, and the operation has no journal receipt.  The identity of the
append is derived from the operation alone, so it is one over all scopes.
-/

namespace Verdant.Api

open TextCodec Storage Access Binding

/-- A fallible call of the coordinator. -/
abbrev ApiCall (α : Type) := Prog.Try (StoreOp.Answer (ρ := OutboxTables)) ApiError α

def maxWork : Nat := 256
def eventText : String := "api-intent-v1"
def cancelText : String := "api-cancel-v1"
def versionText : String := "verdant-api-v1"

inductive Kind where
  | draft
  | edit
  | seal
  | accept
  | finding
  | provision
  | recover
  | rotate
  deriving DecidableEq, Repr

namespace Kind

def text : Kind → String
  | .draft => "draft"
  | .edit => "edit"
  | .seal => "seal"
  | .accept => "accept"
  | .finding => "finding"
  | .provision => "provision"
  | .recover => "recover"
  | .rotate => "rotate"

def parse (raw : String) : Except ApiError Kind :=
  if raw = "draft" then .ok .draft
  else if raw = "edit" then .ok .edit
  else if raw = "seal" then .ok .seal
  else if raw = "accept" then .ok .accept
  else if raw = "finding" then .ok .finding
  else if raw = "provision" then .ok .provision
  else if raw = "recover" then .ok .recover
  else if raw = "rotate" then .ok .rotate
  else .error (.invalid "API intent kind")

@[simp]
theorem parse_text (kind : Kind) : parse kind.text = .ok kind := by
  cases kind <;> decide

/-- The kinds that write a revision of a draft. -/
def isRevision : Kind → Bool
  | .draft | .edit => true
  | _ => false

/-- The kinds that name the revision they start from. -/
def followsRevision : Kind → Bool
  | .edit | .seal => true
  | _ => false

end Kind

structure Intent where
  rowId : Int
  operation : OperationId
  scope : TrustedScope
  kind : Kind
  subject : OperationId
  parent : Option OperationId
  request : String
  actor : String
  deriving DecidableEq

namespace Intent

def fields (intent : Intent) : List String := [
  versionText, intent.operation.text, intent.scope.text, intent.kind.text, intent.subject.text,
  intent.parent.elim "" OperationId.text, intent.request, intent.actor]

def bytes (intent : Intent) : String := encode intent.fields

def decodeParent (raw : String) : Except ApiError (Option OperationId) :=
  if raw = "" then .ok none else (Api.operation raw).map some

def decodeFields (id : String) : List String → Except ApiError Intent
  | [version, op, scope, kind, subject, parent, request, actor] =>
    if version ≠ versionText then .error (.invalid "API intent version")
    else do
      let rowId ← numberI64 id
      let op ← Api.operation op
      let scope ← (TrustedScope.parse scope).mapError fun _ => .invalid "API intent scope"
      let kind ← Kind.parse kind
      let subject ← Api.operation subject
      let parent ← decodeParent parent
      .ok ⟨rowId, op, scope, kind, subject, parent, request, actor⟩
  | _ => .error (.invalid "API intent version")

def decode : List String → Except ApiError Intent
  | [id, value] => do
    let text ← textColumn value
    let intent ← decodeFields id (← Api.decode text 65536 8)
    if intent.rowId ≤ 0 ∨ intent.bytes ≠ text then .error (.invalid "API intent canonical bytes") else .ok intent
  | _ => .error (.invalid "API intent columns")

end Intent

/-! ### Coordinators -/

/-- A coordinator borrows the owners of one database, whose store has any bounds.  `paths` is what canonicalizing the
database paths gives when a call checks its authority. -/
structure Coordinator where
  gate : AccessGate
  registry : BindingRegistry
  paths : CanonicalPaths

/-- Every opener bounds the values of its store by 65536 bytes. -/
structure Api extends Coordinator where
  bounded : registry.store.bounds.maxValueBytes ≤ 65536

def recoveryPrefix : String := "api-recovery-"

def requireCredential (credential : Option Credential) : ApiCall Credential :=
  match credential with
  | some credential => return credential
  | none => throw .unauthenticated

def actorText (actor : ActorContext) : String :=
  s!"capability={pctEncode actor.row.cap.text};scope={pctEncode actor.bound.scope.text};" ++
    s!"capgen={actor.row.capgen.toNat};issuer={pctEncode actor.row.issuer.text}"

/-! ### Reads -/

/-- The rows of the intents of a scope. -/
def isIntentOf (scope : TrustedScope) (r : OutboxRecord) : Bool := r.operation = eventText && r.entity = scope.text

def isCancelOf (scope : TrustedScope) (value : String) (r : OutboxRecord) : Bool :=
  r.operation = cancelText && r.entity = scope.text && r.valueJson = value

def intentColumns (r : OutboxRecord) : List String := [Nat.repr r.id, sqlQuote r.valueJson]

def selectIntents (scope : TrustedScope) : Query OutboxTables :=
  selectLog (s!"SELECT id,quote(value_json) FROM outbox WHERE operation='{eventText}' AND entity=" ++
    s!"{sqlQuote scope.text} ORDER BY id LIMIT {maxWork + 1};") (isIntentOf scope) intentColumns (some (maxWork + 1))

def selectCancels (scope : TrustedScope) (value : String) : Query OutboxTables :=
  selectLog (s!"SELECT id FROM outbox WHERE operation='{cancelText}' AND entity={sqlQuote scope.text} AND " ++
    s!"value_json={sqlQuote value} LIMIT 2;") (isCancelOf scope value) (fun r => [Nat.repr r.id]) (some 2)

/-- The intents of the rows, each of the scope and of its own operation. -/
def joinIntents (scope : TrustedScope) : List OperationId → Rows → Except ApiError (List Intent)
  | _, [] => .ok []
  | seen, row :: rows => do
    let intent ← Intent.decode row
    if intent.scope ≠ scope ∨ intent.operation ∈ seen then .error (.invalid "API scope/operation join")
    else
      let rest ← joinIntents scope (intent.operation :: seen) rows
      .ok (intent :: rest)

def readRows (query : Query OutboxTables) : ApiCall Rows :=
  Prog.mapErr ApiError.storage (Prog.attempt (Call.read query))

def intents (scope : TrustedScope) : ApiCall (List Intent) := do
  let rows ← readRows (selectIntents scope)
  if maxWork < rows.length then throw (.limit "API scope history")
  else Prog.check (joinIntents scope [] rows)

def findIntent (scope : TrustedScope) (op : OperationId) : ApiCall Intent := do
  let history ← intents scope
  match history.find? fun i => i.operation = op with
  | some intent => return intent
  | none => throw (.missing s!"operation:{op.text}")

def cancelValue (op : OperationId) : String := (Value.text op.text).toJson

def cancelled (intent : Intent) : ApiCall Bool := do
  let rows ← readRows (selectCancels intent.scope (cancelValue intent.operation))
  if 1 < rows.length then throw (.invalid "duplicate cancellation") else return !rows.isEmpty

def dispatchable (intent : Intent) : ApiCall Unit := do
  if ← cancelled intent then throw .cancelled else return ()

/-! ### Receipts -/

/-- Only the barrier's explicit absence of a receipt is a noncommit. -/
def rowOutcome : MutationOutcome → Except ApiError (Option Int)
  | .committed _ rows =>
    match rows.head?.bind List.head? with
    | none => .error (.invalid "receipt row")
    | some raw => do
      let row ← numberI64 raw
      if row ≤ 0 then .error (.invalid "receipt row") else .ok (some row)
  | .notCommitted _ error =>
    if error = failure "no receipt at writer barrier" then .ok none else .error (.storage error)
  | .conflict _ _ => .error (.conflict "operation receipt conflict")
  | .unknown operation detail => .error (.unknown operation detail)

/-! ### Appends -/

def apiRow (kind : String) (scope : TrustedScope) (value : String) : NewRow where
  operation := kind
  entity := scope.text
  sensor := "api-intent"
  valueJson := value
  unit := "count"
  sourceMs := "0"
  receiptMs := "0"
  ingestionMs := "0"
  generation := "gen-1"
  seq := "1"

/-- The guard that the commit is before the expiry; its constraint has no name. -/
def apiLive : Option Int64 → Script OutboxTables
  | some expiry =>
    [{ createGuard "api_live" "" with text := "CREATE TEMP TABLE api_live(ok INTEGER NOT NULL CHECK(ok=1));" },
      insertGuard "api_live" "ok=1" s!"CAST(unixepoch('subsec')*1000 AS INTEGER)<{expiry.toInt}"
        fun s => s.now < expiry.toInt]
  | none => []

def insertApiText (kind : String) (scope : TrustedScope) : String :=
  "INSERT INTO outbox(operation,entity,sensor,value_json,unit,source_ms,receipt_ms,ingestion_ms,generation,seq," ++
    "status,claimed_by,created_nanos) VALUES (" ++ sqlQuote kind ++ "," ++ sqlQuote scope.text ++ ",'api-intent"

def insertApi (kind : String) (scope : TrustedScope) (value : String) : Statement OutboxTables :=
  insertRow (insertApiText kind scope ++ "'," ++ sqlQuote value ++
    ",'count','0','0','0','gen-1','1','queued',NULL,'0');") (apiRow kind scope value) fun _ => true

/-- A condition on the database with its SQL text. -/
structure Condition where
  text : String
  holds : Session OutboxTables → Bool

def Condition.ofGuard (guard : Guard) : Condition := ⟨guard.text, fun s => guard.holds s.tables⟩

/-! ### Foreign work -/

def journalFront : String := "api-journal"
def cancelFront : String := "api-cancel"

/-- The rows the coordinators write. -/
def isApiRow (r : OutboxRecord) : Bool := r.operation = eventText || r.operation = cancelText

/-- The receipts of the coordinators' own appends. -/
def isApiTicket (id : String) : Bool := startsWith (journalFront ++ "-") id || startsWith (cancelFront ++ "-") id

/-- An operation of another owner: it writes no row of the coordinators and takes none of their identities. -/
def Foreign : StoreOp OutboxTables → Prop
  | .submit _ pending => OtherOwner isApiRow pending ∧ isApiTicket pending.operation.text = false
  | _ => True

/-- A call of another owner, with its error by code. -/
def OwnerCall (α : Type) := {call : Call OutboxTables (Except String α) // call.Issues Foreign}

def OwnerCall.run {α : Type} (call : OwnerCall α) (error : String → ApiError) : ApiCall α :=
  Prog.mapErr error (Prog.attempt call.1)

namespace Coordinator

variable (api : Coordinator)

def append (op : OperationId) (kind : String) (scope : TrustedScope) (value : String) (condition : Condition)
    (expiry : Option Int64) : ApiCall Int := do
  let id ← (Call.draw : Call OutboxTables String)
  let pending ← Prog.check ((prepareGuardedBatch api.registry.store id condition.text condition.holds
    (apiLive expiry ++ [insertApi kind scope value]) value.utf8ByteSize).mapError ApiError.storage)
  let ticket := pending.withOperation op
  let first ← (Call.submit api.registry.store ticket : Call OutboxTables MutationOutcome)
  let outcome ← (match first with
    | .unknown _ _ => Call.reconcile api.registry.store ticket
    | other => pure other : Call OutboxTables MutationOutcome)
  match ← Prog.check (rowOutcome outcome) with
  | some row => return row
  | none => throw (.conflict "intent not committed")

def effectRow (op : OperationId) : ApiCall (Option Int) := do
  let outcome ← (Call.reconcileOperation api.registry.store op : Call OutboxTables MutationOutcome)
  Prog.check (rowOutcome outcome)

/-! ### Authority -/

def authority (credential : Option Credential) (scope : TrustedScope) (role : BindingRole) : ApiCall Authority :=
  Prog.mapErr ApiError.binding (Binding.authority api.gate credential scope role api.paths)

def authenticate (credential : Option Credential) (scope : TrustedScope) (write : Bool) : ApiCall ActorContext := do
  let actor ← Prog.mapErr ApiError.access (api.gate.authenticate credential scope)
  if startsWith recoveryPrefix actor.row.cap.text then throw .recoveryRestricted
  else
    let _ ← Prog.mapErr ApiError.access (if write then api.gate.enterPublish credential scope
      else api.gate.enterReview credential scope)
    return actor

end Coordinator

/-! ### Remembering -/

/-- The newest revision of a draft. -/
def latestRevision (history : List Intent) (subject : OperationId) : Option Intent :=
  history.reverse.find? fun i => i.subject = subject && i.kind.isRevision

/-- The intent of an operation that is there, for the same inputs. -/
def repeated (old : Intent) (kind : Kind) (subject : OperationId) (parent : Option OperationId) (request : String) :
    Except ApiError Intent :=
  if old.kind ≠ kind ∨ old.subject ≠ subject ∨ old.parent ≠ parent ∨ old.request ≠ request then
    .error (.conflict "operation identity reused with changed input")
  else .ok old

/-- Edits and seals start from the newest revision of a draft without a seal. -/
def requireLatest (history : List Intent) (subject : OperationId) (parent : Option OperationId) : Except ApiError Unit :=
  match parent with
  | none => .error (.invalid "draft parent")
  | some previous =>
    match latestRevision history subject with
    | none => .error (.missing "draft parent")
    | some latest =>
      if latest.operation ≠ previous then .error (.conflict "stale draft revision")
      -- a persisted seal intent freezes the draft before its dispatch
      else if history.any fun i => i.subject = subject && i.kind = .seal then .error .sealedMutation
      else .ok ()

def admitIntent (history : List Intent) (kind : Kind) (subject : OperationId) (parent : Option OperationId) :
    Except ApiError Unit :=
  if history.length = maxWork then .error (.limit "API scope history")
  else if kind.followsRevision then requireLatest history subject parent
  else .ok ()

/-- Nothing has changed since the reads: the authority, the scope's history and the journal receipt. -/
def unchanged (guard : Guard) (scope : TrustedScope) (count : Nat) (op : OperationId) : Condition where
  text := s!"({guard.text}) AND (SELECT COUNT(*) FROM outbox WHERE operation='{eventText}' AND entity=" ++
    s!"{sqlQuote scope.text})={count} AND NOT EXISTS(SELECT 1 FROM storage_receipts WHERE operation=" ++
    sqlQuote (journalFront ++ "-" ++ op.text) ++ ")"
  holds s := guard.holds s.tables && countIs (isIntentOf scope) count s.tables &&
    (findReceipt s.receipts (journalFront ++ "-" ++ op.text)).isNone

def expiryOf (authority : Authority) : Option Int64 := authority.report.actor.row.policy.expiresAtMs

namespace Coordinator

variable (api : Coordinator)

/-- The intent of an operation: the one there, or a new one.  Original authorship is retained. -/
def remember (credential : Credential) (scope : TrustedScope) (op : OperationId) (kind : Kind) (subject : OperationId)
    (parent : Option OperationId) (request : String) (recovery : Bool) : ApiCall Intent := do
  let _ ← Prog.check (operation op.text)
  let history ← intents scope
  let authority ← api.authority (some credential) scope (if recovery then .sense else .drive)
  match history.find? fun i => i.operation = op with
  | some old => Prog.check (repeated old kind subject parent request)
  | none =>
    Prog.check (admitIntent history kind subject parent)
    let intent : Intent := ⟨0, op, scope, kind, subject, parent, request, actorText authority.report.actor⟩
    let id ← Prog.check (child journalFront op)
    let row ← api.append id eventText scope (Value.text intent.bytes).toJson
      (unchanged authority.guard scope history.length op) (expiryOf authority)
    return { intent with rowId := row }

/-- Stops future dispatch, and rolls back no committed effect. -/
def cancel (credential : Option Credential) (scope : TrustedScope) (op : OperationId) : ApiCall Unit := do
  let _ ← api.authenticate credential scope true
  let intent ← findIntent scope op
  if ← cancelled intent then return ()
  else
    let authority ← api.authority credential scope .drive
    let id ← Prog.check (child cancelFront op)
    let _ ← api.append id cancelText scope (cancelValue op) (.ofGuard authority.guard) (expiryOf authority)
    return ()

end Coordinator

end Verdant.Api
