import Verdant.Accept.Effective
import Verdant.Api.Journal

/-!
# The operations of the coordinator

Drafts, edits, seals, acceptances and findings: each call authenticates, reads what it starts from, remembers its intent and
then hands the effect to the owner of its rows.  The acceptance and the seal owners come with the coordinator as programs
of their own (`Owners`); what they write is foreign to the journal.
-/

namespace Verdant.Api

open TextCodec Storage Access Binding
open Accept (EffectiveConfig)

/-! ### References -/

/-- An explicit durable reference: a row by its operation and sequence. -/
structure RowKey where
  operation : OperationId
  sequence : Nat
  deriving DecidableEq

def RowKey.new (operation : OperationId) (sequence : Nat) : Except ApiError RowKey :=
  if sequence = 0 then .error (.seal "seal-invalid") else .ok ⟨operation, sequence⟩

def RowKey.encode (key : RowKey) : String := encodeFrames [key.operation.text, Nat.repr key.sequence]

def RowKey.le (a b : RowKey) : Bool :=
  a.operation.text < b.operation.text || a.operation.text = b.operation.text && a.sequence ≤ b.sequence

abbrev Reference := RowKey

def Reference.row (reference : Reference) : Except ApiError RowKey := RowKey.new reference.operation reference.sequence

def maxNodes : Nat := 64
def maxNativeRefs : Nat := 8
def maxManifestBytes : Nat := 60000

/-- The JSON of a structural content node. -/
def contentNode (payload : String) (children : List RowKey) : Except ApiError String :=
  if 16384 < payload.utf8ByteSize ∨ maxNodes < children.length then .error (.seal "seal-limit")
  else
    let children := (children.mergeSort RowKey.le).destutter (· ≠ ·)
    .ok (Value.text (encodeFrames ["verdant-content-v1", "valid-structural", payload,
      encodeFrames (children.map RowKey.encode)])).toJson

/-- The texts of SHA-256 digests. -/
def IsDigest (raw : String) : Prop :=
  raw.utf8ByteSize = 64 ∧ raw.toList.all (fun c => c.isDigit || ('a' ≤ c && c ≤ 'f')) = true

instance (raw : String) : Decidable (IsDigest raw) := by
  unfold IsDigest
  infer_instance

structure Digest where
  text : String
  valid : IsDigest text
  deriving DecidableEq

def Digest.parse (raw : String) : Except ApiError Digest :=
  if h : IsDigest raw then .ok ⟨raw, h⟩ else .error (.seal "seal-invalid")

/-- Captured native content, by what a publication signs of it. -/
structure NativeRef where
  generation : Nat
  manifestDigest : Digest
  manifestBytes : Nat
  deriving DecidableEq

/-- Inert execution reference and explicitly captured content. -/
structure Publication where
  binary : String
  host : String
  native : List NativeRef

def runtimeText (raw : String) : Except ApiError Unit :=
  if raw = "" ∨ 256 < raw.utf8ByteSize ∨ raw.toList.any (fun c => c.val < 32 || (127 ≤ c.val && c.val < 160)) then
    .error (.seal "seal-invalid")
  else .ok ()

def Publication.signature (publication : Publication) : Except ApiError String := do
  runtimeText publication.binary
  runtimeText publication.host
  if publication.native = [] ∨ maxNativeRefs < publication.native.length then
    .error (.invalid "explicit native content required")
  else
    let refs := publication.native.map fun n =>
      encode [Nat.repr n.generation, n.manifestDigest.text, Nat.repr n.manifestBytes]
    let refs := (refs.mergeSort (fun a b => decide (a ≤ b))).destutter (· ≠ ·)
    .ok (encode [publication.binary, publication.host, encode refs])

/-! ### Owners -/

structure AcceptanceRequest where
  operation : OperationId
  expected : AcceptedRevision
  scope : TrustedScope
  stagedOperation : OperationId
  «seal» : Digest
  deriving DecidableEq

/-- What a seal is asked for. -/
structure SealDraft where
  revision : BindingRevision
  scope : TrustedScope
  publication : Publication
  root : RowKey

/-- The acceptance and the seal owners of the database: what they keep, and what their calls do. -/
structure Owners where
  /-- Configurations joined to a seal, tickets of their acceptance, and what is accepted and active. -/
  Sealed : Type
  Pending : Type
  Accepted : Type
  Activated : Type
  /-- Committed seals. -/
  Commit : Type
  identity : Commit → Digest
  commitRow : Commit → Int
  acceptedRow : Accepted → Int
  acceptedRequest : Accepted → AcceptanceRequest
  activeRequest : Activated → AcceptanceRequest
  readStaged : OperationId → OwnerCall EffectiveConfig
  stage : OperationId → EffectiveConfig → List RowKey → OwnerCall Unit
  sealed : OperationId → EffectiveConfig → Digest → OwnerCall Sealed
  prepare : AcceptanceRequest → Sealed → Credential → OwnerCall Pending
  submit : Pending → OwnerCall Accepted
  reconcileAccept : AcceptanceRequest → OwnerCall (Option Accepted)
  current : TrustedScope → OwnerCall (Option Accepted)
  active : TrustedScope → OwnerCall (Option Activated)
  «seal» : OperationId → SealDraft → Credential → OwnerCall Commit
  reconcileSeal : OperationId → Digest → OwnerCall (Option Commit)

/-- Immutable, resolved inputs to a retry. -/
structure DraftContent where
  config : EffectiveConfig
  findings : List Reference

structure DraftRevision where
  operation : OperationId
  draft : OperationId
  author : String
  config : EffectiveConfig

namespace DraftContent

variable (content : DraftContent)

def roots : Except ApiError (List RowKey) := content.findings.mapM Reference.row

def bytes : Except ApiError String := do
  contentNode content.config.canonicalBytes (← content.roots)

end DraftContent

/-! ### Fronts of the effects -/

def stageFront : String := "accept-stage"
def effectFront : String := "api-effect"

def selectStaged (row : Int) (operation : OperationId) (value : String) : Query OutboxTables :=
  selectLog (s!"SELECT id FROM outbox WHERE id={row} AND operation={sqlQuote operation.text} AND " ++
    s!"value_json={sqlQuote value};")
    (fun r => r.id = row && r.operation = operation.text && r.valueJson = value) (fun r => [Nat.repr r.id]) none

def sealText : String := "seal-revision-v1"

def selectSeal (row : Int) : Query OutboxTables :=
  selectLog s!"SELECT quote(value_json) FROM outbox WHERE id={row} AND operation='{sealText}';"
    (fun r => r.id = row && r.operation = sealText) (fun r => [sqlQuote r.valueJson]) none

def selectFinding (row : Int) : Query OutboxTables :=
  selectLog s!"SELECT seq FROM outbox WHERE id={row} AND operation='{opFindingText}';"
    (fun r => r.id = row && r.operation = opFindingText) (fun r => [r.seq]) none

/-- The digest a seal row names. -/
def sealIdentity (rows : Rows) : Except ApiError Digest :=
  match rows with
  | [[raw]] => do
    match ← decode (← textColumn raw) (maxManifestBytes + 256) 3 with
    | [version, digest, _] =>
      if version ≠ "seal-row-v1" then .error (.invalid "seal row framing") else Digest.parse digest
    | _ => .error (.invalid "seal row framing")
  | [_] => .error (.invalid "seal receipt columns")
  | _ => .error (.conflict "seal receipt row kind")

/-- The sequence a finding row carries. -/
def findingReference (rows : Rows) : Except ApiError Reference :=
  match rows with
  | [[seq]] => do
    let kind ← (OperationId.parse opFindingText).mapError fun _ => .invalid "finding kind"
    RowKey.new kind (← numberUsize seq)
  | [_] => .error (.invalid "finding columns")
  | _ => .error (.conflict "finding receipt row")

def acceptanceBytes (request : AcceptanceRequest) : String :=
  encode [Nat.repr request.expected.value.toNat, request.stagedOperation.text, request.seal.text]

def acceptanceFields (intent : Intent) : List String → Except ApiError AcceptanceRequest
  | [expected, stagedOperation, digest] => do
    let operation ← child effectFront intent.operation
    let value ← numberU32 expected
    match AcceptedRevision.new value with
    | none => .error (.accept "accept-limit")
    | some expected =>
      let stagedOperation ← (OperationId.parse stagedOperation).mapError fun _ => .invalid "staged operation"
      let digest ← Digest.parse digest
      .ok ⟨operation, expected, intent.scope, stagedOperation, digest⟩
  | _ => .error (.invalid "acceptance input")

def acceptanceRequest (intent : Intent) : Except ApiError AcceptanceRequest :=
  if intent.kind ≠ .accept then .error (.invalid "not an acceptance operation")
  else do acceptanceFields intent (← decode intent.request 512 3)

/-- The binding of a named key. -/
def findEntry (config : EffectiveConfig) (key : String) : Option ProposedBinding :=
  (config.entries.entries.find? fun entry => entry.key.text = key).map Accept.Entry.binding

/-- What a finding is recorded about. -/
def findingInput (revision : OperationId) (key : String) (binding : ProposedBinding) (at_ : BindingRevision) : String :=
  encode [revision.text, key, binding.canonicalBytes, Nat.repr at_.value.toNat]

namespace Api

variable (api : Api) (owners : Owners)

/-! ### Drafts -/

def readRevision (intent : Intent) : ApiCall DraftRevision := do
  if ¬ intent.kind.isRevision then throw (.invalid "not a draft revision")
  else
    let stageOp ← Prog.check (child stageFront intent.operation)
    match ← api.effectRow stageOp with
    | none => throw (.missing s!"pending-stage:{intent.operation.text}")
    | some row =>
      let rows ← readRows (selectStaged row stageOp intent.request)
      if rows ≠ [[toString row]] then throw (.conflict "staged bytes/intent mismatch")
      else
        let config ← (owners.readStaged stageOp).run ApiError.accept
        if config.scope ≠ intent.scope then throw (.conflict "staged scope differs")
        else return ⟨intent.operation, intent.subject, intent.actor, config⟩

def read (credential : Option Credential) (scope : TrustedScope) (op : OperationId) :
    ApiCall DraftRevision := do
  let _ ← api.authenticate credential scope false
  let intent ← findIntent scope op
  api.readRevision owners intent

/-- A draft, or an edit of the revision `old`. -/
def writeDraft (credential : Option Credential) (op : OperationId) (old : Option DraftRevision)
    (content : DraftContent) : ApiCall DraftRevision := do
  let scope := content.config.scope
  let _ ← api.authenticate credential scope true
  let held ← requireCredential credential
  let subject := old.elim op DraftRevision.draft
  let request ← Prog.check content.bytes
  let event ← api.remember held scope op (if old.isSome then .edit else .draft) subject
    (old.map DraftRevision.operation) request false
  let stageOp ← Prog.check (child stageFront op)
  if (← api.effectRow stageOp).isNone then
    dispatchable event
    -- the intent is durable: an interrupted second commit is pending
    let roots ← Prog.check content.roots
    (owners.stage stageOp content.config roots).run ApiError.accept
  api.read owners (some held) scope op

def draft (credential : Option Credential) (op : OperationId) (content : DraftContent) :
    ApiCall DraftRevision := api.writeDraft owners credential op none content

/-- Edits append a new staged snapshot; the parent is the revision compared and swapped. -/
def edit (credential : Option Credential) (op parent : OperationId) (content : DraftContent) :
    ApiCall DraftRevision := do
  let old ← api.read owners credential (content.config.scope) parent
  api.writeDraft owners credential op (some old) content

/-! ### Seals -/

def sealEffect (intent : Intent) : ApiCall (Option owners.Commit) := do
  if intent.kind ≠ .seal then throw (.invalid "not a seal operation")
  else
    let op ← Prog.check (child effectFront intent.operation)
    match ← api.effectRow op with
    | none => return none
    | some row =>
      let rows ← readRows (selectSeal row)
      let digest ← Prog.check (sealIdentity rows)
      (owners.reconcileSeal op digest).run ApiError.seal

def «seal» (credential : Option Credential) (scope : TrustedScope) (op revision : OperationId)
    (publication : Publication) : ApiCall owners.Commit := do
  let _ ← api.authenticate credential scope true
  let held ← requireCredential credential
  let draft ← api.read owners (some held) scope revision
  let request ← Prog.check publication.signature
  let intent ← api.remember held scope op .seal draft.draft (some revision) request false
  match ← api.sealEffect owners intent with
  | some commit => return commit
  | none =>
    dispatchable intent
    let stageOp ← Prog.check (child stageFront draft.operation)
    let root ← Prog.check (RowKey.new stageOp 1)
    let effect ← Prog.check (child effectFront op)
    (owners.seal effect ⟨draft.config.bindingRevision, scope, publication, root⟩ held).run ApiError.seal

/-! ### Acceptance -/

/-- Durably prepares an acceptance without dispatching it. -/
def prepareAccept (credential : Option Credential) (scope : TrustedScope) (op sealOperation : OperationId)
    (expected : AcceptedRevision) : ApiCall AcceptanceRequest := do
  let _ ← api.authenticate credential scope true
  let held ← requireCredential credential
  let sealedIntent ← findIntent scope sealOperation
  match ← api.sealEffect owners sealedIntent with
  | none => throw (.missing "pending-seal")
  | some commit =>
    match sealedIntent.parent with
    | none => throw (.invalid "seal parent")
    | some revision =>
      let effect ← Prog.check (child effectFront op)
      let stageOp ← Prog.check (child stageFront revision)
      let request : AcceptanceRequest := ⟨effect, expected, scope, stageOp, owners.identity commit⟩
      let _ ← api.remember held scope op .accept sealedIntent.subject (some sealOperation)
        (acceptanceBytes request) false
      return request

def submitAccept (credential : Option Credential) (scope : TrustedScope) (op : OperationId) :
    ApiCall owners.Accepted := do
  let _ ← api.authenticate credential scope true
  let held ← requireCredential credential
  let intent ← findIntent scope op
  let request ← Prog.check (acceptanceRequest intent)
  match ← (owners.reconcileAccept request).run ApiError.accept with
  | some accepted => return accepted
  | none =>
    dispatchable intent
    let config ← (owners.readStaged request.stagedOperation).run ApiError.accept
    let sealed ← (owners.sealed request.stagedOperation config request.seal).run ApiError.accept
    let pending ← (owners.prepare request sealed held).run ApiError.accept
    (owners.submit pending).run ApiError.accept

def accept (credential : Option Credential) (scope : TrustedScope) (op sealOperation : OperationId)
    (expected : AcceptedRevision) : ApiCall owners.Accepted := do
  let _ ← api.prepareAccept owners credential scope op sealOperation expected
  api.submitAccept owners credential scope op

/-! ### Findings -/

def recordFinding (credential : Option Credential) (scope : TrustedScope) (op revision : OperationId) (key : String) :
    ApiCall Reference := do
  let _ ← api.authenticate credential scope true
  let held ← requireCredential credential
  let draft ← api.read owners (some held) scope revision
  match findEntry draft.config key with
  | none => throw (.missing s!"entry:{key}")
  | some binding =>
    let at_ := draft.config.bindingRevision
    let intent ← api.remember held scope op .finding draft.draft (some revision)
      (findingInput revision key binding at_) false
    let effect ← Prog.check (child effectFront op)
    if (← api.effectRow effect).isNone then
      dispatchable intent
      let _ ← Prog.mapErr ApiError.binding
        (api.registry.emitFindingOperation effect at_ api.gate binding held api.paths)
    match ← api.effectRow effect with
    | none => throw (.missing "finding receipt")
    | some row =>
      let rows ← readRows (selectFinding row)
      Prog.check (findingReference rows)

end Api

end Verdant.Api
