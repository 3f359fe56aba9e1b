import Verdant.Api.Operations

/-!
# The readers of the coordinator

Authenticated, read-only calls: a scope's status, the work of its operations, the seal of a draft, and the validation of a
draft revision, in explicit pages.  None of them dispatches pending work, grants publication or refreshes content.
-/

namespace Verdant.Api

open TextCodec Storage Access Binding
open Accept (EffectiveConfig ObservedFact)

/-! ### Pages -/

def maxPage : Nat := 64

/-- Explicit pages; an offset is a bounded window, not a consistent snapshot. -/
structure PageRequest where
  offset : Nat
  size : Nat
  deriving DecidableEq, Repr

def PageRequest.new (offset size : Nat) : Except ApiError PageRequest :=
  if size = 0 ∨ maxPage < size ∨ maxWork < offset then .error (.limit "page requires size 1..=64 and offset 0..=256")
  else .ok ⟨offset, size⟩

structure Page (α : Type) where
  items : List α
  next : Option PageRequest

def page {α : Type} (items : List α) (request : PageRequest) : Page α where
  items := (items.drop request.offset).take request.size
  next := if request.offset + request.size < items.length then some ⟨request.offset + request.size, request.size⟩
    else none

/-! ### What readers report -/

inductive Diagnostic where
  | missingContent (reference : String)
  | missingFinding (prerequisite : String)
  | unqualified (key status : String)
  deriving DecidableEq, Repr

/-- Available bytes or an active event cannot establish readiness. -/
inductive Readiness where
  | unsupported
  | pending
  | unavailable (code : String)
  | unknown
  deriving DecidableEq, Repr

inductive Availability where
  | noAcceptance
  | available
  | unavailable (code : String)
  deriving DecidableEq, Repr

structure ScopeStatus (owners : Owners) where
  accepted : Option owners.Accepted
  active : Option owners.Activated
  acceptedContent : Availability
  activeContent : Option Availability
  operational : Readiness
  fieldAuthority : Readiness
  qualification : Readiness

/-- No effect row is not an assertion that the work was rolled back. -/
structure WorkStatus where
  operation : OperationId
  intentRow : Int
  author : String
  cancelRequested : Bool
  effectRow : Option Int
  effectKnown : Bool

/-- The seal of a draft by its original operation. -/
inductive SealLookup (owners : Owners) where
  | committed (operation : OperationId) (commit : owners.Commit)
  | pending (operation : OperationId)

def readinessOf (accepted : Availability) (active : Option Availability) : Readiness :=
  match active with
  | some (.unavailable code) => .unavailable code
  | _ =>
    match accepted with
    | .noAcceptance => .pending
    | .available => .unknown
    | .unavailable code => .unavailable code

/-! ### Validation -/

/-- The findings name the binding of the entry and one of the facts with its actor. -/
def factMatches (finding : Fields) (fact : ObservedFact) : Bool :=
  finding.lookup "fid" = some fact.id.text && finding.lookup "generation" = some (Nat.repr fact.generation.toNat) &&
    finding.lookup "digest" = some fact.digest &&
    match splitBinding fact.actor with
    | .error _ => false
    | .ok actor => ["capability", "scope", "capgen", "issuer"].all fun key =>
      match actor.lookup key with
      | none => false
      | some value => finding.lookup key = some value

def entryApproved (facts : List ObservedFact) (findings : List Fields) (entry : Accept.Entry) : Bool :=
  findings.any fun finding =>
    finding.lookup "binding" = some entry.binding.canonicalBytes && facts.any (factMatches finding)

/-- What is to say about one entry; no operation of the API qualifies it. -/
def entryDiagnostics (facts : List ObservedFact) (findings : List Fields) (entry : Accept.Entry) : List Diagnostic :=
  (if entryApproved facts findings entry then [] else [.missingFinding ("finding:" ++ entry.key.text)]) ++
    [.unqualified entry.key.text entry.binding.status.asStr]

def Reference.name (reference : Reference) : String :=
  s!"content:{reference.operation.text}:{reference.sequence}"

/-- The references of a content node. -/
def contentReference (raw : String) : Except ApiError Reference := do
  match ← decode raw 512 2 with
  | [operation, sequence] =>
    let operation ← (OperationId.parse operation).mapError fun _ => .invalid "content operation"
    RowKey.new operation (← numberUsize sequence)
  | _ => .error (.invalid "content reference framing")

def draftChildren (request : String) : Except ApiError (List String) := do
  match ← (Value.fromJson request).mapError fun _ => .invalid "draft JSON" with
  | .text content =>
    match ← decode content 65536 4 with
    | [version, state, _, children] =>
      if version ≠ "verdant-content-v1" ∨ state ≠ "valid-structural" then .error (.invalid "draft content framing")
      else decode children 65536 maxNodes
    | _ => .error (.invalid "draft content framing")
  | _ => .error (.invalid "draft content")

def selectContent (reference : Reference) : Query OutboxTables :=
  selectLog (s!"SELECT quote(value_json) FROM outbox WHERE operation={sqlQuote reference.operation.text} AND " ++
    s!"seq={sqlQuote (Nat.repr reference.sequence)} LIMIT 2;")
    (fun r => r.operation = reference.operation.text && r.seq = Nat.repr reference.sequence)
    (fun r => [sqlQuote r.valueJson]) (some 2)

/-- What the rows of a reference say: content that is missing, or a finding. -/
def citedFinding (reference : Reference) : Rows → Except ApiError (Diagnostic ⊕ Fields)
  | [] => .ok (.inl (.missingContent reference.name))
  | [[value]] =>
    -- approvals are finding rows, not a search through arbitrary content
    if reference.operation.text ≠ opFindingText then .error (.invalid "configuration approval must name a finding")
    else do
      let text ← textColumn value
      let map ← (splitBinding text).mapError ApiError.binding
      .ok (.inr map)
  | _ => .error (.conflict "ambiguous content reference")

/-- The content that is missing and the findings of the references, in their order. -/
def citations : List String → ApiCall (List Diagnostic × List Fields)
  | [] => return ([], [])
  | raw :: rest => do
    let reference ← Prog.check (contentReference raw)
    let rows ← readRows (selectContent reference)
    match ← Prog.check (citedFinding reference rows) with
    | .inl missing =>
      let (diagnostics, findings) ← citations rest
      return (missing :: diagnostics, findings)
    | .inr finding =>
      let (diagnostics, findings) ← citations rest
      return (diagnostics, finding :: findings)

def diagnose (config : EffectiveConfig) (missing : List Diagnostic) (findings : List Fields) :
    Except ApiError (List Diagnostic) :=
  let diagnostics := missing ++ config.entries.entries.flatMap (entryDiagnostics config.facts findings)
  if maxWork < diagnostics.length then .error (.limit "validation diagnostics") else .ok diagnostics

/-! ### Calls -/

/-- An owner's call whose failure is reported. -/
def OwnerCall.outcome {α : Type} (call : OwnerCall α) : ApiCall (Except String α) := liftM call.1

namespace Api

variable (api : Api) (owners : Owners)

def «sealed» (credential : Option Credential) (scope : TrustedScope) (revision : OperationId) :
    ApiCall (SealLookup owners) := do
  let draft ← api.read owners credential scope revision
  let history ← intents scope
  match history.find? fun i => i.kind = .seal && i.subject = draft.draft with
  | none => throw (.missing s!"seal:{draft.draft.text}")
  | some intent =>
    match ← api.sealEffect owners intent with
    | some commit => return .committed intent.operation commit
    | none => return .pending intent.operation

/-- Whether the content of an acceptance is there. -/
def contentOf (request : AcceptanceRequest) : ApiCall Availability := do
  match ← (owners.readStaged request.stagedOperation).outcome with
  | .error code => return .unavailable code
  | .ok config =>
    match ← (owners.sealed request.stagedOperation config request.seal).outcome with
    | .error code => return .unavailable code
    | .ok _ => return .available

def acceptedContent : Option owners.Accepted → ApiCall Availability
  | none => return .noAcceptance
  | some accepted => contentOf owners (owners.acceptedRequest accepted)

def activeContent : Option owners.Activated → ApiCall (Option Availability)
  | none => return none
  | some active => do
    let content ← contentOf owners (owners.activeRequest active)
    return some content

def status (credential : Option Credential) (scope : TrustedScope) : ApiCall (ScopeStatus owners) := do
  let _ ← api.authenticate credential scope false
  -- active first: an acceptance in between only extends the history
  let active ← (owners.active scope).run ApiError.accept
  let accepted ← (owners.current scope).run ApiError.accept
  let acceptedContent ← acceptedContent owners accepted
  let activeContent ← activeContent owners active
  return ⟨accepted, active, acceptedContent, activeContent, readinessOf acceptedContent activeContent, .unsupported,
    .unsupported⟩

/-- The row of the effect of an intent, and whether the coordinator knows it. -/
def effectOf (intent : Intent) : ApiCall (Option Int × Bool) :=
  match intent.kind with
  | .draft | .edit => do
    let stageOp ← Prog.check (child stageFront intent.operation)
    match ← api.effectRow stageOp with
    | none => return (none, true)
    | some row =>
      let _ ← api.readRevision owners intent
      return (some row, true)
  | .seal => do
    let commit ← api.sealEffect owners intent
    return (commit.map owners.commitRow, true)
  | .accept => do
    let request ← Prog.check (acceptanceRequest intent)
    let accepted ← (owners.reconcileAccept request).run ApiError.accept
    return (accepted.map owners.acceptedRow, true)
  | .finding => do
    let op ← Prog.check (child effectFront intent.operation)
    let row ← api.effectRow op
    return (row, true)
  | .provision | .recover | .rotate => return (none, false)

def workStatus (intent : Intent) : ApiCall WorkStatus := do
  let effect ← api.effectOf owners intent
  let stopped ← cancelled intent
  return ⟨intent.operation, intent.rowId, intent.actor, stopped, effect.1, effect.2⟩

def work (credential : Option Credential) (scope : TrustedScope) (op : OperationId) : ApiCall WorkStatus := do
  let _ ← api.authenticate credential scope false
  let intent ← findIntent scope op
  api.workStatus owners intent

def operations (credential : Option Credential) (scope : TrustedScope) (request : PageRequest) :
    ApiCall (Page WorkStatus) := do
  let _ ← api.authenticate credential scope false
  let selected := page (← intents scope) request
  let items ← selected.items.mapM (api.workStatus owners)
  return ⟨items, selected.next⟩

/-- Every referenced row that is missing and every entry without a finding; every entry is unqualified. -/
def validate (credential : Option Credential) (scope : TrustedScope) (op : OperationId) (request : PageRequest) :
    ApiCall (Page Diagnostic) := do
  let draft ← api.read owners credential scope op
  let intent ← findIntent scope op
  let children ← Prog.check (draftChildren intent.request)
  let (missing, findings) ← citations children
  let diagnostics ← Prog.check (diagnose draft.config missing findings)
  return page diagnostics request

end Api

end Verdant.Api
