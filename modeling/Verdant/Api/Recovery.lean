import Verdant.Api.Journal

/-!
# Synthetic recovery

A scope's recovery account: an entry-level administrator of its one scope, provisioned by a scoped administrator.  It
issues publishers of its scope or rotates itself, each under an intent of the journal; the answer of a retry is read off
the access state.
-/

namespace Verdant.Api

open TextCodec Storage Access Binding

/-- Closed recovery vocabulary. -/
inductive RecoveryAction where
  | rebootstrap (replacement : Credential)
  | rotate (keyId : KeyId) (key : SyntheticKey)

def credentialInput (credential : Credential) : String :=
  encode [credential.capability.text, credential.keyId.text, credential.key.fingerprint]

def reasonText (op : OperationId) : String := s!"PR09 synthetic recovery operation {op.text}"

def reason (op : OperationId) : Except ApiError Reason := (Reason.parse (reasonText op)).mapError ApiError.access

def recoveryName (scope : TrustedScope) : String := recoveryPrefix ++ scope.text

def checkRecovery (actor : ActorContext) (scope : TrustedScope) : Except ApiError Unit :=
  if actor.row.cap.text ≠ recoveryName scope ∨ actor.role ≠ .reviewer ∨ actor.bound.level ≠ 2 ∨
      actor.row.policy.scopes ≠ [scope] ∨ actor.row.policy.adminCeiling ≠ some 2 ∨
      actor.row.policy.expiresAtMs.isSome then
    .error .recoveryRestricted
  else .ok ()

/-- The administrator a provision needs. -/
def checkProvisioner (policy : CapabilityPolicy) (scope : TrustedScope) : Except ApiError Unit :=
  match policy.adminCeiling with
  | none => .error (.access .administrationDenied)
  | some ceiling =>
    if scope ∉ policy.scopes ∨ ceiling < 2 ∨ policy.expiresAtMs.isSome then .error .recoveryRestricted else .ok ()

namespace Api

variable (api : Api)

def access {α : Type} (call : AccessCall α) : ApiCall α := Prog.mapErr ApiError.access call

/-- Whether a credential authenticates; nothing for a capability nobody issued. -/
def known (credential : Credential) (scope : TrustedScope) : ApiCall (Option ActorContext) := do
  match ← (liftM (api.gate.authenticate (some credential) scope).run : ApiCall (Except AccessError ActorContext)) with
  | .ok actor => return some actor
  | .error (.unknownCapability _) => return none
  | .error e => throw (.access e)

/-- The newest issue of the capability was made by this operation. -/
def requireReason (capability : CapabilityName) (op : OperationId) (what : String) : ApiCall Unit := do
  let stored ← access (api.gate.issueReason capability)
  let expected ← Prog.check (reason op)
  if stored ≠ expected.text then throw (.conflict what) else return ()

def provisionRecovery (credential : Option Credential) (scope : TrustedScope) (op : OperationId) (keyId : KeyId)
    (key : SyntheticKey) : ApiCall Credential := do
  let actor ← api.authenticate credential scope true
  let owner ← requireCredential credential
  Prog.check (checkProvisioner actor.row.policy scope)
  let _ ← access api.gate.bootstrapReason
  let name ← Prog.check ((CapabilityName.parse (recoveryName scope)).mapError ApiError.access)
  let candidate : Credential := ⟨name, keyId, key⟩
  let event ← api.remember owner scope op .provision op none (credentialInput candidate) false
  match ← api.known candidate scope with
  | some actor =>
    Prog.check (checkRecovery actor scope)
    api.requireReason candidate.capability op "recovery account belongs to another provision operation"
    return candidate
  | none =>
    dispatchable event
    let why ← Prog.check (reason op)
    let label ← Prog.check ((DisplayLabel.parse "synthetic installation recovery").mapError ApiError.access)
    let policy ← Prog.check ((CapabilityPolicy.administrator [scope] 2 none).mapError ApiError.access)
    access (api.gate.issueWithPolicy candidate.capability scope 2 .reviewer keyId key owner why label policy)

/-- The actor is the publisher a recovery of this vocabulary issues. -/
def isRecovered (actor : ActorContext) : Bool :=
  actor.role = .publisher && actor.bound.level = 2 && actor.row.policy = .entryOnly none

/-- A new entry-only publisher of the same scope. -/
def rebootstrap (current : Credential) (scope : TrustedScope) (op : OperationId) (replacement : Credential) :
    ApiCall Credential := do
  let actor ← access (api.gate.authenticate (some current) scope)
  Prog.check (checkRecovery actor scope)
  if startsWith recoveryPrefix replacement.capability.text then throw .recoveryRestricted
  else
    let event ← api.remember current scope op .recover op none (credentialInput replacement) true
    match ← api.known replacement scope with
    | some actor =>
      -- a coincidentally existing credential is not recovery
      if isRecovered actor = false then throw (.conflict "replacement is not this recovery operation")
      else
        api.requireReason replacement.capability op "replacement is not this recovery operation"
        return replacement
    | none =>
      dispatchable event
      let why ← Prog.check (reason op)
      let label ← Prog.check ((DisplayLabel.parse "synthetic recovered scope publisher").mapError ApiError.access)
      access (api.gate.issue replacement.capability scope 2 .publisher replacement.keyId replacement.key current why
        label)

/-- The inputs of a rotation. -/
def rotationInput (current successor : Credential) : String :=
  encode [current.capability.text, current.keyId.text, credentialInput successor]

/-- A rotation whose current credential fails: its intent is there and its successor is in place. -/
def completedRotation (original : AccessError) (current successor : Credential) (scope : TrustedScope)
    (op : OperationId) : ApiCall Unit := do
  let old ← findIntent scope op
  if old.kind ≠ .rotate ∨ old.request ≠ rotationInput current successor then throw (.access original)
  else
    let actor ← access (api.gate.authenticate (some successor) scope)
    Prog.check (checkRecovery actor scope)
    api.requireReason current.capability op "rotation successor does not prove this operation"
    if ← access (api.gate.isRevoked current.capability current.keyId) then return ()
    else throw (.conflict "rotation successor does not prove this operation")

/-- The recovery account rotates itself; access carries its policy intact. -/
def rotate (current : Credential) (scope : TrustedScope) (op : OperationId) (keyId : KeyId) (key : SyntheticKey) :
    ApiCall Credential := do
  let successor : Credential := ⟨current.capability, keyId, key⟩
  let input := rotationInput current successor
  match ← (liftM (api.gate.authenticate (some current) scope).run : ApiCall (Except AccessError ActorContext)) with
  | .ok actor =>
    Prog.check (checkRecovery actor scope)
    let event ← api.remember current scope op .rotate op none input true
    dispatchable event
    let why ← Prog.check (reason op)
    access (api.gate.rotate current keyId key why)
  | .error original =>
    api.completedRotation original current successor scope op
    let _ ← api.remember successor scope op .rotate op none input true
    return successor

def recover (credential : Option Credential) (scope : TrustedScope) (op : OperationId) (action : RecoveryAction) :
    ApiCall Credential := do
  let current ← requireCredential credential
  let _ ← access api.gate.bootstrapReason
  match action with
  | .rebootstrap replacement => api.rebootstrap current scope op replacement
  | .rotate keyId key => api.rotate current scope op keyId key

end Api

end Verdant.Api
