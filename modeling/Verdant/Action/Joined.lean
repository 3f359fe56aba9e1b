import Verdant.Action.Custody

/-!
# The joined path

One owned path from preview to send.  An authorizer reads the durable row again, refuses any row that has left
`admitted`, passes every gate on the fresh row, compares its generation with the durable one, and marks the row
dispatched last, immediately before the write is returned.  The outcome is recorded afterwards in a call of its own.
-/

namespace Verdant.Action

open Storage Prog

/-- A call of the joined path. -/
abbrev JoinedCall (α : Type) := Prog.Try (StoreOp.Answer (ρ := JournalTables)) CustodyError α

/-! ### Gates -/

/-- Only the real verified seal passes. -/
def requireSealVerified (preview : Preview) : Except CustodyError Unit :=
  if preview.sealVerified && preview.sealLedgerDigest.isSome then .ok ()
  else .error (.preview (.sealOrder
    "marker seal without real S03 custody/decode/reconstruct proof; joined handoff refused"))

/-- The resend brake. -/
def refuseResendWithoutQualifiedRecovery (admitted : Admitted) : Except CustodyError Unit :=
  match admitted.lifecycle with
  | .admitted => .ok ()
  | .dispatched | .unresolved => .error (.unknown admitted.operation.text admitted.attempt.text
      ("uncertain-not-resend: Dispatched/Unresolved after handoff; qualified recovery required before any resend; " ++
        "use read-only inspect_identical"))
  | .terminal => .error (.conflict "lifecycle terminal is final; reconcile history, do not resend")

/-- The handoff preview is the admitted identity. -/
def requirePreviewMatchesAdmission (admitted : Admitted) (preview : Preview) : Except CustodyError Unit := do
  Result.refuseIf (admitted.payload ≠ preview.canonicalBytes)
    (.preview (.invalid "admitted payload differs from handoff preview"))
  Result.refuseIf (admitted.wireBits ≠ some preview.encoded.wireBits)
    (.preview (.invalid "wire identity mismatch: distinct binary32 sharing rounded text"))
  Result.refuseIf (admitted.actionKind.map ActionKind.asStr ≠ some preview.actionKind)
    (.preview (.invalid "action kind mismatch: SET cannot authorize release and vice versa"))

/-- The activation barrier keeps the code of a blocked publication. -/
def activationError : PublicationError → CustodyError
  | .blocked detail => .publication (.blocked detail)
  | e => .ofPublication e

/-- The admitted generation is still the durable one. -/
def requireDurableCurrency (fresh : Admitted) : JoinedCall Unit := do
  let durable ← mapErr .ofWriter (attempt (durableCurrentGeneration fresh.scope fresh.equipment))
  check (Result.refuseIf (fresh.targetGeneration ≠ durable)
    (.dispatch (.staleGeneration fresh.targetGeneration durable)))

/-! ### Calls -/

def admitJoined (store : SqliteStore) (request : AdmissionRequest) : JoinedCall Admitted := do
  check (requireSealVerified request.preview)
  mapErr .ofWriter (attempt (admitRequest store { request with predecessor := none }))

/-- The path both authorizers take: they differ in the custody gates only. -/
def authorizeJoined (gates : Admitted → JoinedCall FrozenWrite) (store : SqliteStore) (reads : AcceptReads)
    (admitted : Admitted) (preview : Preview) : JoinedCall FrozenWrite := do
  check (requireSealVerified preview)
  let fresh ← mapErr .ofWriter (attempt (reconcileRow admitted.operation admitted.scope))
  check (refuseResendWithoutQualifiedRecovery fresh)
  check (requirePreviewMatchesAdmission fresh preview)
  check ((requireActivationCurrentForHandoff reads fresh.bindingRevision fresh.acceptedRevision).mapError
    activationError)
  let write ← gates fresh
  requireDurableCurrency fresh
  let _ ← mapErr .ofWriter (attempt (markDispatched store fresh.operation fresh.scope))
  return write

def authorizeJoinedSetpoint (store : SqliteStore) (reads : AcceptReads) (holds : ScopeHolds) (admitted : Admitted)
    (handoff : Handoff) : JoinedCall FrozenWrite :=
  authorizeJoined (fun fresh => authorizeSetpointViaCustody holds fresh handoff) store reads admitted handoff.preview

def authorizeJoinedRelease (store : SqliteStore) (reads : AcceptReads) (holds : ScopeHolds) (admitted : Admitted)
    (handoff : Handoff) : JoinedCall FrozenWrite :=
  authorizeJoined (fun fresh => authorizeReleaseViaCustody holds fresh handoff) store reads admitted handoff.preview

/-- Protocol result of one write. -/
inductive ProtocolResult where
  | confirmed
  | remoteError (errorClass code : UInt32)
  | reject (reason : UInt8)
  | abort (reason : UInt8)
  | timeout
  | invalidReply
  | transportFailure
  deriving DecidableEq, Repr

/-- The identities a harness outcome retains, and its protocol result. -/
structure Outcome where
  operation : String
  attempt : String
  scope : String
  equipment : String
  bindingRevision : UInt32
  acceptedRevision : UInt32
  targetGeneration : UInt32
  protocol : ProtocolResult

def Outcome.sameIdentity (outcome : Outcome) (admitted : Admitted) : Bool :=
  outcome.operation = admitted.operation.text && outcome.attempt = admitted.attempt.text &&
    outcome.scope = admitted.scope.text && outcome.equipment = admitted.equipment.text &&
    outcome.bindingRevision = admitted.bindingRevision.value &&
    outcome.acceptedRevision = admitted.acceptedRevision.value &&
    outcome.targetGeneration = admitted.targetGeneration

/-- Records a confirmed outcome as terminal. -/
def recordConfirmedTerminal (store : SqliteStore) (admitted : Admitted) (outcome : Outcome) : JoinedCall Admitted := do
  check (Result.refuseIf (!outcome.sameIdentity admitted) (.invalid "outcome identity differs from admitted"))
  check (Result.refuseIf (outcome.protocol ≠ .confirmed)
    (.invalid "only Confirmed maps to terminal; other outcomes need qualified recovery via unresolved"))
  mapErr .ofWriter (attempt (markTerminal store admitted.operation admitted.scope))

/-- Records an unknown or lost outcome as unresolved. -/
def recordUnknownUnresolved (store : SqliteStore) (admitted : Admitted) : JoinedCall Admitted :=
  mapErr .ofWriter (attempt (markUnresolved store admitted.operation admitted.scope))

end Verdant.Action
