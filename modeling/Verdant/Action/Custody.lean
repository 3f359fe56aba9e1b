import Verdant.Action.Publication

/-!
# Custody gates and transfers

Custody adds the scoped holds and the revocation order to the publication gates.  A transfer moves an obligation by a new
admission whose ticket carries the old operation as its predecessor; it is compared with the row the caller holds before
the ticket.
-/

namespace Verdant.Action

open Storage Prog

/-- Typed custody failure. -/
inductive CustodyError where
  | invalid (detail : String)
  | held (scope detail : String)
  | revoked (detail : String)
  | excluded (detail : String)
  | blocked (detail : String)
  | transfer (detail : String)
  | conflict (detail : String)
  | unknown (operation attempt detail : String)
  | dispatch (error : DispatchError)
  | admission (error : WriterError)
  | publication (error : PublicationError)
  | preview (error : PreviewError)
  deriving DecidableEq

def CustodyError.ofWriter : WriterError → CustodyError
  | .conflict detail => .conflict detail
  | .unknown operation detail => .unknown operation.text operation.text detail
  | e => .admission e

def CustodyError.ofPublication : PublicationError → CustodyError
  | .excluded detail => .excluded detail
  | .revoked detail => .revoked detail
  | .blocked detail => .blocked detail
  | e => .publication e

/-! ### Holds -/

inductive HoldKind where
  | active
  | masked
  deriving DecidableEq, Repr

def HoldKind.asStr : HoldKind → String
  | .active => "active-hold"
  | .masked => "masked-hold"

structure CustodyHold where
  scope : String
  kind : HoldKind
  reason : String
  deriving DecidableEq

/-- The hold set: at most one hold of a scope. -/
structure ScopeHolds where
  held : List CustodyHold
  distinct : (held.map CustodyHold.scope).Nodup

def ScopeHolds.find (holds : ScopeHolds) (scope : String) : Option CustodyHold :=
  holds.held.find? fun hold => hold.scope = scope

def ScopeHolds.isHeld (holds : ScopeHolds) (scope : String) : Bool := (holds.find scope).isSome

def ScopeHolds.checkNotHeld (holds : ScopeHolds) (scope : String) : Except CustodyError Unit :=
  match holds.find scope with
  | none => .ok ()
  | some hold => .error (.held scope
      s!"{hold.kind.asStr} '{hold.scope}' blocks new handoffs, pending rows kept: {hold.reason}")

/-- A held scope permits the two cleanups of the original target only. -/
def checkHeldForCleanup (holds : ScopeHolds) (scope cleanup : String) (isOriginalTarget : Bool) :
    Except CustodyError Unit :=
  if !holds.isHeld scope then .ok ()
  else if cleanup = "cancel-unattempted" ∨ cleanup = "admitted-null-release" then
    if isOriginalTarget then .ok ()
    else .error (.blocked
      (s!"blocked-cleanup: held scope '{scope}' permits only original-target {cleanup}; " ++
        "obligation still outstanding"))
  else holds.checkNotHeld scope

def checkPreHandoffNotRevoked (isRevoked : Bool) (actor : String) : Except CustodyError Unit :=
  Result.refuseIf isRevoked (.revoked (revokedDetail actor))

theorem ScopeHolds.checkNotHeld_eq_ok {holds : ScopeHolds} {scope : String} :
    holds.checkNotHeld scope = .ok () ↔ holds.isHeld scope = false := by
  unfold checkNotHeld isHeld
  cases holds.find scope <;> simp

/-! ### Handoffs -/

section Handoff

variable {ρ : Type} (holds : ScopeHolds) (admitted : Admitted) (handoff : Handoff)

def authorizeSetpointViaCustody : Prog.Try (StoreOp.Answer (ρ := ρ)) CustodyError FrozenWrite := do
  check (holds.checkNotHeld admitted.scope.text)
  check (checkPreHandoffNotRevoked handoff.isRevoked admitted.actor)
  mapErr .ofPublication (authorizeSetpointViaPublication admitted handoff)

/-- The release goes to the target the row admitted. -/
def isOriginalTarget : Bool :=
  admitted.actionKind = some .release && admitted.releaseAdmitted = some true && handoff.preview.releaseAdmitted &&
    admitted.releaseTarget.map InstalledId.text = some handoff.preview.releaseTarget.text &&
    admitted.equipment.text = handoff.preview.target.equipment.text

def authorizeReleaseViaCustody : Prog.Try (StoreOp.Answer (ρ := ρ)) CustodyError FrozenWrite := do
  check (checkHeldForCleanup holds admitted.scope.text "admitted-null-release" (isOriginalTarget admitted handoff))
  check (checkPreHandoffNotRevoked handoff.isRevoked admitted.actor)
  mapErr .ofPublication (authorizeReleaseViaPublication admitted handoff)

end Handoff

/-! ### Transfers -/

/-- Obligations of an excluded actor move to a permitted one, under a new operation. -/
def checkTransferNarrow (oldOperation newOperation oldActor newActor : String) (oldExcluded newIsPermitted : Bool) :
    Except CustodyError Unit := do
  Result.refuseIf (oldOperation = "" ∨ newOperation = "" ∨ oldActor = "" ∨ newActor = "")
    (.invalid "transfer identities non-empty")
  Result.refuseIf (128 < oldOperation.utf8ByteSize ∨ 128 < newOperation.utf8ByteSize)
    (.invalid "transfer operation length")
  Result.refuseIf (128 < oldActor.utf8ByteSize ∨ 128 < newActor.utf8ByteSize) (.invalid "transfer actor length")
  Result.refuseIf (oldOperation = newOperation)
    (.transfer "transfer requires a NEW admission OperationId; never rewrite operation in place")
  Result.refuseIf (oldActor = newActor)
    (.transfer "transfer requires a distinct active actor; never rewrite actor in place")
  Result.refuseIf (!oldExcluded)
    (.transfer "transfer requires exclusion of the old actor; old obligations keep old IDs until excluded")
  Result.refuseIf (!newIsPermitted)
    (.transfer ("transfer requires an active permitted role; never broaden authority automatically, " ++
      "never orphan without owner"))

/-- The successor preview is the old obligation: target, revisions, bits, kind, release and slot. -/
def checkTransferEquivalence (old : Admitted) (preview : Preview) : Except CustodyError Unit := do
  Result.refuseIf (old.equipment.text ≠ preview.target.equipment.text)
    (.transfer "transfer equivalence refuses equipment change; separate authorized SET required")
  Result.refuseIf (old.bindingRevision ≠ preview.target.bindingRevision)
    (.transfer "transfer equivalence refuses binding-revision change; separate authorized SET required")
  Result.refuseIf (old.acceptedRevision ≠ preview.target.acceptedRevision)
    (.transfer "transfer equivalence refuses accepted-revision change; separate authorized SET required")
  match old.wireBits with
  | none =>
    .error (.transfer "transfer equivalence refuses legacy rounded payload; re-admit with lossless identity")
  | some bits =>
    Result.refuseIf (bits ≠ preview.encoded.wireBits)
      (.transfer "transfer equivalence refuses value/wire_bits change; separate authorized SET required")
    Result.refuseIf (old.actionKind.map ActionKind.asStr ≠ some preview.actionKind)
      (.transfer "transfer equivalence refuses kind change; SET cannot become release via transfer")
    Result.refuseIf (old.releaseAdmitted ≠ some preview.releaseAdmitted)
      (.transfer "transfer equivalence refuses release-admission change; separate authorized SET required")
    Result.refuseIf (old.releaseTarget.map InstalledId.text ≠ some preview.releaseTarget.text)
      (.transfer "transfer equivalence refuses release-target change; release cannot migrate hardware")
    Result.refuseIf (preview.priority ≠ 8)
      (.transfer "transfer equivalence refuses slot change; separate authorized SET required")

/-- What a transfer asks besides the old row. -/
structure TransferRequest where
  operation : OperationId
  scope : TrustedScope
  ceiling : UInt8
  role : RoleKind
  actor : String
  preview : Preview
  expectedGeneration : UInt32
  isPermitted : Bool

/-- The admission a transfer submits: the old operation is its predecessor. -/
def TransferRequest.admissionRequest (request : TransferRequest) (old : OperationId) : AdmissionRequest where
  operation := request.operation
  scope := request.scope
  ceiling := request.ceiling
  role := request.role
  actor := request.actor
  preview := request.preview
  expectedGeneration := request.expectedGeneration
  predecessor := some old

/-- The checks of a transfer before its ticket. -/
def checkTransfer (holds : ScopeHolds) (exclusion : Option OldWriterExclusion) (old : Admitted)
    (request : TransferRequest) : Except CustodyError Unit := do
  holds.checkNotHeld request.scope.text
  Result.refuseIf (old.scope.text ≠ request.scope.text)
    (.transfer "transfer stays within the admitted scope; never broaden scope automatically")
  checkTransferNarrow old.operation.text request.operation.text old.actor request.actor
    ((exclusion.map fun gate => gate.excludes old.actor).getD false) request.isPermitted
  checkTransferEquivalence old request.preview

def transferNarrowViaNewAdmission (store : SqliteStore) (holds : ScopeHolds) (exclusion : Option OldWriterExclusion)
    (old : Admitted) (request : TransferRequest) : Prog.Try (StoreOp.Answer (ρ := JournalTables)) CustodyError Admitted := do
  check (checkTransfer holds exclusion old request)
  mapErr .ofWriter (attempt (admitRequest store (request.admissionRequest old.operation)))

end Verdant.Action
