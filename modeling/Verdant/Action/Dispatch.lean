import Verdant.Action.Journal
import Verdant.Library.TryProg

/-!
# The local handoff boundary

Dispatch rechecks an admitted row against the preview and the current readings and encodes the frozen write: a Real with
the admitted bits, or NULL for an admitted release.  It reads the wall clock and the cancellation flag and writes nothing.
-/

namespace Verdant.Action

open Storage Prog

/-- Typed dispatch failure. -/
inductive DispatchError where
  | invalid (detail : String)
  | invalidDetail (what detail : String)
  | ceiling (have_ required : UInt8)
  | scopeDenied (expected presented : String)
  | staleGeneration (expected current : UInt32)
  | stalePayload (detail : String)
  | revisionMismatch (detail : String)
  | deadline
  | cancelled
  | nullNotAdmitted
  deriving DecidableEq

def frozenObjectType : UInt16 := 2
def frozenInstance : UInt32 := 2
def frozenProperty : UInt32 := 85
def frozenPriority : UInt8 := 8

/-- The admitted equipment a loopback destination is bound to; only the synthetic fixture has routes. -/
structure FrozenRoute where
  realm : InstalledId
  synthetic : realm.text = "ahu-1" ∨ realm.text = "vav-101"

/-- Current operator, binding and generation readings, supplied by the caller. -/
structure Current where
  actor : String
  ceiling : UInt8
  role : RoleKind
  bindingRevision : BindingRevision
  acceptedRevision : AcceptedRevision
  bindingStatus : BindingStatus
  currentGeneration : UInt32
  actor_valid : IsId actor

/-- The only encodable write: AV2, present value, priority 8, with Real bytes or NULL. -/
structure FrozenWrite where
  objectType : UInt16
  instanceNumber : UInt32
  property : UInt32
  priority : UInt8
  value : List UInt8
  wireBits : Option UInt32
  isRelease : Bool
  deriving DecidableEq, Repr

/-- `0x44` and the big-endian bits. -/
def realValueBytes (wireBits : UInt32) : List UInt8 :=
  [0x44, (wireBits >>> 24).toUInt8, (wireBits >>> 16).toUInt8, (wireBits >>> 8).toUInt8, wireBits.toUInt8]

def nullValueBytes : List UInt8 := [0x00]

/-- The Real write of a setpoint. -/
def FrozenWrite.set (wireBits : UInt32) : FrozenWrite where
  objectType := frozenObjectType
  instanceNumber := frozenInstance
  property := frozenProperty
  priority := frozenPriority
  value := realValueBytes wireBits
  wireBits := some wireBits
  isRelease := false

/-- The NULL write of a release. -/
def FrozenWrite.release (value : List UInt8) : FrozenWrite where
  objectType := frozenObjectType
  instanceNumber := frozenInstance
  property := frozenProperty
  priority := frozenPriority
  value := value
  wireBits := none
  isRelease := true

/-! ### Checks -/

/-- Read-only gate of the frozen profile. -/
def checkFrozenPreview (preview : Preview) : Except DispatchError Unit := do
  Result.refuseIf (preview.format ≠ previewFormat) (.invalid "preview format")
  Result.refuseIf (preview.isReservation || preview.isDispatch || preview.isQualified)
    (.invalid "preview is information only")
  Result.refuseIf (preview.priority ≠ frozenPriority) (.invalid "priority 8 commissioned")
  Result.refuseIf (preview.object.objectType ≠ frozenObjectType) (.invalid "synthetic Analog Value only")
  Result.refuseIf (preview.object.propertyId ≠ frozenProperty) (.invalid "synthetic presentValue only")
  Result.refuseIf (preview.object.arrayIndex.isSome) (.invalid "presentValue is scalar")
  Result.refuseIf (preview.unit.asStr ≠ "degC")
    (.invalidDetail "unit" s!"expects 'degC', presents '{preview.unit.asStr}'")
  Result.refuseIf (preview.timing.durationSecs ≠ durationSecs) (.invalid "duration 15min")
  Result.refuseIf (preview.timing.deadlineSecs ≠ deadlineSecs) (.invalid "deadline 5s")
  Result.refuseIf (preview.timing.apduRetries ≠ apduRetries) (.invalid "apdu_retries frozen")
  Result.refuseIf (preview.timing.ratePerHour ≠ rateMaxPerHour) (.invalid "rate bound")
  Result.refuseIf (!preview.encoded.requestedC.within rangeMinC rangeMaxC) (.invalid "setpoint range degC 20-24")
  Result.refuseIf (!preview.encoded.wireC.within rangeMinC rangeMaxC) (.invalid "wire range degC 20-24")
  Result.refuseIf (preview.encoded.roundingError.exceeds toleranceC) (.invalid "wire tolerance 0.1")
  Result.refuseIf (preview.encoded.wireBits ≠ preview.encoded.wireC.toBinary32) (.invalid "wire bits f32")
  Result.refuseIf (preview.feedback.status ≠ feedbackUnavailable) (.invalid "feedback unavailable")
  Result.refuseIf (preview.feedback.sourceTime.isSome) (.invalid "source_time None")

def checkDispatchCeiling (ceiling : UInt8) (role : RoleKind) : Except DispatchError Unit :=
  match role with
  | .publisher => Result.refuseIf (ceiling < requiredPublishCeiling) (.ceiling ceiling requiredPublishCeiling)
  | .reviewer => .error (.ceiling ceiling requiredPublishCeiling)

def checkBindingStatus : BindingStatus → Except DispatchError Unit
  | .imported => .ok ()
  | .valid => .ok ()
  | .observedQualified => .error (.invalid "no observed qualification here")

/-- Actor, ceiling, binding and value against the preview and the current readings. -/
def verifyContent (admitted : Admitted) (preview : Preview) (current : Current) (route : FrozenRoute) :
    Except DispatchError Unit := do
  Result.refuseIf admitted.isLegacy
    (.stalePayload "0004 rounded payload lacks lossless wire_bits/kind/target; re-admit with 0005 identity")
  checkDispatchCeiling current.ceiling current.role
  checkDispatchCeiling admitted.ceiling current.role
  Result.refuseIf (current.actor ≠ admitted.actor) (.invalid "actor changed since admission")
  Result.refuseIf (admitted.scope.text ≠ preview.target.scope.text)
    (.scopeDenied preview.target.scope.text admitted.scope.text)
  Result.refuseIf (admitted.equipment.text ≠ preview.target.equipment.text)
    (.invalid "equipment changed since preview")
  Result.refuseIf (route.realm.text ≠ admitted.equipment.text) (.invalid "frozen route realm mismatch")
  Result.refuseIf (admitted.bindingRevision ≠ preview.target.bindingRevision)
    (.revisionMismatch "binding revision changed since preview")
  Result.refuseIf (admitted.acceptedRevision ≠ preview.target.acceptedRevision)
    (.revisionMismatch "accepted revision changed since preview")
  Result.refuseIf (current.bindingRevision ≠ admitted.bindingRevision)
    (.revisionMismatch "binding revision not current")
  Result.refuseIf (current.acceptedRevision ≠ admitted.acceptedRevision)
    (.revisionMismatch "accepted revision not current")
  checkBindingStatus current.bindingStatus
  Result.refuseIf (admitted.payload ≠ preview.canonicalBytes) (.invalid "admitted payload differs from preview")
  Result.refuseIf (admitted.wireBits ≠ some preview.encoded.wireBits)
    (.invalid "wire identity mismatch: distinct binary32 sharing rounded text")
  Result.refuseIf (admitted.actionKind.map ActionKind.asStr ≠ some preview.actionKind)
    (.invalid "action kind mismatch: SET cannot authorize release and vice versa")
  Result.refuseIf (admitted.releaseAdmitted ≠ some preview.releaseAdmitted)
    (.invalid "release admission mismatch: swapped preview")
  Result.refuseIf (admitted.releaseTarget.map InstalledId.text ≠ some preview.releaseTarget.text)
    (.invalid "release target changed since admission")
  Result.refuseIf (admitted.deadlineSecs ≠ deadlineSecs) (.invalid "deadline 5s")

/-- The handoff needs the generation the admission expected, and the row its successor. -/
def verifyGeneration (admitted : Admitted) (current : Current) : Except DispatchError Unit :=
  if current.currentGeneration ≠ admitted.expectedGeneration then
    .error (.staleGeneration admitted.expectedGeneration current.currentGeneration)
  else match checkedSucc admitted.expectedGeneration with
    | none => .error (.invalid "target generation overflow")
    | some target => Result.refuseIf (target ≠ admitted.targetGeneration) (.invalid "journal generation order")

/-- Terminal is final. -/
def checkLifecycleForDispatch (admitted : Admitted) : Except DispatchError Unit :=
  match admitted.lifecycle with
  | .admitted | .dispatched | .unresolved => .ok ()
  | .terminal => .error (.invalid "lifecycle terminal is final; reconcile history, do not resend")

/-- `now.checked_sub(created)` on `i64`. -/
def checkedElapsed (created now : Int) : Option Int :=
  if -2 ^ 63 ≤ now - created ∧ now - created < 2 ^ 63 then some (now - created) else none

def verifyDurableWallForSetWithNow (admitted : Admitted) (now : Int) : Except DispatchError Unit :=
  let rollback : DispatchError := .invalidDetail "wall"
    "durable wall indeterminate (wall-rollback); fresh Instant cannot renew durable anchor"
  match checkedElapsed admitted.createdSecs now with
  | none => .error rollback
  | some elapsed =>
    if elapsed < 0 then .error rollback
    else Result.refuseIf (admitted.deadlineSecs ≤ elapsed.toNat) (.invalidDetail "wall"
      (s!"durable deadline wall expired: elapsed {elapsed.toNat}s >= deadline {admitted.deadlineSecs}s; " ++
        "fresh Instant cannot renew durable anchor"))

section Handoff

variable {ρ : Type}

/-- The wall read at the transport boundary. -/
def verifyDurableWallForSet (admitted : Admitted) : Prog.Try (StoreOp.Answer (ρ := ρ)) DispatchError Unit := do
  match ← (Call.wall : Call ρ (Option Nat)) with
  | none => check <| .error (.invalidDetail "wall"
      "durable wall indeterminate: clock before epoch; fresh Instant cannot renew durable anchor")
  | some now =>
    if 2 ^ 63 ≤ now then
      check <| .error (.invalidDetail "wall"
        "durable wall indeterminate: wall out of range; fresh Instant cannot renew durable anchor")
    else check (verifyDurableWallForSetWithNow admitted now)

/-- `DispatchCancel::check`. -/
def cancelCheck : Prog.Try (StoreOp.Answer (ρ := ρ)) DispatchError Unit := do
  let reading ← (Call.poll : Call ρ CancelReading)
  check (Result.refuseIf reading.pastDeadline .deadline)
  check (Result.refuseIf reading.cancelled .cancelled)

variable (admitted : Admitted) (preview : Preview) (current : Current) (route : FrozenRoute)

/-- Prepares a frozen setpoint write. -/
def prepareSetpoint : Prog.Try (StoreOp.Answer (ρ := ρ)) DispatchError FrozenWrite := do
  check (checkLifecycleForDispatch admitted)
  check (checkFrozenPreview preview)
  check (verifyContent admitted preview current route)
  check (verifyGeneration admitted current)
  verifyDurableWallForSet admitted
  check (Result.refuseIf (admitted.actionKind.map ActionKind.asStr ≠ some "set")
    (.invalid "SET admission required: release admission cannot authorize SET via swapped preview"))
  check (Result.refuseIf (preview.actionKind ≠ "set")
    (.invalid "SET preview required: release preview cannot authorize SET"))
  cancelCheck
  check (Result.refuseIf (admitted.wireBits ≠ some preview.encoded.wireBits)
    (.invalid "wire bits differ from admitted identity"))
  cancelCheck
  return .set preview.encoded.wireBits

/-- Prepares a frozen release: NULL only for an explicitly admitted release. -/
def prepareRelease : Prog.Try (StoreOp.Answer (ρ := ρ)) DispatchError FrozenWrite := do
  check (checkLifecycleForDispatch admitted)
  check (checkFrozenPreview preview)
  check (verifyContent admitted preview current route)
  check (verifyGeneration admitted current)
  cancelCheck
  let value ← check (preview.release.nullWire.mapError fun _ => DispatchError.nullNotAdmitted)
  check (Result.refuseIf (value ≠ nullValueBytes) (.invalid "null wire 0x00"))
  cancelCheck
  return .release value

end Handoff

end Verdant.Action
