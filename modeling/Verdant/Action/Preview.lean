import Verdant.Domain.Binary64
import Verdant.Domain.Types
import Verdant.Library.Result

/-!
# Previews

A preview is revision-bound information, not a reservation and not dispatch: the target, the priority and object, the
encoded setpoint with its `f32` bits, the frozen timing and the release plan.  `Preview.preview` makes one, with its
checks in their frozen order.
-/

namespace Verdant.Action

/-! ### The frozen profile -/

def previewFormat : String := "verdant-preview-v1"
def commissionedPriority : UInt8 := 8
def protectedMax : UInt8 := 3
def maxPriority : UInt8 := 16
def rangeMinC : Rat := 20
def rangeMaxC : Rat := 24

/-- The `f64` nearest to 0.1. -/
def toleranceC : Rat := mkRat 3602879701896397 36028797018963968

def durationSecs : Nat := 900
def deadlineSecs : Nat := 5
def rateMaxPerHour : Nat := 6
def preconditionMaxAgeSecs : Nat := 300
def objectAnalogValue : UInt16 := 2
def propPresentValue : UInt32 := 85
def feedbackUnavailable : String := "unavailable-feedback"
def maskNote : String := "priority-8-masks-9-16-masked-by-1-7"
def apduRetries : UInt8 := 0

/-- Typed preview failure. -/
inductive PreviewError where
  | invalid (detail : String)
  | assistanceCeiling (have_ required : UInt8)
  | protectedPriority (priority : UInt8)
  | unallocatedPriority (priority : UInt8)
  | noncommandable (detail : String)
  | ambiguousArray (index : UInt32)
  | stalePrecondition
  | wrongUnit (expected presented : String)
  | wireRange (requested wire : String)
  | duplicateAlias (name : String)
  | nullNotAdmitted
  | sealOrder (detail : String)
  | sealed (code detail : String)
  deriving DecidableEq

/-! ### Parts of a preview -/

/-- Exact accepted target: scope, equipment and the revision pair the preview is bound to. -/
structure AcceptedTarget where
  scope : TrustedScope
  equipment : InstalledId
  bindingRevision : BindingRevision
  acceptedRevision : AcceptedRevision
  deriving DecidableEq

/-- Only the synthetic fixture is admitted. -/
def AcceptedTarget.new (scope : TrustedScope) (equipment : InstalledId) (bindingRevision : BindingRevision)
    (acceptedRevision : AcceptedRevision) : Except PreviewError AcceptedTarget :=
  if scope.text ≠ "scope-a" then .error (.invalid "synthetic scope-a only")
  else if equipment.text ≠ "ahu-1" ∧ equipment.text ≠ "vav-101" then
    .error (.invalid "synthetic ahu-1/vav-101 only")
  else .ok ⟨scope, equipment, bindingRevision, acceptedRevision⟩

/-- An explicit priority is required, and only 8 is commissioned. -/
def checkPriority : Option UInt8 → Except PreviewError UInt8
  | none => .error (.invalid "empty priority slot")
  | some priority =>
    if priority = 0 ∨ maxPriority < priority then .error (.invalid "priority 1..=16")
    else if priority ≤ protectedMax then .error (.protectedPriority priority)
    else if priority ≠ commissionedPriority then .error (.unallocatedPriority priority)
    else .ok priority

/-- Precondition age shown on the preview: two wall readings in nanoseconds. -/
structure Precondition where
  observedAt : Nat
  now : Nat
  observed_le_now : observedAt ≤ now

def Precondition.new (observedAt now : Nat) : Except PreviewError Precondition :=
  if h : observedAt ≤ now then .ok ⟨observedAt, now, h⟩ else .error (.invalid "precondition clock order")

/-- Age in whole seconds. -/
def Precondition.ageSecs (precondition : Precondition) : Nat :=
  (precondition.now - precondition.observedAt) / 1000000000

def Precondition.checkFresh (precondition : Precondition) : Except PreviewError Unit :=
  if preconditionMaxAgeSecs < precondition.ageSecs then .error .stalePrecondition else .ok ()

structure TargetObject where
  objectType : UInt16
  propertyId : UInt32
  arrayIndex : Option UInt32
  deriving DecidableEq

def TargetObject.check (object : TargetObject) : Except PreviewError TargetObject :=
  if object.objectType ≠ objectAnalogValue then .error (.noncommandable "synthetic Analog Value only")
  else if object.propertyId ≠ propPresentValue then .error (.noncommandable "synthetic presentValue only")
  else match object.arrayIndex with
    | none => .ok object
    | some index => .error (.ambiguousArray index)

def checkUnit (unit : MeasureUnit) : Except PreviewError Unit :=
  if unit.asStr = "degC" then .ok () else .error (.wrongUnit "degC" unit.asStr)

/-- Encoded setpoint with wire confirmation. -/
structure EncodedSetpoint where
  requestedC : Binary64
  wireBits : UInt32
  wireC : Binary64
  roundingError : Binary64
  deriving DecidableEq

def EncodedSetpoint.build (requestedC wireC : Binary64) : Except PreviewError EncodedSetpoint :=
  if !requestedC.isFinite || !wireC.isFinite then .error (.invalid "finite setpoint")
  else if !requestedC.within rangeMinC rangeMaxC then .error (.wireRange requestedC.fixed4 wireC.fixed4)
  else if !wireC.within rangeMinC rangeMaxC then .error (.wireRange requestedC.fixed4 wireC.fixed4)
  else if (wireC.distance requestedC).exceeds toleranceC then .error (.wireRange requestedC.fixed4 wireC.fixed4)
  else .ok ⟨requestedC, wireC.toBinary32, wireC, wireC.distance requestedC⟩

/-- Encodes as a BACnet Real and confirms that range and tolerance still hold. -/
def EncodedSetpoint.new (requestedC : Binary64) : Except PreviewError EncodedSetpoint :=
  build requestedC (.ofBinary32 requestedC.toBinary32)

/-- Duplicate aliases refuse; comparison is exact. -/
def checkAliases (seen : List String) : List String → Except PreviewError Unit
  | [] => .ok ()
  | name :: rest =>
    if name = "" then .error (.invalid "empty alias")
    else if name ∈ seen then .error (.duplicateAlias name)
    else checkAliases (name :: seen) rest

/-- Timing and transport freeze shown on the preview. -/
structure Timing where
  durationSecs : Nat
  deadlineSecs : Nat
  apduRetries : UInt8
  ratePerHour : Nat
  deriving DecidableEq

def Timing.synthetic : Timing := ⟨Action.durationSecs, Action.deadlineSecs, Action.apduRetries, rateMaxPerHour⟩

/-- Readback with its stated status; `sourceTime` is in seconds. -/
structure FeedbackPlan where
  property : String
  status : String
  sourceTime : Option Nat
  deriving DecidableEq

def FeedbackPlan.pvReadback : FeedbackPlan := ⟨"presentValue", feedbackUnavailable, none⟩

/-- The release target, and whether the preview authorizes a NULL release. -/
structure ReleasePlan where
  target : InstalledId
  admitted : Bool
  deriving DecidableEq

def ReleasePlan.onExpiry (_ : ReleasePlan) : String := "null-relinquish"

/-- Encoded BACnet NULL only for an explicitly admitted release. -/
def ReleasePlan.nullWire (release : ReleasePlan) : Except PreviewError (List UInt8) :=
  if release.admitted then .ok [0x00] else .error .nullNotAdmitted

/-- A sealed profile: its canonical bytes and the digest of its ledger. -/
structure Profile where
  bytes : String
  ledgerDigest : String
  deriving DecidableEq

/-- Seal evidence: the ordered flags, the held profile and the ledger bytes. -/
structure SealOrder where
  custody : Bool
  decoded : Bool
  reconstructed : Bool
  profile : Option Profile
  ledger : Option (List UInt8)
  verified : Bool
  deriving DecidableEq

def SealOrder.ledgerDigest (order : SealOrder) : Option String := order.profile.map Profile.ledgerDigest

def SealOrder.isVerified (order : SealOrder) : Bool :=
  order.verified && order.custody && order.decoded && order.reconstructed && order.ledger.isSome

def SealOrder.availability (order : SealOrder) : Except PreviewError Unit :=
  if order.custody && order.decoded && order.reconstructed then .ok ()
  else .error (.sealOrder "seal-custody/decode/reconstruct order required")

inductive BindingStatus where
  | imported
  | valid
  | observedQualified
  deriving DecidableEq, Repr

/-- Human preview needs publish-grade assistance. -/
def checkAccess (ceiling : UInt8) (role : RoleKind) : Except PreviewError Unit :=
  match role with
  | .publisher =>
    if ceiling < requiredPublishCeiling then .error (.assistanceCeiling ceiling requiredPublishCeiling) else .ok ()
  | .reviewer => .error (.assistanceCeiling ceiling requiredPublishCeiling)

/-! ### Previews -/

structure Preview where
  target : AcceptedTarget
  priority : UInt8
  object : TargetObject
  unit : MeasureUnit
  encoded : EncodedSetpoint
  timing : Timing
  preconditionAgeSecs : Nat
  feedback : FeedbackPlan
  release : ReleasePlan
  sealVerified : Bool
  sealLedgerDigest : Option String
  deriving DecidableEq

namespace Preview

/-- What the caller asks a preview of. -/
structure Request where
  scope : TrustedScope
  equipment : InstalledId
  bindingRevision : BindingRevision
  acceptedRevision : AcceptedRevision
  bindingStatus : BindingStatus
  ceiling : UInt8
  role : RoleKind
  priority : Option UInt8
  object : TargetObject
  unit : MeasureUnit
  requestedC : Binary64
  wireOverride : Option Binary64
  aliases : List String
  precondition : Precondition
  sealOrder : SealOrder
  releaseTarget : InstalledId
  releaseAdmitted : Bool

/-- Frozen-order checks, then the preview. -/
def preview (request : Request) : Except PreviewError Preview := do
  checkAccess request.ceiling request.role
  let target ← AcceptedTarget.new request.scope request.equipment request.bindingRevision request.acceptedRevision
  Result.refuseIf (request.bindingStatus = .observedQualified) (.invalid "no observed qualification here")
  let priority ← checkPriority request.priority
  let object ← request.object.check
  checkUnit request.unit
  let encoded ← match request.wireOverride with
    | none => EncodedSetpoint.new request.requestedC
    | some wire => EncodedSetpoint.build request.requestedC wire
  checkAliases [] request.aliases
  request.precondition.checkFresh
  request.sealOrder.availability
  .ok {
    target := target
    priority := priority
    object := object
    unit := request.unit
    encoded := encoded
    timing := .synthetic
    preconditionAgeSecs := request.precondition.ageSecs
    feedback := .pvReadback
    release := ⟨request.releaseTarget, request.releaseAdmitted⟩
    sealVerified := request.sealOrder.isVerified
    sealLedgerDigest := if request.sealOrder.ledger.isSome then request.sealOrder.ledgerDigest else none }

variable (preview : Preview)

def format (_ : Preview) : String := previewFormat

/-- Previews never reserve budget, never dispatch and are no qualification. -/
def isReservation (_ : Preview) : Bool := false
def isDispatch (_ : Preview) : Bool := false
def isQualified (_ : Preview) : Bool := false

def releaseAdmitted : Bool := preview.release.admitted

def releaseTarget : InstalledId := preview.release.target

/-- `release` when a NULL release is explicitly admitted, otherwise `set`. -/
def actionKind : String := if preview.release.admitted then "release" else "set"

/-- Canonical text, for presentation: it omits the lossless identity. -/
def canonicalBytes : String :=
  String.intercalate "|" [previewFormat, preview.target.scope.text, preview.target.equipment.text,
    toString preview.target.bindingRevision.value, toString preview.target.acceptedRevision.value,
    s!"p{preview.priority}", s!"av{preview.object.objectType}:pv{preview.object.propertyId}", preview.unit.asStr,
    preview.encoded.wireC.fixed4, maskNote, s!"{preview.timing.durationSecs}s", s!"{preview.timing.deadlineSecs}s",
    s!"r{preview.timing.apduRetries}", s!"age{preview.preconditionAgeSecs}", preview.feedback.status,
    preview.release.onExpiry]

end Preview

end Verdant.Action
