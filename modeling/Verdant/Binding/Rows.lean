import Verdant.Access.Gate
import Verdant.Binding.Proposal
import Verdant.Storage.Descriptor

/-!
# Binding rows

The seven kinds of rows of the binding history, the descriptors they carry and how they are read back.  Every text of a
descriptor is percent-encoded but the mode of a proposal, so a proposal only reads back as it was written in its other
fields (`decodePropose_fields`).
-/

namespace Verdant.Binding

open TextCodec Storage Access

def opEquipmentText : String := "binding-equipment"
def opSpaceText : String := "binding-space"
def opSourceText : String := "binding-source"
def opPointText : String := "binding-point"
def opProposeText : String := "binding-propose"
def opRetireText : String := "binding-retire"
def opFindingText : String := "binding-finding"
def bindingUnitText : String := "binding-event"
def bindingSensorText : String := "sensor-sat-1"

/-- The reserved outbox operations. -/
def bindingOperations : List String :=
  [opEquipmentText, opSpaceText, opSourceText, opPointText, opProposeText, opRetireText, opFindingText]

/-- What one row says. -/
inductive Event where
  | equipment (record : EquipmentRecord)
  | space (record : SpaceRecord)
  | source (record : SourceRecord)
  | point (record : PointRecord)
  | propose (binding : ProposedBinding)
  | retire (id address : String)
  | finding (finding : Finding)
  deriving DecidableEq

/-! ### Encoding -/

def equipmentFields (record : EquipmentRecord) : Fields := [
  ("v", "2"), ("kind", "equipment"), ("id", pctEncode record.id.text), ("ekind", pctEncode record.kind.asStr),
  ("scope", pctEncode record.scope.text), ("label", pctEncode record.label), ("address", pctEncode record.address.text)]

def spaceFields (record : SpaceRecord) : Fields := [
  ("v", "2"), ("kind", "space"), ("id", pctEncode record.id.text), ("scope", pctEncode record.scope.text),
  ("label", pctEncode record.label)]

def sourceFields (record : SourceRecord) : Fields := [
  ("v", "2"), ("kind", "source"), ("id", pctEncode record.id.text), ("scope", pctEncode record.scope.text),
  ("label", pctEncode record.label)]

def pointFields (record : PointRecord) : Fields := [
  ("v", "2"), ("kind", "point"), ("equipment", pctEncode record.equipment.text),
  ("property", pctEncode record.property.text), ("scope", pctEncode record.scope.text),
  ("unit", pctEncode record.unit.asStr), ("eclass", pctEncode record.endpointClass.asStr)]

def retireFields (id address reason : String) : Fields := [
  ("v", "2"), ("kind", "retire"), ("id", pctEncode id), ("address", pctEncode address), ("reason", pctEncode reason)]

/-- The end of the descriptor of a record row. -/
def recordTail (operation : OperationId) (revision : BindingRevision) : Fields :=
  [("operation", operation.text), ("revision", Nat.repr revision.value.toNat)]

def proposalFields (binding : ProposedBinding) : Fields := [
  ("v", "2"), ("kind", "propose"), ("endpoint", pctEncode binding.endpoint.text),
  ("eclass", binding.endpointClass.asStr), ("escope", pctEncode binding.endpointScope.text),
  ("equipment", pctEncode binding.pointEquipment.text), ("property", pctEncode binding.pointProperty.text),
  ("pscope", pctEncode binding.pointScope.text), ("source", pctEncode binding.source.text),
  ("unit", pctEncode binding.unit.asStr), ("mode", binding.modeText), ("requested", binding.requested.asStr),
  ("effective", binding.effective.asStr), ("feedback", binding.feedback.asStr), ("status", binding.status.asStr)]

/-- The end of the descriptor of a proposal. -/
def proposalTail (operation : OperationId) (revision : BindingRevision) : Fields :=
  [("operation", pctEncode operation.text), ("revision", Nat.repr revision.value.toNat)]

/-- Reference fields of an actor: neither key identity, key nor fingerprint. -/
def actorPairs (capability scope : String) (generation : UInt32) (issuer : String) : Fields :=
  [("capability", pctEncode capability), ("scope", pctEncode scope), ("capgen", Nat.repr generation.toNat),
    ("issuer", pctEncode issuer)]

def actorFields (actor : ActorContext) : Fields :=
  actorPairs actor.row.cap.text actor.bound.scope.text actor.row.capgen actor.row.issuer.text

def findingFields (operation : OperationId) (revision : BindingRevision) (binding : ProposedBinding)
    (finding : Finding) (actor : ActorContext) : Fields :=
  [("v", "2"), ("kind", "finding"), ("operation", pctEncode operation.text), ("fid", pctEncode finding.id.text),
    ("generation", Nat.repr finding.generation.toNat), ("revision", Nat.repr revision.value.toNat),
    ("digest", pctEncode finding.digest), ("summary", pctEncode finding.summary)] ++ actorFields actor ++
  [("equipment", pctEncode binding.pointEquipment.text), ("property", pctEncode binding.pointProperty.text),
    ("binding", pctEncode binding.canonicalBytes)]

/-! ### Decoding -/

def words : DescriptorWords := ⟨"binding", "escape", "field"⟩

def field (map : Fields) (key : String) : Except BindingError String :=
  (requireField words map key).mapError unreadable

/-- A check of a stored field, with what the field is called. -/
def storedDomain {α : Type} (what : String) (x : Except DomainError α) : Except BindingError α :=
  x.mapError fun e => unreadable s!"{what}: {e.display}"

def storedText {α : Type} (what : String) (x : Except BindingError α) : Except BindingError α :=
  x.mapError fun e => unreadable s!"{what}: {e.display}"

def splitBinding (raw : String) : Except BindingError Fields := (splitDescriptor words raw).mapError unreadable

def storedRevision (map : Fields) : Except BindingError BindingRevision := do
  match parseUInt32 (← field map "revision") with
  | some n => .ok ⟨n⟩
  | none => .error (unreadable "stored revision unreadable")

def badActor : BindingError := unreadable "invalid stored actor reference"

def storedActor (map : Fields) : Except BindingError String := do
  let cap ← field map "capability"
  let scope ← field map "scope"
  let generation ← field map "capgen"
  let issuer ← field map "issuer"
  let _ ← (CapabilityName.parse cap).mapError fun _ => badActor
  let _ ← (TrustedScope.parse scope).mapError fun _ => badActor
  let _ ← (IssuerId.parse issuer).mapError fun _ => badActor
  match parseUInt32 generation with
  | none => .error badActor
  | some n =>
    if n = 0 ∨ (map.lookup "fp").isSome ∨ (map.lookup "key").isSome ∨ (map.lookup "key_id").isSome then .error badActor
    else .ok (descriptor (actorPairs cap scope n issuer))

def decodeEquipment (map : Fields) : Except BindingError EquipmentRecord := do
  let id ← field map "id"
  let ekind ← field map "ekind"
  let scope ← field map "scope"
  let label ← field map "label"
  let address ← field map "address"
  let kind ← EquipmentKind.parse ekind
  let scope ← storedDomain "stored equipment scope invalid" (TrustedScope.parse scope)
  EquipmentRecord.parse id kind scope label address

def decodeSpace (map : Fields) : Except BindingError SpaceRecord := do
  let id ← field map "id"
  let scope ← field map "scope"
  let label ← field map "label"
  let scope ← storedDomain "stored space scope invalid" (TrustedScope.parse scope)
  SpaceRecord.parse id scope label

def decodeSource (map : Fields) : Except BindingError SourceRecord := do
  let id ← field map "id"
  let scope ← field map "scope"
  let label ← field map "label"
  let scope ← storedDomain "stored source scope invalid" (TrustedScope.parse scope)
  SourceRecord.parse id scope label

def decodePoint (map : Fields) : Except BindingError PointRecord := do
  let equipment ← field map "equipment"
  let property ← field map "property"
  let scope ← field map "scope"
  let unit ← field map "unit"
  let eclass ← field map "eclass"
  let scope ← storedDomain "stored point scope invalid" (TrustedScope.parse scope)
  let eclass ← EndpointClass.parse eclass
  PointRecord.parse equipment property scope unit eclass

def decodeMode (raw : String) : Except BindingError (Option OpMode) :=
  if raw = "-" then .ok none
  else do
    let mode ← storedDomain "stored propose mode invalid" (OpMode.parse raw)
    .ok (some mode)

def decodePropose (map : Fields) : Except BindingError ProposedBinding := do
  let endpoint ← EndpointAddress.parse (← field map "endpoint")
  let eclass ← EndpointClass.parse (← field map "eclass")
  let escope ← storedDomain "stored propose endpoint scope invalid" (TrustedScope.parse (← field map "escope"))
  let equipment ← storedDomain "stored propose equipment invalid" (InstalledId.parse (← field map "equipment"))
  let property ← PropertyName.parse (← field map "property")
  let pscope ← storedDomain "stored propose point scope invalid" (TrustedScope.parse (← field map "pscope"))
  let source ← storedDomain "stored propose source invalid" (InstalledId.parse (← field map "source"))
  let unit ← storedDomain "stored propose unit invalid" (MeasureUnit.parse (← field map "unit"))
  let mode ← decodeMode (← field map "mode")
  let requested ← storedText "stored propose requested invalid" (BindingRole.parse (← field map "requested"))
  let effective ← storedText "stored propose effective invalid" (BindingRole.parse (← field map "effective"))
  let feedback ← storedText "stored propose feedback invalid" (Feedback.parse (← field map "feedback"))
  let status ← BindingStatus.parse (← field map "status")
  .ok ⟨endpoint, eclass, escope, equipment, property, pscope, source, unit, mode, requested, effective, feedback, status⟩

def decodeU32 (what raw : String) : Except BindingError UInt32 :=
  match parseUInt32 raw with
  | some n => .ok n
  | none => .error (unreadable s!"finding {what} unreadable: '{raw}'")

def decodeNonEmpty (what raw : String) : Except BindingError Unit :=
  if raw = "" then .error (unreadable s!"stored finding {what} must not be empty") else .ok ()

def decodeFinding (map : Fields) : Except BindingError Finding := do
  let fid ← storedText "stored finding id invalid" (FindingId.parse (← field map "fid"))
  let generation ← decodeU32 "generation" (← field map "generation")
  let revision ← decodeU32 "revision" (← field map "revision")
  let digest ← field map "digest"
  decodeNonEmpty "digest" digest
  let summary ← field map "summary"
  decodeNonEmpty "summary" summary
  let actor ← storedActor map
  if generation ≠ revision then .error (unreadable "finding generation differs from revision")
  else
    let _ ← field map "equipment"
    let _ ← field map "property"
    .ok ⟨fid, generation, ⟨revision⟩, digest, summary, actor⟩

/-- What a row of an operation and a kind says. -/
def decodeEvent (operation kind : String) (map : Fields) : Except BindingError Event := do
  if operation = opEquipmentText ∧ kind = "equipment" then .ok (.equipment (← decodeEquipment map))
  else if operation = opSpaceText ∧ kind = "space" then .ok (.space (← decodeSpace map))
  else if operation = opSourceText ∧ kind = "source" then .ok (.source (← decodeSource map))
  else if operation = opPointText ∧ kind = "point" then .ok (.point (← decodePoint map))
  else if operation = opProposeText ∧ kind = "propose" then do
    let _ ← storedActor map
    .ok (.propose (← decodePropose map))
  else if operation = opRetireText ∧ kind = "retire" then do
    let id ← field map "id"
    let address ← field map "address"
    let _ ← field map "reason"
    .ok (.retire id address)
  else if operation = opFindingText ∧ kind = "finding" then .ok (.finding (← decodeFinding map))
  else .error (unreadable s!"unexpected binding operation '{operation}' kind '{kind}'")

end Verdant.Binding
