import Verdant.Domain.Values
import Verdant.Observation.Time

/-!
# Observations

Positions are scope, producer, generation and sequence, never a hash of the value.  Of the raw batch behind a record
only its receipt time is read again; the rest of it, with the codec evidence, is kept as one text.
-/

namespace Verdant.Observation

structure ProducerId where
  id : InstalledId
  deriving DecidableEq

structure ProducerIncarnation where
  id : InstalledId
  deriving DecidableEq

structure ObservationId where
  scope : TrustedScope
  producer : ProducerId
  position : RecordIdentity
  deriving DecidableEq

inductive Refusal where
  | missing
  | invalid
  | nonFinite
  | unknownUnit
  | wrongUnit
  | unsupported
  | transport
  | notFresh
  deriving DecidableEq, Repr

inductive Suitability where
  | syntheticValueOnly
  | refused (reason : Refusal)
  deriving DecidableEq, Repr

/-- The selected configuration a record was read under; `entry` and `property` are kept as their texts. -/
structure BindingContext where
  scope : TrustedScope
  key : InstalledId
  bindingRevision : BindingRevision
  acceptedRevision : AcceptedRevision
  activeGeneration : UInt32
  runtimeIncarnation : Nat
  sourceGeneration : Nat
  entry : String
  property : String
  deriving DecidableEq

structure PendingObservation where
  receiptTime : SystemTime
  evidence : String
  binding : BindingContext
  value : Value
  unit : MeasureUnit
  suitability : Suitability
  time : TimeEvidence
  freshness : Freshness
  policy : FreshnessPolicy
  deriving DecidableEq

/-- A pending observation with its identity. -/
structure NormalizedObservation where
  id : ObservationId
  incarnation : ProducerIncarnation
  content : PendingObservation
  deriving DecidableEq

def PendingObservation.identify (pending : PendingObservation) (id : ObservationId) (incarnation : ProducerIncarnation) :
    Except Error NormalizedObservation :=
  if id.scope ≠ pending.binding.scope then .error (.invalid "identity scope") else .ok ⟨id, incarnation, pending⟩

namespace NormalizedObservation

def binding (o : NormalizedObservation) : BindingContext := o.content.binding
def time (o : NormalizedObservation) : TimeEvidence := o.content.time
def freshnessAtIngestion (o : NormalizedObservation) : Freshness := o.content.freshness
def assess (o : NormalizedObservation) (now : ClockReading) : Freshness := o.content.policy.assess o.time now

end NormalizedObservation

end Verdant.Observation
