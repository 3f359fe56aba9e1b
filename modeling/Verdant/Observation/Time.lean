import Verdant.Access.Error
import Verdant.Domain.Clock

/-!
# Observation clock evidence

The freshness of a record is assessed from its time evidence at a reading of the clock, and what a record was assessed
as before is retained: uncertainty and staleness are sticky (`Freshness.retain`).
-/

namespace Verdant.Observation

/-- Refusals of the in-memory observation modules. -/
inductive Error where
  | invalid (detail : String)
  | conflict (detail : String)
  | domain (error : DomainError)
  | access (error : Access.AccessError)
  deriving DecidableEq

/-- The three times of a record, in milliseconds. -/
inductive ObservationTimes where
  | sourcePresent (triple : TimeTriple)
  | sourceAbsent (receipt ingestion : Int)
  | wallAmbiguous (source : Option Int) (receipt ingestion : Int)
  deriving DecidableEq

def ObservationTimes.source : ObservationTimes → Option Int
  | .sourcePresent triple => some triple.source
  | .sourceAbsent _ _ => none
  | .wallAmbiguous source _ _ => source

def ObservationTimes.receipt : ObservationTimes → Int
  | .sourcePresent triple => triple.receipt
  | .sourceAbsent receipt _ => receipt
  | .wallAmbiguous _ receipt _ => receipt

def ObservationTimes.ambiguous : ObservationTimes → Bool
  | .wallAmbiguous _ _ _ => true
  | _ => false

inductive Continuity where
  | confirmed
  | wallOrSuspendAmbiguous
  deriving DecidableEq, Repr

inductive Freshness where
  | fresh
  | stale
  | unknown
  deriving DecidableEq, Repr

/-- Uncertainty or staleness is sticky for an existing record. -/
def Freshness.retain : Freshness → Freshness → Freshness
  | .stale, _ => .stale
  | .unknown, _ => .unknown
  | .fresh, assessed => assessed

structure ClockReading where
  wall : SystemTime
  monotonic : MonotonicMark
  continuity : Continuity
  deriving DecidableEq

structure TimeEvidence where
  times : ObservationTimes
  receiptMark : MonotonicMark
  ingestion : ClockReading
  deriving DecidableEq

/-- Whole milliseconds; a fraction before the epoch is floored. -/
def millis (time : SystemTime) : Except Error Int :=
  let value :=
    if 0 ≤ time then time / 1000000
    else -(-time / 1000000) - (if -time % 1000000 ≠ 0 then 1 else 0)
  if inI64 value then .ok value else .error (.invalid "wall time range")

/-- Horizons of freshness, in nanoseconds. -/
structure FreshnessPolicy where
  maxAge : Nat
  maxWallSkew : Nat
  deriving DecidableEq

def FreshnessPolicy.new (maxAge maxWallSkew : Nat) : Except Error FreshnessPolicy :=
  if maxAge = 0 then .error (.invalid "zero freshness horizon") else .ok ⟨maxAge, maxWallSkew⟩

/-- The age in nanoseconds of something stamped `then_` at `now`, both in milliseconds. -/
def ageNanos (now then_ : Int) : Option Nat :=
  let age := now - then_
  if inI64 age ∧ 0 ≤ age then some (age.toNat * 1000000) else none

def absDiff (a b : Nat) : Nat := max a b - min a b

def FreshnessPolicy.assess (policy : FreshnessPolicy) (evidence : TimeEvidence) (now : ClockReading) : Freshness :=
  if evidence.ingestion.continuity ≠ .confirmed ∨ now.continuity ≠ .confirmed ∨ evidence.times.ambiguous then .unknown
  else match now.monotonic.elapsedSince evidence.receiptMark with
    | none => .unknown
    | some elapsed =>
      if (now.monotonic.elapsedSince evidence.ingestion.monotonic).isNone then .unknown
      else match millis now.wall with
        | .error _ => .unknown
        | .ok wall =>
          match ageNanos wall evidence.times.receipt with
          | none => .unknown
          | some wallAge =>
            if policy.maxWallSkew < absDiff elapsed wallAge then .unknown
            else match (match evidence.times.source with
                | none => some 0
                | some source => ageNanos wall source) with
              | none => .unknown
              | some sourceAge =>
                if policy.maxAge ≤ elapsed ∨ policy.maxAge ≤ wallAge ∨ policy.maxAge ≤ sourceAge then .stale
                else .fresh

/-- Nothing that was not fresh is assessed fresh again. -/
theorem Freshness.retain_of_ne_fresh {kept : Freshness} (h : kept ≠ .fresh) (assessed : Freshness) :
    kept.retain assessed = kept := by
  cases kept with
  | fresh => exact absurd rfl h
  | stale => rfl
  | unknown => rfl

end Verdant.Observation
