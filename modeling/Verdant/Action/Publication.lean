import Verdant.Action.Expiry

/-!
# Publication gates

The publication gates refuse an excluded old writer, a revoked credential and a material impact, and they require the
admitted revisions to be both accepted and active.  The acceptance store is only read; what its three reads return is
`AcceptReads`, any results whatever.
-/

namespace Verdant.Action

open Storage Prog

/-! ### The acceptance store -/

/-- The failures of the acceptance store; `other` carries the code and text of those its reads report. -/
inductive AcceptError where
  | invalid (detail : String)
  | superseded (requested current : AcceptedRevision)
  | other (code detail : String)
  deriving DecidableEq

def AcceptError.code : AcceptError → String
  | .invalid _ => "accept-invalid"
  | .superseded _ _ => "activation-superseded"
  | .other code _ => code

def AcceptError.display : AcceptError → String
  | .invalid detail => s!"accept-invalid: Invalid(\"" ++ detail ++ "\")"
  | .superseded requested current =>
    "activation-superseded: Superseded \x7b requested: AcceptedRevision(" ++ toString requested.value ++
      "), current: AcceptedRevision(" ++ toString current.value ++ ") \x7d"
  | .other _ detail => detail

/-- The current accepted publication. -/
structure Accepted where
  revision : AcceptedRevision
  stagedOperation : OperationId

/-- The active publication. -/
structure Activated where
  revision : AcceptedRevision
  generation : UInt32

/-- A staged configuration. -/
structure Staged where
  bindingRevision : BindingRevision

/-- What the reads of the acceptance store return for one scope. -/
structure AcceptReads where
  current : Except AcceptError (Option Accepted)
  active : Except AcceptError (Option Activated)
  readStaged : OperationId → Except AcceptError Staged

/-! ### Gates -/

/-- Typed publication failure. -/
inductive PublicationError where
  | excluded (detail : String)
  | revoked (detail : String)
  | blocked (detail : String)
  | expiry (error : ExpiryError)
  | accept (code detail : String)
  deriving DecidableEq

def PublicationError.fromAccept (e : AcceptError) : PublicationError := .accept e.code e.display

/-- Manual exclusion of one named old writer by an operator. -/
structure OldWriterExclusion where
  operator : String
  excludedActor : String
  reason : String
  deriving DecidableEq

def OldWriterExclusion.excludes (exclusion : OldWriterExclusion) (actor : String) : Bool :=
  exclusion.excludedActor = actor

def checkNotExcluded (exclusion : Option OldWriterExclusion) (actor : String) : Except PublicationError Unit :=
  match exclusion with
  | none => .ok ()
  | some gate => Result.refuseIf (gate.excludes actor)
      (.excluded s!"old writer '{actor}' excluded by '{gate.operator}': {gate.reason}")

def revokedDetail (actor : String) : String :=
  s!"credential for '{actor}' revoked before handoff; send prevented"

def checkPublicationNotRevoked (isRevoked : Bool) (actor : String) : Except PublicationError Unit :=
  Result.refuseIf isRevoked (.revoked (revokedDetail actor))

/-- Whole-publication impact. -/
inductive ImpactGate where
  | preserved
  | blocked (detail : String)
  deriving DecidableEq

def ImpactGate.requirePreserved : ImpactGate → Except PublicationError Unit
  | .preserved => .ok ()
  | .blocked detail => .error (.blocked detail)

/-- The admitted revisions are the accepted and active ones, and the staged binding revision is the admitted one. -/
def requireActivationCurrentForHandoff (reads : AcceptReads) (bindingRevision : BindingRevision)
    (acceptedRevision : AcceptedRevision) : Except PublicationError Unit := do
  match ← reads.current.mapError .fromAccept with
  | none => .error (.fromAccept (.invalid "activation requires committed acceptance"))
  | some current =>
    Result.refuseIf (current.revision ≠ acceptedRevision)
      (.fromAccept (.superseded acceptedRevision current.revision))
    match ← reads.active.mapError .fromAccept with
    | none => .error (.fromAccept (.invalid
        "accepted-but-not-active; activate current publication before handoff"))
    | some active =>
      Result.refuseIf (active.revision ≠ acceptedRevision) (.blocked
        (s!"newer-accepted/older-active: admitted rev {acceptedRevision.value} != active rev " ++
          s!"{active.revision.value}; activate current rev {current.revision.value} before handoff"))
      Result.refuseIf (active.generation = 0) (.fromAccept (.invalid
        "active generation 0 with accepted revision; activate before handoff"))
      let staged ← (reads.readStaged current.stagedOperation).mapError .fromAccept
      Result.refuseIf (staged.bindingRevision ≠ bindingRevision) (.blocked
        (s!"binding revision changed since admission: admitted {bindingRevision.value} != accepted " ++
          s!"{staged.bindingRevision.value}; block until accepted"))

/-- The readings a caller takes for one handoff. -/
structure Handoff where
  preview : Preview
  current : Current
  route : FrozenRoute
  expiry : ExpiryState
  freshness : Freshness
  exclusion : Option OldWriterExclusion
  isRevoked : Bool
  impact : ImpactGate

/-- The gates both handoffs of a publication pass. -/
def publicationGates (admitted : Admitted) (handoff : Handoff) : Except PublicationError Unit := do
  checkNotExcluded handoff.exclusion admitted.actor
  checkNotExcluded handoff.exclusion handoff.current.actor
  checkPublicationNotRevoked handoff.isRevoked admitted.actor
  handoff.impact.requirePreserved

section Handoff

variable {ρ : Type} (admitted : Admitted) (handoff : Handoff)

def authorizeSetpointViaPublication : Prog.Try (StoreOp.Answer (ρ := ρ)) PublicationError FrozenWrite := do
  check (publicationGates admitted handoff)
  mapErr .expiry
    (authorizeSet admitted handoff.preview handoff.current handoff.route handoff.expiry handoff.freshness)

def authorizeReleaseViaPublication : Prog.Try (StoreOp.Answer (ρ := ρ)) PublicationError FrozenWrite := do
  check (publicationGates admitted handoff)
  mapErr .expiry (authorizeRelease admitted handoff.preview handoff.current handoff.route)

end Handoff

end Verdant.Action
