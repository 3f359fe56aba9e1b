import Verdant.Binding.CanonicalBytes
import Verdant.Seal.References

/-!
# Finding fingerprints

The approval a finding row gives: the binding it names is decoded, checked again as a proposal and joined to the actor, and
the fingerprint carries the digest of the whole canonical bytes.
-/

namespace Verdant.Seal

open TextCodec Storage Access Binding

/-- A stored binding that is structurally valid. -/
def requireValid : BindingStatus → Except SealError Unit
  | .valid => .ok ()
  | .imported => .error (.status "imported")
  | .observedQualified => .error (.status "observed-qualified has no supporting evidence")

/-- The proposal of the same parts, against the unit and the class they have. -/
def proposeAgain (b : ProposedBinding) : Except BindingError ProposedBinding :=
  propose b.endpoint b.endpointClass b.endpointScope b.pointEquipment b.pointProperty b.pointScope b.source b.unit
    b.endpointClass b.unit b.mode b.requested b.effective b.feedback

section Finding

variable (map : Fields) (scope : TrustedScope)

def getField (key : String) : Except SealError String := (Binding.field map key).mapError SealError.binding

def checkVersion : Except SealError Unit := do
  if (← getField map "v") ≠ "2" then .error (.invalid "finding descriptor version")
  else if (← getField map "kind") ≠ "finding" then .error (.invalid "finding descriptor version")
  else .ok ()

/-- The structurally valid binding of the canonical bytes, in the scope. -/
def checkedBinding (canonical : String) : Except SealError ProposedBinding := do
  let proposed ← decodeCanonical (.invalid "binding canonical version") SealError.binding canonical
  requireValid proposed.status
  let checked ← (proposeAgain proposed).mapError SealError.binding
  if checked ≠ proposed ∨ proposed.pointScope ≠ scope then .error (.invalid "finding structure/scope")
  else .ok proposed

def checkedActor : Except SealError String := do
  let cap ← (CapabilityName.parse (← getField map "capability")).mapError SealError.access
  let issuer ← (IssuerId.parse (← getField map "issuer")).mapError SealError.access
  let actorScope ← (TrustedScope.parse (← getField map "scope")).mapError fun _ => .invalid "actor scope"
  let capgen ← numberU32 (← getField map "capgen")
  if capgen = 0 ∨ actorScope ≠ scope then .error (.invalid "actor reference")
  else .ok (descriptor (actorPairs cap.text scope.text capgen issuer.text))

def checkedGeneration : Except SealError UInt32 := do
  let generation ← numberU32 (← getField map "generation")
  if generation = 0 then .error (.invalid "finding generation")
  else if generation ≠ (← numberU32 (← getField map "revision")) then .error (.invalid "finding generation")
  else .ok generation

/-- The finding the row must be. -/
def checkJoin (finding : Finding) : Except SealError Unit := do
  if (← getField map "fid") ≠ finding.id.text then .error (.changed "finding fingerprint/actor join")
  else if (← getField map "digest") ≠ finding.digest then .error (.changed "finding fingerprint/actor join")
  else if (← getField map "summary") ≠ finding.summary then .error (.changed "finding fingerprint/actor join")
  else .ok ()

end Finding

/-- The fields of a fingerprint. -/
def fingerprintFields (finding : Finding) (generation : UInt32) (actor : String) (digest : Digest) : List String :=
  [finding.id.text, Nat.repr generation.toNat, actor, "synthetic-fnv1a64-not-authority", finding.digest,
    "binding-canonical-v2-sha256", digest.text]

def findingFingerprint (raw : String) (scope : TrustedScope) (sha : Sha256) : Except SealError String := do
  let map ← (splitBinding raw).mapError SealError.binding
  checkVersion map
  let canonical ← getField map "binding"
  let proposed ← checkedBinding scope canonical
  let actor ← checkedActor map scope
  let generation ← checkedGeneration map
  let finding := Finding.forBinding proposed ⟨generation⟩ actor
  checkJoin map finding
  let digest ← sha.hash canonical.toByteArray
  .ok (encode (fingerprintFields finding generation actor digest))

/-- What a fingerprint says: the digest of the canonical bytes in its row, and a finding of the binding they decode to. -/
theorem findingFingerprint_eq_ok {raw : String} {scope : TrustedScope} {sha : Sha256} {out : String}
    (h : findingFingerprint raw scope sha = .ok out) :
    ∃ map canonical proposed generation actor digest, splitBinding raw = .ok map ∧ Binding.field map "binding" = .ok canonical ∧
      checkedBinding scope canonical = .ok proposed ∧ sha.hash canonical.toByteArray = .ok digest ∧
        out = encode (fingerprintFields (Finding.forBinding proposed ⟨generation⟩ actor) generation actor digest) := by
  unfold findingFingerprint at h
  obtain ⟨map, hmap, h⟩ := Result.bind_eq_ok.1 h
  obtain ⟨_, -, h⟩ := Result.bind_eq_ok.1 h
  obtain ⟨canonical, hcanonical, h⟩ := Result.bind_eq_ok.1 h
  obtain ⟨proposed, hproposed, h⟩ := Result.bind_eq_ok.1 h
  obtain ⟨actor, -, h⟩ := Result.bind_eq_ok.1 h
  obtain ⟨generation, -, h⟩ := Result.bind_eq_ok.1 h
  obtain ⟨_, -, h⟩ := Result.bind_eq_ok.1 h
  obtain ⟨digest, hdigest, h⟩ := Result.bind_eq_ok.1 h
  exact ⟨map, canonical, proposed, generation, actor, digest, Result.mapError_eq_ok.1 hmap,
    Result.mapError_eq_ok.1 hcanonical, hproposed, hdigest, (Except.ok.inj h).symm⟩

end Verdant.Seal
