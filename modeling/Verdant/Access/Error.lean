import Verdant.Domain.Types
import Verdant.Storage.OutboxRow

/-!
# Access failures
-/

namespace Verdant.Access

open Storage

/-- Typed access failure. -/
inductive AccessError where
  | alreadyBootstrapped (detail : String)
  | notBootstrapped (detail : String)
  | unknownCapability (capability : String)
  | unknownIssuer (issuer : String)
  | forgedCredential (detail : String)
  | scopeDenied (expected presented : String)
  | ceilingExceeded (have_ required : UInt8)
  | roleDenied (have_ required : String)
  | revokedCredential (capability key : String)
  | staleGeneration (capability : String) (presented current : UInt32)
  | administrationDenied
  | policyDenied (detail : String)
  | expiredCredential (expiresAtMs : Int)
  | generationOverflow (capability : String)
  | mutationUnknown (operation : OperationId) (detail : String)
  | anonymousDenied (detail : String)
  | invalidInput (what detail : String)
  | invalidRecord (detail : String)
  | store (error : StorageError)
  deriving DecidableEq

/-- The text an access failure displays. -/
def AccessError.display : AccessError → String
  | .alreadyBootstrapped detail => s!"already bootstrapped: {detail}"
  | .notBootstrapped detail => s!"not bootstrapped: {detail}"
  | .unknownCapability capability => s!"unknown capability '{capability}'"
  | .unknownIssuer issuer => s!"unknown issuer '{issuer}'"
  | .forgedCredential detail => s!"forged credential: {detail}"
  | .scopeDenied expected presented => s!"scope denied: issued for '{expected}', presented '{presented}'"
  | .ceilingExceeded issued required => s!"ceiling exceeded: issued level {issued}, operation requires {required}"
  | .roleDenied issued required => s!"role denied: issued '{issued}', operation requires '{required}'"
  | .revokedCredential capability key => s!"revoked credential: capability '{capability}' key '{key}' is revoked"
  | .staleGeneration capability presented current =>
    s!"stale generation: capability '{capability}' presented gen {presented}, current gen {current}"
  | .administrationDenied => "credential has no administrative privilege"
  | .policyDenied detail => s!"policy denied: {detail}"
  | .expiredCredential expiresAtMs => s!"credential expired at {expiresAtMs}"
  | .generationOverflow capability => s!"capability '{capability}' generation exhausted"
  | .mutationUnknown operation detail =>
    s!"UNKNOWN outcome for {operation.text}; reconcile that identity, do not retry as new work: {detail}"
  | .anonymousDenied detail => s!"anonymous denied: {detail}"
  | .invalidInput what detail => s!"invalid {what}: {detail}"
  | .invalidRecord detail => s!"invalid admission record: {detail}"
  | .store error => error.display

/-- The machine code of an access failure. -/
def AccessError.code : AccessError → String
  | .alreadyBootstrapped _ => "already-bootstrapped"
  | .notBootstrapped _ => "not-bootstrapped"
  | .unknownCapability _ => "unknown-capability"
  | .unknownIssuer _ => "unknown-issuer"
  | .forgedCredential _ => "forged-credential"
  | .scopeDenied _ _ => "scope-denied"
  | .ceilingExceeded _ _ => "ceiling-exceeded"
  | .roleDenied _ _ => "role-denied"
  | .revokedCredential _ _ => "revoked-credential"
  | .staleGeneration _ _ _ => "stale-generation"
  | .administrationDenied => "administration-denied"
  | .policyDenied _ => "policy-denied"
  | .expiredCredential _ => "expired-credential"
  | .generationOverflow _ => "generation-overflow"
  | .mutationUnknown _ _ => "mutation-unknown"
  | .anonymousDenied _ => "anonymous-denied"
  | .invalidInput _ _ => "invalid-input"
  | .invalidRecord _ => "invalid-record"
  | .store error => error.code

def invalid (detail : String) : AccessError := .invalidRecord detail

end Verdant.Access
