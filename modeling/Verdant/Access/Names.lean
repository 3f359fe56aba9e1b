import Verdant.Access.Error

/-!
# Names, keys and policies

The validated texts of the access module, a presented credential, and the persisted policy of a capability with the two
comparisons the gate makes on it: `requireLive` against a clock reading and `authorize` against a requested delegation.
-/

namespace Verdant.Access

open TextCodec Storage

def accessSchemaGeneration : Nat := 1
def bootstrapIssuerText : String := "bootstrap-issuer-1"
def syntheticUserText : String := "synthetic-operator-1"
def reviewerCapText : String := "reviewer-1"
def publisherCapText : String := "publisher-1"
def reviewerKeyText : String := "key-reviewer-1"
def publisherKeyText : String := "key-publisher-1"
def syntheticLabelText : String := "synthetic"
def syntheticSensorText : String := "sensor-sat-1"
def accessUnitText : String := "access-event"
def opBootstrapText : String := "access-bootstrap"
def opIssueText : String := "access-issue"
def opRevokeText : String := "access-revoke"
def maxReasonLen : Nat := 256
def maxLabelLen : Nat := 128
def maxKeyLen : Nat := 256
def requiredReviewCeiling : UInt8 := 1

/-! ### Identities -/

def validateTokenText (kind raw : String) : Except AccessError Unit :=
  if raw = "" then .error (.invalidInput kind "value must not be empty")
  else if 128 < raw.utf8ByteSize then
    .error (.invalidInput kind s!"value is {raw.utf8ByteSize} chars; maximum is 128")
  else if raw.toList.all idChar then .ok ()
  else .error (.invalidInput kind s!"value has unsupported characters: '{raw}'")

theorem validateTokenText_eq_ok {kind raw : String} : validateTokenText kind raw = .ok () ↔ IsId raw := by
  unfold validateTokenText IsId maxIdLen
  by_cases hempty : raw = ""
  · simp [hempty]
  by_cases hlen : 128 < raw.utf8ByteSize
  · have hlong : ¬ raw.utf8ByteSize ≤ 128 := by omega
    simp [hempty, hlen, hlong]
  · have hshort : raw.utf8ByteSize ≤ 128 := by omega
    by_cases hchars : raw.toList.all idChar = true
    · simp only [if_neg hempty, if_neg hlen, if_pos hchars]
      exact ⟨fun _ => ⟨hempty, hshort, hchars⟩, fun _ => trivial⟩
    · simp only [if_neg hempty, if_neg hlen, if_neg hchars]
      exact ⟨fun h => (nomatch h), fun h => absurd h.2.2 hchars⟩

/-- Named capability identity; labels never stand for it. -/
structure CapabilityName where
  text : String
  valid : IsId text

theorem CapabilityName.ext_text {a b : CapabilityName} (h : a.text = b.text) : a = b := by
  cases a
  cases b
  cases h
  rfl

instance : DecidableEq CapabilityName := fun _ _ => decidable_of_iff _ ⟨CapabilityName.ext_text, congrArg CapabilityName.text⟩

/-- Key identity; the key itself never leaves the caller. -/
structure KeyId where
  text : String
  valid : IsId text

theorem KeyId.ext_text {a b : KeyId} (h : a.text = b.text) : a = b := by
  cases a
  cases b
  cases h
  rfl

instance : DecidableEq KeyId := fun _ _ => decidable_of_iff _ ⟨KeyId.ext_text, congrArg KeyId.text⟩

structure UserId where
  text : String
  valid : IsId text

theorem UserId.ext_text {a b : UserId} (h : a.text = b.text) : a = b := by
  cases a
  cases b
  cases h
  rfl

instance : DecidableEq UserId := fun _ _ => decidable_of_iff _ ⟨UserId.ext_text, congrArg UserId.text⟩

structure IssuerId where
  text : String
  valid : IsId text

theorem IssuerId.ext_text {a b : IssuerId} (h : a.text = b.text) : a = b := by
  cases a
  cases b
  cases h
  rfl

instance : DecidableEq IssuerId := fun _ _ => decidable_of_iff _ ⟨IssuerId.ext_text, congrArg IssuerId.text⟩

/-- The shared shape of the identity constructors of this module. -/
def parseToken {α : Type} (kind raw : String) (make : (text : String) → IsId text → α) : Except AccessError α :=
  match h : validateTokenText kind raw with
  | .error e => .error e
  | .ok () => .ok (make raw (validateTokenText_eq_ok.1 h))

theorem parseToken_of_isId {α : Type} {kind raw : String} {make : (text : String) → IsId text → α} (h : IsId raw) :
    parseToken kind raw make = .ok (make raw h) := by
  unfold parseToken
  split
  · rename_i e he
    rw [validateTokenText_eq_ok.2 h] at he
    exact nomatch he
  · rfl

def CapabilityName.parse (raw : String) : Except AccessError CapabilityName := parseToken "capability-name" raw .mk
def KeyId.parse (raw : String) : Except AccessError KeyId := parseToken "key-id" raw .mk
def UserId.parse (raw : String) : Except AccessError UserId := parseToken "user-id" raw .mk
def IssuerId.parse (raw : String) : Except AccessError IssuerId := parseToken "issuer-id" raw .mk

@[simp] theorem CapabilityName.parse_text (name : CapabilityName) : parse name.text = .ok name :=
  parseToken_of_isId name.valid
@[simp] theorem KeyId.parse_text (key : KeyId) : parse key.text = .ok key := parseToken_of_isId key.valid
@[simp] theorem UserId.parse_text (user : UserId) : parse user.text = .ok user := parseToken_of_isId user.valid
@[simp] theorem IssuerId.parse_text (issuer : IssuerId) : parse issuer.text = .ok issuer :=
  parseToken_of_isId issuer.valid

def frozenIssuer : IssuerId := ⟨bootstrapIssuerText, by decide⟩
def frozenUser : UserId := ⟨syntheticUserText, by decide⟩
def reviewerCap : CapabilityName := ⟨reviewerCapText, by decide⟩
def publisherCap : CapabilityName := ⟨publisherCapText, by decide⟩

/-! ### Texts -/

def validateBounded (what : String) (max : Nat) (raw : String) : Except AccessError Unit :=
  if raw = "" then .error (.invalidInput what s!"{what} must not be empty")
  else if max < raw.utf8ByteSize then
    .error (.invalidInput what s!"{what} is {raw.utf8ByteSize} chars; maximum is {max}")
  else if Char.ofNat 0 ∈ raw.toList then .error (.invalidInput what s!"{what} must not contain NUL")
  else .ok ()

/-- Recorded reason. -/
structure Reason where
  text : String
  valid : validateBounded "reason" maxReasonLen text = .ok ()

/-- Display label, never an identity. -/
structure DisplayLabel where
  text : String
  valid : validateBounded "label" maxLabelLen text = .ok ()

def Reason.parse (raw : String) : Except AccessError Reason :=
  match h : validateBounded "reason" maxReasonLen raw with
  | .error e => .error e
  | .ok () => .ok ⟨raw, h⟩

def DisplayLabel.parse (raw : String) : Except AccessError DisplayLabel :=
  match h : validateBounded "label" maxLabelLen raw with
  | .error e => .error e
  | .ok () => .ok ⟨raw, h⟩

theorem validateBounded_ne_empty {what raw : String} {max : Nat} (h : validateBounded what max raw = .ok ()) :
    raw ≠ "" := by
  rintro rfl
  exact nomatch h

theorem validateBounded_le {what raw : String} {max : Nat} (h : validateBounded what max raw = .ok ()) :
    raw.utf8ByteSize ≤ max := by
  unfold validateBounded at h
  split at h
  · exact nomatch h
  split at h
  · exact nomatch h
  · omega

def RoleKind.parse (raw : String) : Except AccessError RoleKind :=
  if raw = "reviewer" then .ok .reviewer
  else if raw = "publisher" then .ok .publisher
  else .error (.invalidInput "role" s!"unknown role '{raw}'; expected reviewer/publisher")

def RoleKind.asStr : RoleKind → String
  | .reviewer => "reviewer"
  | .publisher => "publisher"

@[simp]
theorem RoleKind.parse_asStr (role : RoleKind) : RoleKind.parse (RoleKind.asStr role) = .ok role := by
  cases role <;> rfl

/-! ### Credentials -/

def IsKeyText (raw : String) : Prop :=
  raw ≠ "" ∧ raw.utf8ByteSize ≤ maxKeyLen ∧ "synthetic-".toList.isPrefixOf raw.toList = true

instance (raw : String) : Decidable (IsKeyText raw) := by
  unfold IsKeyText
  infer_instance

/-- Key material; only its fingerprint is stored. -/
structure SyntheticKey where
  text : String
  valid : IsKeyText text
  deriving DecidableEq

def SyntheticKey.parse (raw : String) : Except AccessError SyntheticKey :=
  if hempty : raw = "" then .error (.invalidInput "key" "key must not be empty")
  else if hlen : maxKeyLen < raw.utf8ByteSize then
    .error (.invalidInput "key" s!"key is {raw.utf8ByteSize} chars; maximum is {maxKeyLen}")
  else if hfront : "synthetic-".toList.isPrefixOf raw.toList = true then
    .ok ⟨raw, hempty, Nat.le_of_not_lt hlen, hfront⟩
  else .error (.invalidInput "key" "only synthetic test keys (prefix `synthetic-`) are accepted")

def fingerprintStr (raw : String) : String := fnv1aHex raw

def SyntheticKey.fingerprint (key : SyntheticKey) : String := fingerprintStr key.text

/-- What a caller presents: a capability, the identity of a key, and the key. -/
structure Credential where
  capability : CapabilityName
  keyId : KeyId
  key : SyntheticKey
  deriving DecidableEq

/-! ### Policies -/

def maxCeilingLevel : UInt8 := 3

/-- A ceiling bound to one scope. -/
structure CredentialCeiling where
  scope : TrustedScope
  level : UInt8
  level_le : level ≤ maxCeilingLevel
  deriving DecidableEq

def CredentialCeiling.new (scope : TrustedScope) (level : UInt8) : Except DomainError CredentialCeiling :=
  if h : level ≤ maxCeilingLevel then .ok ⟨scope, level, h⟩
  else .error (.invalidValue "credential-ceiling" (Nat.repr level.toNat))

/-- Persisted issuance policy: no administration at all, or up to sixteen distinct scopes under a ceiling. -/
structure CapabilityPolicy where
  scopes : List TrustedScope
  adminCeiling : Option UInt8
  expiresAtMs : Option Int64
  entry : adminCeiling = none → scopes = []
  admin : ∀ level ∈ adminCeiling, scopes ≠ [] ∧ scopes.length ≤ 16 ∧ scopes.Nodup ∧ level ≤ maxCeilingLevel
  deriving DecidableEq

namespace CapabilityPolicy

def entryOnly (expiresAt : Option Int64) : CapabilityPolicy where
  scopes := []
  adminCeiling := none
  expiresAtMs := expiresAt
  entry _ := rfl
  admin _ h := nomatch h

def administrator (scopes : List TrustedScope) (ceiling : UInt8) (expiresAt : Option Int64) :
    Except AccessError CapabilityPolicy :=
  if hsize : scopes = [] ∨ 16 < scopes.length ∨ maxCeilingLevel < ceiling then
    .error (.invalidInput "policy" "admin policy requires 1..=16 scopes and a bounded ceiling")
  else if hnodup : scopes.Nodup then .ok {
    scopes := scopes
    adminCeiling := some ceiling
    expiresAtMs := expiresAt
    entry := fun h => nomatch h
    admin := by
      rintro level ⟨⟩
      simp only [not_or] at hsize
      exact ⟨hsize.1, Nat.le_of_not_lt hsize.2.1, hnodup, UInt8.not_lt.1 hsize.2.2⟩ }
  else .error (.invalidInput "policy" "duplicate administrative scope")

/-- A policy of an administrator is the one its constructor makes. -/
theorem administrator_self (policy : CapabilityPolicy) {level : UInt8} (h : policy.adminCeiling = some level) :
    administrator policy.scopes level policy.expiresAtMs = .ok policy := by
  obtain ⟨hne, hlen, hnodup, hlevel⟩ := policy.admin level h
  have hsize : ¬(policy.scopes = [] ∨ 16 < policy.scopes.length ∨ maxCeilingLevel < level) := by
    simp only [not_or]
    exact ⟨hne, Nat.not_lt.2 hlen, UInt8.not_lt.2 hlevel⟩
  unfold administrator
  rw [dif_neg hsize, dif_pos hnodup]
  obtain ⟨scopes, admin, expires, _, _⟩ := policy
  cases h
  rfl

/-- Whether the policy has not expired at a reading of the clock. -/
def LiveAt (policy : CapabilityPolicy) (now : Int) : Prop := ∀ expiry ∈ policy.expiresAtMs, now < expiry.toInt

instance (policy : CapabilityPolicy) (now : Int) : Decidable (policy.LiveAt now) := by
  unfold LiveAt
  infer_instance

def requireLive (policy : CapabilityPolicy) (now : Int) : Except AccessError Unit :=
  match policy.expiresAtMs with
  | some expiry => if expiry.toInt ≤ now then .error (.expiredCredential expiry.toInt) else .ok ()
  | none => .ok ()

theorem requireLive_eq_ok {policy : CapabilityPolicy} {now : Int} :
    policy.requireLive now = .ok () ↔ policy.LiveAt now := by
  unfold requireLive LiveAt
  cases policy.expiresAtMs with
  | none => simp
  | some expiry =>
    by_cases h : expiry.toInt ≤ now
    · simp [h]
    · simp [h]
      omega

def expiryExceeds (child end_ : Option Int64) : Bool :=
  match end_ with
  | none => false
  | some expiry =>
    match child with
    | none => true
    | some childEnd => expiry < childEnd

def authorize (policy : CapabilityPolicy) (bound : CredentialCeiling) (child : CapabilityPolicy) :
    Except AccessError Unit :=
  match policy.adminCeiling with
  | none => .error .administrationDenied
  | some level =>
    if bound.scope ∉ policy.scopes then
      .error (.scopeDenied (joinText ',' (policy.scopes.map TrustedScope.text)) bound.scope.text)
    else if level < bound.level then .error (.ceilingExceeded level bound.level)
    else if (child.adminCeiling.any fun c => level < c || bound.level < c) ||
        (child.scopes.any fun scope => scope ∉ policy.scopes) ||
        expiryExceeds child.expiresAtMs policy.expiresAtMs then
      .error (.policyDenied "delegation exceeds administrator policy or requested ceiling")
    else .ok ()

/-- A requested delegation is within the administrator's policy. -/
structure Bounds (policy : CapabilityPolicy) (bound : CredentialCeiling) (child : CapabilityPolicy) : Prop where
  scope : bound.scope ∈ policy.scopes
  level : ∃ level, policy.adminCeiling = some level ∧ bound.level ≤ level ∧ ∀ c ∈ child.adminCeiling, c ≤ level
  ceiling : ∀ c ∈ child.adminCeiling, c ≤ bound.level
  scopes : ∀ scope ∈ child.scopes, scope ∈ policy.scopes
  expiry : ∀ expiry ∈ policy.expiresAtMs, ∃ childEnd, child.expiresAtMs = some childEnd ∧ childEnd ≤ expiry

theorem not_expiryExceeds {child expiry : Option Int64} (h : expiryExceeds child expiry = false) :
    ∀ e ∈ expiry, ∃ childEnd, child = some childEnd ∧ childEnd ≤ e := by
  rintro e ⟨⟩
  unfold expiryExceeds at h
  cases child with
  | none => exact nomatch h
  | some childEnd =>
    simp only [decide_eq_false_iff_not] at h
    exact ⟨childEnd, rfl, Int64.not_lt.1 h⟩

theorem bounds_of_authorize {policy : CapabilityPolicy} {bound : CredentialCeiling} {child : CapabilityPolicy}
    (h : policy.authorize bound child = .ok ()) : policy.Bounds bound child := by
  unfold authorize at h
  cases hlevel : policy.adminCeiling with
  | none =>
    rw [hlevel] at h
    exact nomatch h
  | some level =>
    rw [hlevel] at h
    simp only [Result.ite_error_eq_ok, and_true, Bool.not_eq_true, Bool.or_eq_false_iff] at h
    obtain ⟨hscope, hbound, ⟨hadmin, hscopes⟩, hexpiry⟩ := h
    have hbelow : ∀ c ∈ child.adminCeiling, ¬level < c ∧ ¬bound.level < c := by
      intro c hc
      rw [Option.mem_def.1 hc] at hadmin
      simpa using hadmin
    exact {
      scope := not_not.1 hscope
      level := ⟨level, hlevel, UInt8.not_lt.1 hbound, fun c hc => UInt8.not_lt.1 (hbelow c hc).1⟩
      ceiling := fun c hc => UInt8.not_lt.1 (hbelow c hc).2
      scopes := fun scope hs => by
        have hnone := List.any_eq_false.1 hscopes scope hs
        simpa using hnone
      expiry := not_expiryExceeds hexpiry }

end CapabilityPolicy

end Verdant.Access
