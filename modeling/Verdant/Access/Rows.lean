import Verdant.Access.Names
import Verdant.Storage.Descriptor

/-!
# Admission rows

The three kinds of rows of the admission log and their descriptors.  Reading the descriptor of a well-formed row gives
the row back (`decodeAdmission_encode`), so what the gate writes it can always read.
-/

namespace Verdant.Access

open TextCodec Storage

structure IssueRow where
  cap : CapabilityName
  scope : TrustedScope
  ceiling : UInt8
  role : RoleKind
  keyId : KeyId
  keyFp : String
  issuer : IssuerId
  capgen : UInt32
  user : UserId
  reason : String
  label : String
  policy : CapabilityPolicy
  deriving DecidableEq

structure RevokeRow where
  cap : CapabilityName
  keyId : KeyId
  capgen : UInt32
  issuer : IssuerId
  reason : String
  deriving DecidableEq

structure BootstrapRow where
  user : UserId
  issuer : IssuerId
  reason : String
  generation : Nat
  deriving DecidableEq

/-! ### Encoding -/

def adminText (policy : CapabilityPolicy) : String :=
  match policy.adminCeiling with
  | some level => Nat.repr level.toNat
  | none => "none"

def scopesText (policy : CapabilityPolicy) : String := joinText ',' (policy.scopes.map TrustedScope.text)

def expiresText (policy : CapabilityPolicy) : String :=
  match policy.expiresAtMs with
  | some expiry => toString expiry.toInt
  | none => "none"

def encodeIssue (row : IssueRow) : String := descriptor [
  ("v", "2"), ("kind", "issue"), ("cap", pctEncode row.cap.text), ("scope", pctEncode row.scope.text),
  ("ceiling", Nat.repr row.ceiling.toNat), ("role", pctEncode (RoleKind.asStr row.role)),
  ("key", pctEncode row.keyId.text), ("keyfp", pctEncode row.keyFp), ("issuer", pctEncode row.issuer.text),
  ("capgen", Nat.repr row.capgen.toNat), ("user", pctEncode row.user.text), ("reason", pctEncode row.reason),
  ("label", pctEncode row.label), ("admin", adminText row.policy), ("scopes", pctEncode (scopesText row.policy)),
  ("expires", expiresText row.policy)]

def encodeRevoke (row : RevokeRow) : String := descriptor [
  ("v", "2"), ("kind", "revoke"), ("cap", pctEncode row.cap.text), ("key", pctEncode row.keyId.text),
  ("capgen", Nat.repr row.capgen.toNat), ("issuer", pctEncode row.issuer.text), ("reason", pctEncode row.reason)]

def encodeBootstrap (row : BootstrapRow) : String := descriptor [
  ("v", "2"), ("kind", "bootstrap"), ("user", pctEncode row.user.text), ("issuer", pctEncode row.issuer.text),
  ("reason", pctEncode row.reason), ("generation", Nat.repr row.generation)]

/-! ### Decoding -/

def words : DescriptorWords := ⟨"admission", "percent escape", "admission field"⟩

def field (map : Fields) (key : String) : Except AccessError String := (requireField words map key).mapError invalid

/-- A domain check of a stored field, with what the field is called. -/
def stored {α : Type} (what : String) (x : Except AccessError α) : Except AccessError α :=
  x.mapError fun e => invalid s!"{what}: {e.display}"

def bootstrapFields : List String := ["v", "kind", "user", "issuer", "reason", "generation"]

def issueFields : List String := ["v", "kind", "cap", "scope", "ceiling", "role", "key", "keyfp", "issuer", "capgen",
  "user", "reason", "label", "admin", "scopes", "expires"]

def revokeFields : List String := ["v", "kind", "cap", "key", "capgen", "issuer", "reason"]

def allowedFields (kind : String) : Except AccessError (List String) :=
  if kind = "bootstrap" then .ok bootstrapFields
  else if kind = "issue" then .ok issueFields
  else if kind = "revoke" then .ok revokeFields
  else .error (invalid s!"unknown admission kind '{kind}'")

def decodeDescriptor (raw : String) : Except AccessError (String × Fields) := do
  let map ← (splitDescriptor words raw).mapError invalid
  let version ← field map "v"
  if version ≠ "2" then .error (invalid s!"unsupported admission descriptor version '{version}'")
  else
    let kind ← field map "kind"
    let allowed ← allowedFields kind
    (rejectUnknownFields words map allowed).mapError invalid
    .ok (kind, map)

def parseU8 (s : String) : Option UInt8 :=
  ((parseNat s).filter fun n => n < 2 ^ 8).map UInt8.ofNat

def decodeCeiling (raw : String) : Except AccessError UInt8 :=
  match parseU8 raw with
  | none => .error (invalid s!"issue ceiling unreadable: '{raw}'")
  | some ceiling =>
    if maxCeilingLevel < ceiling then
      .error (invalid s!"issue ceiling {ceiling.toNat} exceeds max {maxCeilingLevel.toNat}")
    else .ok ceiling

def decodeCapgen (what raw : String) : Except AccessError UInt32 :=
  match parseUInt32 raw with
  | none => .error (invalid s!"{what} capgen unreadable: '{raw}'")
  | some capgen => if capgen = 0 then .error (invalid s!"{what} capgen must be at least 1") else .ok capgen

def nonEmpty (what raw : String) : Except AccessError Unit :=
  if raw = "" then .error (invalid s!"{what} must not be empty") else .ok ()

def decodeExpires (raw : String) : Except AccessError (Option Int64) :=
  if raw = "none" then .ok none
  else match parseI64 raw with
    | some n => .ok (some (Int64.ofInt n))
    | none => .error (invalid "invalid expiry")

def decodeScopes (raw : String) : Except AccessError (List TrustedScope) :=
  ((splitText ',' raw).mapM TrustedScope.parse).mapError fun e => invalid e.display

def decodePolicy (ceiling : UInt8) (admin scopes : String) (expires : Option Int64) :
    Except AccessError CapabilityPolicy :=
  if admin = "none" then
    if scopes ≠ "" then .error (invalid "entry-only policy has administrative scopes")
    else .ok (.entryOnly expires)
  else match parseU8 admin with
    | none => .error (invalid "invalid administrative ceiling")
    | some level =>
      if ceiling < level then .error (invalid "administrative ceiling exceeds credential ceiling")
      else do
        let scopes ← decodeScopes scopes
        (CapabilityPolicy.administrator scopes level expires).mapError fun e => invalid e.display

def decodeIssue (map : Fields) : Except AccessError IssueRow := do
  let capText ← field map "cap"
  let scopeText ← field map "scope"
  let ceiling ← decodeCeiling (← field map "ceiling")
  let scope ← (TrustedScope.parse scopeText).mapError fun e => invalid s!"issue scope invalid: {e.display} [{e.code}]"
  let role ← stored "issue role invalid" (RoleKind.parse (← field map "role"))
  let keyId ← stored "issue key id" (KeyId.parse (← field map "key"))
  let cap ← stored "issue capability" (CapabilityName.parse capText)
  let keyFp ← field map "keyfp"
  if keyFp = "" ∨ 64 < keyFp.utf8ByteSize then .error (invalid "issue key fingerprint has an unexpected shape")
  else
    let issuer ← stored "issue issuer" (IssuerId.parse (← field map "issuer"))
    let capgen ← decodeCapgen "issue" (← field map "capgen")
    let user ← stored "issue user" (UserId.parse (← field map "user"))
    let reason ← field map "reason"
    nonEmpty "issue reason" reason
    let label ← field map "label"
    nonEmpty "issue label" label
    let expires ← decodeExpires (← field map "expires")
    let admin ← field map "admin"
    let policy ← decodePolicy ceiling admin (← field map "scopes") expires
    .ok ⟨cap, scope, ceiling, role, keyId, keyFp, issuer, capgen, user, reason, label, policy⟩

def decodeRevoke (map : Fields) : Except AccessError RevokeRow := do
  let cap ← stored "revoke capability" (CapabilityName.parse (← field map "cap"))
  let keyId ← stored "revoke key id" (KeyId.parse (← field map "key"))
  let capgen ← decodeCapgen "revoke" (← field map "capgen")
  let issuer ← stored "revoke issuer" (IssuerId.parse (← field map "issuer"))
  let reason ← field map "reason"
  nonEmpty "revoke reason" reason
  .ok ⟨cap, keyId, capgen, issuer, reason⟩

def decodeGeneration (raw : String) : Except AccessError Nat :=
  match parseU32 raw with
  | none => .error (invalid s!"bootstrap generation unreadable: '{raw}'")
  | some n =>
    if n ≠ accessSchemaGeneration then .error (invalid s!"bootstrap generation {n} is not {accessSchemaGeneration}")
    else .ok n

def decodeBootstrap (map : Fields) : Except AccessError BootstrapRow := do
  let user ← stored "bootstrap user" (UserId.parse (← field map "user"))
  let issuer ← stored "bootstrap issuer" (IssuerId.parse (← field map "issuer"))
  let reason ← field map "reason"
  nonEmpty "bootstrap reason" reason
  let generation ← decodeGeneration (← field map "generation")
  .ok ⟨user, issuer, reason, generation⟩

/-! ### Rows of the log -/

/-- One row of the admission log. -/
inductive Admission where
  | bootstrap (row : BootstrapRow)
  | issue (row : IssueRow)
  | revoke (row : RevokeRow)
  deriving DecidableEq

namespace Admission

def operation : Admission → String
  | .bootstrap _ => opBootstrapText
  | .issue _ => opIssueText
  | .revoke _ => opRevokeText

/-- The entity a row is stored under. -/
def anchor : Admission → String
  | .bootstrap row => row.user.text
  | .issue row => row.cap.text
  | .revoke row => row.cap.text

def encode : Admission → String
  | .bootstrap row => encodeBootstrap row
  | .issue row => encodeIssue row
  | .revoke row => encodeRevoke row

/-- What every row the gate writes satisfies. -/
def WellFormed : Admission → Prop
  | .bootstrap row => row.reason ≠ "" ∧ row.generation = accessSchemaGeneration
  | .issue row => row.ceiling ≤ maxCeilingLevel ∧ row.capgen ≠ 0 ∧ row.reason ≠ "" ∧ row.label ≠ "" ∧
      row.keyFp ≠ "" ∧ row.keyFp.utf8ByteSize ≤ 64 ∧ ∀ level ∈ row.policy.adminCeiling, level ≤ row.ceiling
  | .revoke row => row.capgen ≠ 0 ∧ row.reason ≠ ""

end Admission

/-- The row of a descriptor stored under an operation. -/
def decodeAdmission (operation descriptor : String) : Except AccessError Admission := do
  let (kind, fields) ← decodeDescriptor descriptor
  if operation = opBootstrapText ∧ kind = "bootstrap" then do
    .ok (.bootstrap (← decodeBootstrap fields))
  else if operation = opIssueText ∧ kind = "issue" then do
    .ok (.issue (← decodeIssue fields))
  else if operation = opRevokeText ∧ kind = "revoke" then do
    .ok (.revoke (← decodeRevoke fields))
  else .error (invalid "admission operation/kind mismatch")

/-! ### Round trip -/

theorem parseU8_repr (n : UInt8) : parseU8 (Nat.repr n.toNat) = some n := by
  have hlt := n.toNat_lt
  unfold parseU8
  rw [parseNat_repr, Option.filter_some, if_pos (by simpa using hlt)]
  simp

private theorem none_ne_of_parse {s : String} {n : Int} (h : parseInt s = some n) : s ≠ "none" := by
  rintro rfl
  have hnone : parseInt "none" = none := by decide
  rw [hnone] at h
  exact nomatch h

theorem decodeCeiling_repr {ceiling : UInt8} (h : ceiling ≤ maxCeilingLevel) :
    decodeCeiling (Nat.repr ceiling.toNat) = .ok ceiling := by
  unfold decodeCeiling
  simp only [parseU8_repr]
  rw [if_neg (UInt8.not_lt.2 h)]

theorem decodeCapgen_repr (what : String) {capgen : UInt32} (h : capgen ≠ 0) :
    decodeCapgen what (Nat.repr capgen.toNat) = .ok capgen := by
  unfold decodeCapgen
  simp only [parseUInt32_repr]
  rw [if_neg h]

theorem decodeExpires_expiresText (policy : CapabilityPolicy) :
    decodeExpires (expiresText policy) = .ok policy.expiresAtMs := by
  unfold decodeExpires expiresText
  cases policy.expiresAtMs with
  | none => rfl
  | some expiry =>
    have hne : toString expiry.toInt ≠ "none" := none_ne_of_parse (parseInt_toString expiry.toInt)
    have hlow := expiry.le_toInt
    have hhigh := expiry.toInt_lt
    have hparse : parseI64 (toString expiry.toInt) = some expiry.toInt := by
      unfold parseI64
      rw [parseInt_toString, Option.filter_some, if_pos]
      simpa using ⟨hlow, hhigh⟩
    simp only [if_neg hne, hparse, Int64.ofInt_toInt]

theorem decodeScopes_scopesText {policy : CapabilityPolicy} (h : policy.scopes ≠ []) :
    decodeScopes (scopesText policy) = .ok policy.scopes := by
  have hcomma : ∀ f ∈ policy.scopes.map TrustedScope.text, ',' ∉ f.toList := by
    intro f hf hc
    obtain ⟨scope, -, rfl⟩ := List.mem_map.1 hf
    have := List.all_eq_true.1 scope.valid.2.2 _ hc
    exact absurd this (by decide)
  have hparse : ∀ scopes : List TrustedScope, (scopes.map TrustedScope.text).mapM TrustedScope.parse = .ok scopes := by
    intro scopes
    induction scopes with
    | nil => rfl
    | cons scope scopes ih =>
      have hhead : TrustedScope.parse scope.text = .ok scope := parseId_of_isId scope.valid
      simp only [List.map_cons, List.mapM_cons, hhead, ih]
      rfl
  unfold decodeScopes scopesText
  rw [splitText_joinText hcomma (by simpa using h), hparse]
  rfl

theorem decodePolicy_texts {ceiling : UInt8} {policy : CapabilityPolicy}
    (h : ∀ level ∈ policy.adminCeiling, level ≤ ceiling) :
    decodePolicy ceiling (adminText policy) (scopesText policy) policy.expiresAtMs = .ok policy := by
  unfold decodePolicy adminText
  cases hadmin : policy.adminCeiling with
  | none =>
    have hscopes := policy.entry hadmin
    have hempty : scopesText policy = "" := by
      unfold scopesText
      rw [hscopes]
      rfl
    simp only [if_true, hempty, ne_eq, not_true_eq_false, if_false]
    obtain ⟨scopes, admin, expires, _, _⟩ := policy
    simp only at hadmin hscopes
    subst hadmin hscopes
    rfl
  | some level =>
    have hne : Nat.repr level.toNat ≠ "none" := none_ne_of_parse (parseInt_repr level.toNat)
    have hscopes := (policy.admin level hadmin).1
    simp only [if_neg hne, parseU8_repr]
    rw [if_neg (UInt8.not_lt.2 (h level hadmin)), decodeScopes_scopesText hscopes, Result.ok_bind,
      policy.administrator_self hadmin]
    rfl

/-- Fields as their reader sees them. -/
private theorem descriptor_read {fields : Fields} {raw : String} (hne : fields ≠ []) (hkeys : ∀ f ∈ fields, IsKey f.1)
    (hnodup : (fields.map Prod.fst).Nodup) (hraw : raw = descriptor (fields.map fun f => (f.1, pctEncode f.2))) :
    ∃ map, splitDescriptor words raw = .ok map ∧ (∀ k value, fields.lookup k = some value → field map k = .ok value) ∧
      ∀ allowed, (∀ k ∈ fields.map Prod.fst, k ∈ allowed) → rejectUnknownFields words map allowed = .ok () := by
  obtain ⟨map, hmap, hlookup, hmem⟩ := splitDescriptor_descriptor words hne hkeys hnodup
  refine ⟨map, hraw ▸ hmap, fun k value hk => ?_, fun allowed hallowed => ?_⟩
  · unfold field
    rw [requireField_of_lookup ((hlookup k).trans hk)]
    rfl
  · exact rejectUnknownFields_of_subset fun k hk => hallowed k ((hmem k).1 hk)

private theorem plain_two : pctEncode "2" = "2" := pctEncode_of_plain (forall_mem_of_all (by decide))
private theorem plain_none : pctEncode "none" = "none" := pctEncode_of_plain (forall_mem_of_all (by decide))

private theorem pctEncode_adminText (policy : CapabilityPolicy) : pctEncode (adminText policy) = adminText policy := by
  unfold adminText
  cases policy.adminCeiling with
  | none => exact plain_none
  | some level => exact pctEncode_repr _

private theorem pctEncode_expiresText (policy : CapabilityPolicy) :
    pctEncode (expiresText policy) = expiresText policy := by
  unfold expiresText
  cases policy.expiresAtMs with
  | none => exact plain_none
  | some expiry => exact pctEncode_toString _

/-- The fields of a row before they are encoded. -/
def Admission.texts : Admission → Fields
  | .bootstrap row => [("v", "2"), ("kind", "bootstrap"), ("user", row.user.text), ("issuer", row.issuer.text),
      ("reason", row.reason), ("generation", Nat.repr row.generation)]
  | .issue row => [("v", "2"), ("kind", "issue"), ("cap", row.cap.text), ("scope", row.scope.text),
      ("ceiling", Nat.repr row.ceiling.toNat), ("role", RoleKind.asStr row.role), ("key", row.keyId.text),
      ("keyfp", row.keyFp), ("issuer", row.issuer.text), ("capgen", Nat.repr row.capgen.toNat), ("user", row.user.text),
      ("reason", row.reason), ("label", row.label), ("admin", adminText row.policy), ("scopes", scopesText row.policy),
      ("expires", expiresText row.policy)]
  | .revoke row => [("v", "2"), ("kind", "revoke"), ("cap", row.cap.text), ("key", row.keyId.text),
      ("capgen", Nat.repr row.capgen.toNat), ("issuer", row.issuer.text), ("reason", row.reason)]

theorem Admission.encode_eq (row : Admission) : row.encode = descriptor (row.texts.map fun f => (f.1, pctEncode f.2)) := by
  have hkinds : pctEncode "bootstrap" = "bootstrap" ∧ pctEncode "issue" = "issue" ∧ pctEncode "revoke" = "revoke" :=
    ⟨pctEncode_of_plain (forall_mem_of_all (by decide)), pctEncode_of_plain (forall_mem_of_all (by decide)),
      pctEncode_of_plain (forall_mem_of_all (by decide))⟩
  cases row with
  | bootstrap row =>
    simp only [encode, texts, encodeBootstrap, List.map_cons, List.map_nil, plain_two, hkinds.1, pctEncode_repr]
  | issue row =>
    simp only [encode, texts, encodeIssue, List.map_cons, List.map_nil, plain_two, hkinds.2.1, pctEncode_repr,
      pctEncode_adminText, pctEncode_expiresText]
  | revoke row =>
    simp only [encode, texts, encodeRevoke, List.map_cons, List.map_nil, plain_two, hkinds.2.2, pctEncode_repr]

theorem decodeBootstrap_encode {row : BootstrapRow} (h : (Admission.bootstrap row).WellFormed) :
    decodeAdmission opBootstrapText (encodeBootstrap row) = .ok (.bootstrap row) := by
  obtain ⟨hreason, hgeneration⟩ := h
  have hraw : encodeBootstrap row = descriptor ((Admission.bootstrap row).texts.map fun f => (f.1, pctEncode f.2)) :=
    (Admission.bootstrap row).encode_eq
  obtain ⟨map, hmap, hfield, hreject⟩ := descriptor_read (by simp [Admission.texts]) (by simp [Admission.texts, IsKey])
    (by simp [Admission.texts]) hraw
  have hgen : decodeGeneration (Nat.repr row.generation) = .ok row.generation := by
    unfold decodeGeneration
    rw [hgeneration]
    decide
  have hread : decodeDescriptor (encodeBootstrap row) = .ok ("bootstrap", map) := by
    unfold decodeDescriptor
    rw [hmap]
    simp only [Except.mapError, Result.ok_bind, hfield "v" _ rfl, hfield "kind" _ rfl, ne_eq, not_true_eq_false,
      if_false, allowedFields, if_true, hreject bootstrapFields (by simp [Admission.texts, bootstrapFields])]
  have hrow : decodeBootstrap map = .ok row := by
    unfold decodeBootstrap
    simp only [hfield "user" _ rfl, hfield "issuer" _ rfl, hfield "reason" _ rfl, hfield "generation" _ rfl,
      Result.ok_bind, UserId.parse_text, IssuerId.parse_text, stored, Except.mapError, nonEmpty, if_neg hreason, hgen]
  unfold decodeAdmission
  simp only [hread, Result.ok_bind, and_self, if_true, hrow]

theorem decodeRevoke_encode {row : RevokeRow} (h : (Admission.revoke row).WellFormed) :
    decodeAdmission opRevokeText (encodeRevoke row) = .ok (.revoke row) := by
  obtain ⟨hcapgen, hreason⟩ := h
  have hraw : encodeRevoke row = descriptor ((Admission.revoke row).texts.map fun f => (f.1, pctEncode f.2)) :=
    (Admission.revoke row).encode_eq
  obtain ⟨map, hmap, hfield, hreject⟩ := descriptor_read (by simp [Admission.texts]) (by simp [Admission.texts, IsKey])
    (by simp [Admission.texts]) hraw
  have hread : decodeDescriptor (encodeRevoke row) = .ok ("revoke", map) := by
    unfold decodeDescriptor
    rw [hmap]
    have hbootstrap : "revoke" ≠ "bootstrap" := by decide
    have hissue : "revoke" ≠ "issue" := by decide
    simp only [Except.mapError, Result.ok_bind, hfield "v" _ rfl, hfield "kind" _ rfl, ne_eq, not_true_eq_false,
      if_false, allowedFields, hbootstrap, hissue, if_true, hreject revokeFields (by simp [Admission.texts, revokeFields])]
  have hrow : decodeRevoke map = .ok row := by
    unfold decodeRevoke
    simp only [hfield "cap" _ rfl, hfield "key" _ rfl, hfield "capgen" _ rfl, hfield "issuer" _ rfl,
      hfield "reason" _ rfl, Result.ok_bind, CapabilityName.parse_text, KeyId.parse_text, IssuerId.parse_text, stored,
      Except.mapError, nonEmpty, if_neg hreason, decodeCapgen_repr "revoke" hcapgen]
  have hother : ¬(opRevokeText = opBootstrapText ∧ "revoke" = "bootstrap") := by decide
  have hother' : ¬(opRevokeText = opIssueText ∧ "revoke" = "issue") := by decide
  unfold decodeAdmission
  simp only [hread, Result.ok_bind, hother, hother', and_self, if_false, if_true, hrow]

theorem decodeIssue_encode {row : IssueRow} (h : (Admission.issue row).WellFormed) :
    decodeAdmission opIssueText (encodeIssue row) = .ok (.issue row) := by
  obtain ⟨hceiling, hcapgen, hreason, hlabel, hfp, hfplen, hadmin⟩ := h
  have hraw : encodeIssue row = descriptor ((Admission.issue row).texts.map fun f => (f.1, pctEncode f.2)) :=
    (Admission.issue row).encode_eq
  obtain ⟨map, hmap, hfield, hreject⟩ := descriptor_read (by simp [Admission.texts]) (by simp [Admission.texts, IsKey])
    (by simp [Admission.texts]) hraw
  have hread : decodeDescriptor (encodeIssue row) = .ok ("issue", map) := by
    unfold decodeDescriptor
    rw [hmap]
    have hbootstrap : "issue" ≠ "bootstrap" := by decide
    simp only [Except.mapError, Result.ok_bind, hfield "v" _ rfl, hfield "kind" _ rfl, ne_eq, not_true_eq_false,
      if_false, allowedFields, hbootstrap, if_true, hreject issueFields (by simp [Admission.texts, issueFields])]
  have hscope : TrustedScope.parse row.scope.text = .ok row.scope := parseId_of_isId row.scope.valid
  have hshape : ¬(row.keyFp = "" ∨ 64 < row.keyFp.utf8ByteSize) := not_or.2 ⟨hfp, Nat.not_lt.2 hfplen⟩
  have hrow : decodeIssue map = .ok row := by
    unfold decodeIssue
    simp only [hfield "cap" _ rfl, hfield "scope" _ rfl, hfield "ceiling" _ rfl, hfield "role" _ rfl,
      hfield "key" _ rfl, hfield "keyfp" _ rfl, hfield "issuer" _ rfl, hfield "capgen" _ rfl, hfield "user" _ rfl,
      hfield "reason" _ rfl, hfield "label" _ rfl, hfield "admin" _ rfl, hfield "scopes" _ rfl,
      hfield "expires" _ rfl, Result.ok_bind, decodeCeiling_repr hceiling, hscope, Except.mapError, stored,
      RoleKind.parse_asStr, KeyId.parse_text, CapabilityName.parse_text, IssuerId.parse_text, UserId.parse_text]
    simp only [if_neg hshape, decodeCapgen_repr "issue" hcapgen, Result.ok_bind, nonEmpty, if_neg hreason,
      if_neg hlabel, decodeExpires_expiresText, decodePolicy_texts hadmin]
  have hother : ¬(opIssueText = opBootstrapText ∧ "issue" = "bootstrap") := by decide
  unfold decodeAdmission
  simp only [hread, Result.ok_bind, hother, and_self, if_false, if_true, hrow]

/-- What the gate writes, it can read. -/
theorem decodeAdmission_encode {row : Admission} (h : row.WellFormed) :
    decodeAdmission row.operation row.encode = .ok row := by
  cases row with
  | bootstrap row => exact decodeBootstrap_encode h
  | issue row => exact decodeIssue_encode h
  | revoke row => exact decodeRevoke_encode h

end Verdant.Access
