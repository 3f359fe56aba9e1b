import Verdant.Access.Gate

/-!
# The admission log

The admission log as a list of rows, what one committed batch adds to it (`Commit`), and the logs that commits reach from
the empty one.  Every reachable log is `Sound`: one bootstrap, and for each capability a chain of issue rows of the
generations `1..n`, of distinct keys and the same facts, all revoked but perhaps the newest.
-/

namespace Verdant.Access

open TextCodec Storage

namespace Admission

def bootstrap? : Admission → Option BootstrapRow
  | .bootstrap row => some row
  | _ => none

def issue? : Admission → Option IssueRow
  | .issue row => some row
  | _ => none

def revoke? : Admission → Option RevokeRow
  | .revoke row => some row
  | _ => none

end Admission

/-! ### Logs -/

def bootstrapsOf (log : List Admission) : List BootstrapRow := log.filterMap Admission.bootstrap?
def issuesOf (log : List Admission) : List IssueRow := log.filterMap Admission.issue?
def revokesOf (log : List Admission) : List RevokeRow := log.filterMap Admission.revoke?

/-- The issue rows of one capability, in order. -/
def chain (cap : CapabilityName) (log : List Admission) : List IssueRow :=
  (issuesOf log).filter fun row => row.cap = cap

section Append

variable (a b : List Admission)

@[simp] theorem bootstrapsOf_append : bootstrapsOf (a ++ b) = bootstrapsOf a ++ bootstrapsOf b :=
  List.filterMap_append
@[simp] theorem issuesOf_append : issuesOf (a ++ b) = issuesOf a ++ issuesOf b := List.filterMap_append
@[simp] theorem revokesOf_append : revokesOf (a ++ b) = revokesOf a ++ revokesOf b := List.filterMap_append

@[simp]
theorem chain_append (cap : CapabilityName) : chain cap (a ++ b) = chain cap a ++ chain cap b := by
  unfold chain
  rw [issuesOf_append, List.filter_append]

end Append

theorem mem_issuesOf {log : List Admission} {row : IssueRow} : row ∈ issuesOf log ↔ Admission.issue row ∈ log := by
  unfold issuesOf
  rw [List.mem_filterMap]
  constructor
  · rintro ⟨e, he, heq⟩
    cases e with
    | issue r =>
      obtain rfl := Option.some.inj heq
      exact he
    | bootstrap r => exact nomatch heq
    | revoke r => exact nomatch heq
  · intro h
    exact ⟨_, h, rfl⟩

theorem mem_chain {cap : CapabilityName} {log : List Admission} {row : IssueRow} :
    row ∈ chain cap log ↔ row ∈ issuesOf log ∧ row.cap = cap := by
  unfold chain
  rw [List.mem_filter, decide_eq_true_eq]

/-- The log records the revocation of a row's key. -/
def Revoked (log : List Admission) (row : IssueRow) : Prop :=
  ∃ r ∈ revokesOf log, r.cap = row.cap ∧ r.keyId = row.keyId

theorem Revoked.append {log : List Admission} {row : IssueRow} (h : Revoked log row) (rows : List Admission) :
    Revoked (log ++ rows) row := by
  obtain ⟨r, hr, hrow⟩ := h
  refine ⟨r, ?_, hrow⟩
  rw [revokesOf_append]
  exact List.mem_append_left _ hr

/-- The credential names the newest generation of its capability, under the recorded fingerprint, and is not revoked. -/
structure Accepted (log : List Admission) (cred : Credential) (row : IssueRow) : Prop where
  issued : row ∈ issuesOf log
  cap : row.cap = cred.capability
  key : row.keyId = cred.keyId
  fingerprint : row.keyFp = cred.key.fingerprint
  newest : ∀ r ∈ issuesOf log, r.cap = row.cap → r.capgen ≤ row.capgen
  unrevoked : ¬ Revoked log row

/-! ### Commits -/

/-- What one batch adds to the log it was computed from under the presented credential, at a wall reading inside its
transaction. -/
inductive Commit (now : Int) (log : List Admission) : Option Credential → List Admission → Prop
  | bootstrap (gate : AccessGate) {reviewer publisher : Credential} {reason : Reason} {rows : List Admission}
      (empty : log = []) (review : reviewer.capability = reviewerCap) (publish : publisher.capability = publisherCap)
      (built : gate.bootstrapRows reviewer publisher reason = .ok rows) : Commit now log none rows
  | issue (gate : AccessGate) {administrator credential : Credential} {admin : IssueRow} {bound : CredentialCeiling}
      {role : RoleKind} {reason : Reason} {label : DisplayLabel} {policy : CapabilityPolicy}
      (accepted : Accepted log administrator admin) (live : admin.policy.LiveAt now)
      (bounds : admin.policy.Bounds bound policy) (unexpired : policy.LiveAt now)
      (fresh : ∀ r ∈ issuesOf log, r.cap ≠ credential.capability) :
      Commit now log (some administrator)
        [.issue (gate.issueRow credential bound.scope bound.level role reason label policy)]
  | rotate (gate : AccessGate) {current : Credential} {row : IssueRow} {next : UInt32} {keyId : KeyId}
      {key : SyntheticKey} {reason : Reason} (accepted : Accepted log current row) (live : row.policy.LiveAt now)
      (counted : AccessGate.nextGeneration row = .ok next)
      (fresh : ∀ r ∈ issuesOf log, r.cap = row.cap → r.keyId ≠ keyId) :
      Commit now log (some current) [.revoke (gate.revokeRow row reason),
        .issue (row.successor next keyId key reason)]
  | revoke (gate : AccessGate) {current : Credential} {row : IssueRow} {reason : Reason}
      (accepted : Accepted log current row) (live : row.policy.LiveAt now) :
      Commit now log (some current) [.revoke (gate.revokeRow row reason)]

/-- The logs that commits lead to. -/
inductive Reachable : List Admission → Prop
  | empty : Reachable []
  | commit {log rows : List Admission} {now : Int} {who : Option Credential} (before : Reachable log)
      (step : Commit now log who rows) :
      Reachable (log ++ rows)

/-- The rows a bootstrap builds. -/
theorem bootstrapRows_eq_ok {gate : AccessGate} {reviewer publisher : Credential} {reason : Reason}
    {rows : List Admission} (h : gate.bootstrapRows reviewer publisher reason = .ok rows) :
    ∃ scopeA label label' policy, policy.adminCeiling = some 2 ∧ policy.expiresAtMs = none ∧
      rows = [.bootstrap (gate.bootstrapMarker reason),
        .issue (gate.issueRow reviewer scopeA 1 .reviewer reason label (.entryOnly none)),
        .issue (gate.issueRow publisher scopeA 2 .publisher reason label' policy)] := by
  unfold AccessGate.bootstrapRows at h
  obtain ⟨scopeA, -, h⟩ := Result.bind_eq_ok.1 h
  obtain ⟨scopeB, -, h⟩ := Result.bind_eq_ok.1 h
  obtain ⟨label, -, h⟩ := Result.bind_eq_ok.1 h
  obtain ⟨label', -, h⟩ := Result.bind_eq_ok.1 h
  obtain ⟨policy, hpolicy, h⟩ := Result.bind_eq_ok.1 h
  cases h
  have hfacts : policy.adminCeiling = some 2 ∧ policy.expiresAtMs = none := by
    unfold CapabilityPolicy.administrator at hpolicy
    split at hpolicy
    · exact nomatch hpolicy
    split at hpolicy
    · cases hpolicy
      exact ⟨rfl, rfl⟩
    · exact nomatch hpolicy
  exact ⟨scopeA, label, label', policy, hfacts.1, hfacts.2, rfl⟩

theorem nextGeneration_eq_ok {row : IssueRow} {next : UInt32} (h : AccessGate.nextGeneration row = .ok next) :
    next.toNat = row.capgen.toNat + 1 := by
  unfold AccessGate.nextGeneration at h
  split at h
  · rename_i hlt
    cases h
    rw [UInt32.toNat_add]
    exact Nat.mod_eq_of_lt hlt
  · exact nomatch h

theorem issuesOf_issue (row : IssueRow) : issuesOf [.issue row] = [row] := rfl

theorem chain_issue (cap : CapabilityName) (row : IssueRow) :
    chain cap [.issue row] = if row.cap = cap then [row] else [] := by
  unfold chain
  rw [issuesOf_issue, List.filter_singleton]
  by_cases h : row.cap = cap
  · simp [h]
  · simp [h]

/-- Of two rows of different capabilities a chain has one at most. -/
theorem chain_pair (cap : CapabilityName) (marker : BootstrapRow) {a b : IssueRow} (h : a.cap ≠ b.cap) :
    chain cap [.bootstrap marker, .issue a, .issue b] = [] ∨
      ∃ row, (row = a ∨ row = b) ∧ chain cap [.bootstrap marker, .issue a, .issue b] = [row] := by
  have hsplit : chain cap [.bootstrap marker, .issue a, .issue b] = chain cap [.issue a] ++ chain cap [.issue b] := by
    rw [← chain_append]
    rfl
  rw [hsplit, chain_issue, chain_issue]
  by_cases ha : a.cap = cap
  · have hb : ¬ b.cap = cap := fun hb => h (ha.trans hb.symm)
    rw [if_pos ha, if_neg hb]
    exact .inr ⟨a, .inl rfl, rfl⟩
  · rw [if_neg ha]
    by_cases hb : b.cap = cap
    · rw [if_pos hb]
      exact .inr ⟨b, .inr rfl, rfl⟩
    · rw [if_neg hb]
      exact .inl rfl

/-- What a commit does to the chain of a capability: nothing, start it, or put a successor after its newest row, whose
key it revokes. -/
theorem Commit.chain_cases {now : Int} {log rows : List Admission} {who : Option Credential}
    (h : Commit now log who rows) (cap : CapabilityName) :
    chain cap rows = [] ∨
      (chain cap log = [] ∧ ∃ row, chain cap rows = [row] ∧ row.capgen = 1) ∨
      ∃ cred row next keyId key reason, Accepted log cred row ∧ row.cap = cap ∧ next.toNat = row.capgen.toNat + 1 ∧
        (∀ r ∈ chain cap log, r.keyId ≠ keyId) ∧ chain cap rows = [row.successor next keyId key reason] ∧
        Revoked rows row := by
  cases h with
  | bootstrap gate hempty hreview hpublish hbuilt =>
    obtain ⟨scopeA, label, label', policy, -, -, rfl⟩ := bootstrapRows_eq_ok hbuilt
    subst hempty
    have hne : reviewerCap ≠ publisherCap := by decide
    rename_i reviewer publisher reason
    have hcaps : (gate.issueRow reviewer scopeA 1 .reviewer reason label (.entryOnly none)).cap ≠
        (gate.issueRow publisher scopeA 2 .publisher reason label' policy).cap := by
      intro hsame
      exact hne (hreview.symm.trans (hsame.trans hpublish))
    rcases chain_pair cap (gate.bootstrapMarker reason) hcaps with hnone | ⟨row, hrow, hchain⟩
    · exact .inl hnone
    · refine .inr (.inl ⟨rfl, row, hchain, ?_⟩)
      rcases hrow with rfl | rfl <;> rfl
  | issue gate haccepted hlive hbounds hunexpired hfresh =>
    rename_i administrator credential admin bound role reason label policy
    rw [chain_issue]
    by_cases hcap : (gate.issueRow credential bound.scope bound.level role reason label policy).cap = cap
    · rw [if_pos hcap]
      refine .inr (.inl ⟨?_, _, rfl, rfl⟩)
      rw [List.eq_nil_iff_forall_not_mem]
      intro r hr
      obtain ⟨hissued, hrcap⟩ := mem_chain.1 hr
      exact hfresh r hissued (hrcap.trans hcap.symm)
    · rw [if_neg hcap]
      exact .inl rfl
  | rotate gate haccepted hlive hcounted hfresh =>
    rename_i current row next keyId key reason
    have hsplit : chain cap [.revoke (gate.revokeRow row reason), .issue (row.successor next keyId key reason)] =
        chain cap [.issue (row.successor next keyId key reason)] := rfl
    rw [hsplit, chain_issue]
    by_cases hcap : (row.successor next keyId key reason).cap = cap
    · rw [if_pos hcap]
      refine .inr (.inr ⟨current, row, next, keyId, key, reason, haccepted, hcap, nextGeneration_eq_ok hcounted, ?_,
        rfl, ?_⟩)
      · intro r hr
        obtain ⟨hissued, hrcap⟩ := mem_chain.1 hr
        exact hfresh r hissued (hrcap.trans hcap.symm)
      · exact ⟨gate.revokeRow row reason, List.mem_cons_self, rfl, rfl⟩
    · rw [if_neg hcap]
      exact .inl rfl
  | revoke gate haccepted hlive => exact .inl rfl

/-! ### Sound logs -/

/-- The facts a rotation carries forward. -/
structure SameFacts (a b : IssueRow) : Prop where
  scope : a.scope = b.scope
  ceiling : a.ceiling = b.ceiling
  role : a.role = b.role
  label : a.label = b.label
  policy : a.policy = b.policy

theorem SameFacts.refl (a : IssueRow) : SameFacts a a := ⟨rfl, rfl, rfl, rfl, rfl⟩

theorem SameFacts.symm {a b : IssueRow} (h : SameFacts a b) : SameFacts b a :=
  ⟨h.scope.symm, h.ceiling.symm, h.role.symm, h.label.symm, h.policy.symm⟩

theorem SameFacts.successor {a b : IssueRow} (h : SameFacts a b) (next : UInt32) (keyId : KeyId) (key : SyntheticKey)
    (reason : Reason) : SameFacts a (b.successor next keyId key reason) :=
  ⟨h.scope, h.ceiling, h.role, h.label, h.policy⟩

/-- The chain of a capability: generations from one on, distinct keys, the same facts, and all but the newest revoked. -/
structure SoundChain (log : List Admission) (cap : CapabilityName) : Prop where
  generations : (chain cap log).map (fun row => row.capgen.toNat) = List.range' 1 (chain cap log).length
  keys : ((chain cap log).map IssueRow.keyId).Nodup
  facts : ∀ a ∈ chain cap log, ∀ b ∈ chain cap log, SameFacts a b
  superseded : ∀ a ∈ chain cap log, ∀ b ∈ chain cap log, a.capgen < b.capgen → Revoked log a

theorem SoundChain.empty (cap : CapabilityName) : SoundChain [] cap where
  generations := rfl
  keys := List.nodup_nil
  facts _ h := nomatch h
  superseded _ h := nomatch h

/-- The newest row of a chain has the chain's length as its generation. -/
theorem SoundChain.newest {log : List Admission} {cap : CapabilityName} (h : SoundChain log cap) {row : IssueRow}
    (hrow : row ∈ chain cap log) (hnewest : ∀ r ∈ chain cap log, r.capgen ≤ row.capgen) :
    row.capgen.toNat = (chain cap log).length := by
  have hmem : row.capgen.toNat ∈ (chain cap log).map fun row => row.capgen.toNat := List.mem_map_of_mem hrow
  rw [h.generations, List.mem_range'_1] at hmem
  have hlast : (chain cap log).length ∈ List.range' 1 (chain cap log).length := by
    rw [List.mem_range'_1]
    omega
  rw [← h.generations] at hlast
  obtain ⟨r, hr, hlen⟩ := List.mem_map.1 hlast
  have hle := UInt32.le_iff_toNat_le.1 (hnewest r hr)
  omega

theorem SoundChain.commit {now : Int} {log rows : List Admission} {who : Option Credential} {cap : CapabilityName}
    (h : SoundChain log cap) (hstep : Commit now log who rows) : SoundChain (log ++ rows) cap := by
  rcases hstep.chain_cases cap with hnone | ⟨hnew, row, hrow, hgen⟩ |
    ⟨cred, row, next, keyId, key, reason, haccepted, hcap, hnext, hfresh, hrow, hrevoked⟩
  · -- the capability is not concerned
    have hchain : chain cap (log ++ rows) = chain cap log := by rw [chain_append, hnone, List.append_nil]
    constructor
    · rw [hchain]
      exact h.generations
    · rw [hchain]
      exact h.keys
    · rw [hchain]
      exact h.facts
    · rw [hchain]
      intro a ha b hb hlt
      exact (h.superseded a ha b hb hlt).append rows
  · have hchain : chain cap (log ++ rows) = [row] := by rw [chain_append, hnew, hrow, List.nil_append]
    constructor
    · rw [hchain]
      simp [hgen]
    · rw [hchain]
      simp
    · rw [hchain]
      intro a ha b hb
      rw [List.mem_singleton.1 ha, List.mem_singleton.1 hb]
      exact SameFacts.refl row
    · rw [hchain]
      intro a ha b hb hlt
      rw [List.mem_singleton.1 ha, List.mem_singleton.1 hb] at hlt
      exact absurd hlt (UInt32.lt_irrefl _)
  · have hmem : row ∈ chain cap log := mem_chain.2 ⟨haccepted.issued, hcap⟩
    have hnewest : ∀ r ∈ chain cap log, r.capgen ≤ row.capgen := by
      intro r hr
      obtain ⟨hissued, hrcap⟩ := mem_chain.1 hr
      exact haccepted.newest r hissued (hrcap.trans hcap.symm)
    have hlast := h.newest hmem hnewest
    have hchain : chain cap (log ++ rows) = chain cap log ++ [row.successor next keyId key reason] := by
      rw [chain_append, hrow]
    constructor
    · rw [hchain, List.map_append, h.generations, List.length_append, List.length_singleton,
        List.range'_1_concat]
      have hgen : (row.successor next keyId key reason).capgen.toNat = 1 + (chain cap log).length := by
        have hcapgen : (row.successor next keyId key reason).capgen = next := rfl
        rw [hcapgen]
        omega
      rw [List.map_singleton, hgen]
    · rw [hchain, List.map_append, List.nodup_append]
      refine ⟨h.keys, by simp, ?_⟩
      intro a ha b hb
      obtain ⟨r, hr, rfl⟩ := List.mem_map.1 ha
      rw [List.map_singleton, List.mem_singleton] at hb
      rw [hb]
      exact hfresh r hr
    · rw [hchain]
      intro a ha b hb
      rw [List.mem_append, List.mem_singleton] at ha hb
      rcases ha with ha | rfl
      · rcases hb with hb | rfl
        · exact h.facts a ha b hb
        · exact (h.facts a ha row hmem).successor next keyId key reason
      · rcases hb with hb | rfl
        · exact ((h.facts b hb row hmem).successor next keyId key reason).symm
        · exact SameFacts.refl _
    · rw [hchain]
      intro a ha b hb hlt
      rw [List.mem_append, List.mem_singleton] at ha hb
      have hcapgen : (row.successor next keyId key reason).capgen = next := rfl
      rcases ha with ha | rfl
      · have hle := UInt32.le_iff_toNat_le.1 (hnewest a ha)
        rcases hb with hb | rfl
        · exact (h.superseded a ha b hb hlt).append rows
        · -- the rotated key is revoked with it, the earlier ones were
          by_cases hrowgen : a.capgen < row.capgen
          · exact (h.superseded a ha row hmem hrowgen).append rows
          · have hsame : a.capgen = row.capgen := UInt32.le_antisymm (hnewest a ha) (UInt32.not_lt.1 hrowgen)
            have hnodup : ((chain cap log).map fun row => row.capgen.toNat).Nodup := by
              rw [h.generations]
              exact List.nodup_range'
            have heq : a = row := List.inj_on_of_nodup_map hnodup ha hmem (by rw [hsame])
            obtain ⟨r, hr, hrow⟩ := hrevoked
            refine ⟨r, ?_, heq ▸ hrow⟩
            rw [revokesOf_append]
            exact List.mem_append_right _ hr
      · rw [hcapgen, UInt32.lt_iff_toNat_lt] at hlt
        rcases hb with hb | rfl
        · have hle := UInt32.le_iff_toNat_le.1 (hnewest b hb)
          omega
        · rw [hcapgen] at hlt
          omega

/-- The log is empty, or has one bootstrap and both bootstrap capabilities. -/
structure Bootstrapped (log : List Admission) : Prop where
  marker : ∃ marker, bootstrapsOf log = [marker] ∧ marker.user = frozenUser ∧ marker.issuer = frozenIssuer
  review : ∃ row ∈ issuesOf log, row.cap = reviewerCap
  publish : ∃ row ∈ issuesOf log, row.cap = publisherCap

/-- What holds of every reachable log. -/
structure Sound (log : List Admission) : Prop where
  chains : ∀ cap, SoundChain log cap
  bootstrapped : log = [] ∨ Bootstrapped log
  wellFormed : ∀ row ∈ log, row.WellFormed
  frozen : ∀ row ∈ issuesOf log, row.issuer = frozenIssuer ∧ row.user = frozenUser

theorem fingerprint_shape (key : SyntheticKey) : key.fingerprint ≠ "" ∧ key.fingerprint.utf8ByteSize ≤ 64 := by
  have hsize : key.fingerprint.utf8ByteSize = 16 := utf8ByteSize_hex16 _
  refine ⟨?_, by omega⟩
  rintro hempty
  rw [hempty] at hsize
  exact nomatch hsize

theorem wellFormed_issueRow (gate : AccessGate) (credential : Credential) (bound : CredentialCeiling) (role : RoleKind)
    (reason : Reason) (label : DisplayLabel) {policy : CapabilityPolicy}
    (hpolicy : ∀ level ∈ policy.adminCeiling, level ≤ bound.level) :
    (Admission.issue (gate.issueRow credential bound.scope bound.level role reason label policy)).WellFormed := by
  obtain ⟨hne, hlen⟩ := fingerprint_shape credential.key
  have hfirst : (1 : UInt32) ≠ 0 := by decide
  exact ⟨bound.level_le, hfirst, validateBounded_ne_empty reason.valid, validateBounded_ne_empty label.valid, hne,
    hlen, hpolicy⟩

theorem wellFormed_bootstrapRows {gate : AccessGate} {reviewer publisher : Credential} {reason : Reason}
    {rows : List Admission} (h : gate.bootstrapRows reviewer publisher reason = .ok rows) : ∀ row ∈ rows, row.WellFormed := by
  obtain ⟨scopeA, label, label', policy, hceiling, -, rfl⟩ := bootstrapRows_eq_ok h
  intro row hrow
  simp only [List.mem_cons, List.not_mem_nil, or_false] at hrow
  rcases hrow with rfl | rfl | rfl
  · exact ⟨validateBounded_ne_empty reason.valid, rfl⟩
  · exact wellFormed_issueRow gate reviewer ⟨scopeA, 1, by decide⟩ .reviewer reason label fun level h => nomatch h
  · refine wellFormed_issueRow gate publisher ⟨scopeA, 2, by decide⟩ .publisher reason label' fun level h => ?_
    rw [hceiling] at h
    cases h
    exact UInt8.le_refl _

theorem wellFormed_revokeRow (gate : AccessGate) {row : IssueRow} (reason : Reason)
    (hrow : (Admission.issue row).WellFormed) : (Admission.revoke (gate.revokeRow row reason)).WellFormed :=
  ⟨hrow.2.1, validateBounded_ne_empty reason.valid⟩

theorem wellFormed_successor {row : IssueRow} {next : UInt32} (keyId : KeyId) (key : SyntheticKey) (reason : Reason)
    (hrow : (Admission.issue row).WellFormed) (hcounted : AccessGate.nextGeneration row = .ok next) :
    (Admission.issue (row.successor next keyId key reason)).WellFormed := by
  obtain ⟨hceiling, -, -, hlabel, -, -, hpolicy⟩ := hrow
  obtain ⟨hne, hlen⟩ := fingerprint_shape key
  have hnext := nextGeneration_eq_ok hcounted
  have hpositive : next ≠ 0 := by
    rintro rfl
    have hzero : (0 : UInt32).toNat = 0 := rfl
    omega
  exact ⟨hceiling, hpositive, validateBounded_ne_empty reason.valid, hlabel, hne, hlen, hpolicy⟩

theorem Commit.wellFormed {now : Int} {log rows : List Admission} {who : Option Credential} (h : Commit now log who rows)
    (hlog : ∀ row ∈ log, row.WellFormed) : ∀ row ∈ rows, row.WellFormed := by
  have hissued : ∀ row ∈ issuesOf log, (Admission.issue row).WellFormed := fun row hrow => hlog _ (mem_issuesOf.1 hrow)
  cases h with
  | bootstrap gate hempty hreview hpublish hbuilt => exact wellFormed_bootstrapRows hbuilt
  | issue gate haccepted hlive hbounds hunexpired hfresh =>
    rename_i administrator credential admin bound role reason label policy
    intro row hrow
    rw [List.mem_singleton.1 hrow]
    exact wellFormed_issueRow gate credential bound role reason label hbounds.ceiling
  | rotate gate haccepted hlive hcounted hfresh =>
    rename_i current row next keyId key reason
    intro row' hrow
    simp only [List.mem_cons, List.not_mem_nil, or_false] at hrow
    rcases hrow with rfl | rfl
    · exact wellFormed_revokeRow gate reason (hissued row haccepted.issued)
    · exact wellFormed_successor keyId key reason (hissued row haccepted.issued) hcounted
  | revoke gate haccepted hlive =>
    rename_i current row reason
    intro row' hrow
    rw [List.mem_singleton.1 hrow]
    exact wellFormed_revokeRow gate reason (hissued row haccepted.issued)

theorem Commit.frozen {now : Int} {log rows : List Admission} {who : Option Credential} (h : Commit now log who rows)
    (hlog : ∀ row ∈ issuesOf log, row.issuer = frozenIssuer ∧ row.user = frozenUser) :
    ∀ row ∈ issuesOf rows, row.issuer = frozenIssuer ∧ row.user = frozenUser := by
  intro row hrow
  rw [mem_issuesOf] at hrow
  cases h with
  | bootstrap gate hempty hreview hpublish hbuilt =>
    obtain ⟨scopeA, label, label', policy, -, -, rfl⟩ := bootstrapRows_eq_ok hbuilt
    simp only [List.mem_cons, List.not_mem_nil, or_false, reduceCtorEq, Admission.issue.injEq, false_or] at hrow
    rcases hrow with rfl | rfl <;> exact ⟨rfl, rfl⟩
  | issue gate haccepted hlive hbounds hunexpired hfresh =>
    obtain rfl := Admission.issue.inj (List.mem_singleton.1 hrow)
    exact ⟨rfl, rfl⟩
  | rotate gate haccepted hlive hcounted hfresh =>
    simp only [List.mem_cons, List.not_mem_nil, or_false, reduceCtorEq, Admission.issue.injEq, false_or] at hrow
    have hold := hlog _ haccepted.issued
    rw [hrow]
    exact hold
  | revoke gate haccepted hlive => simp at hrow

/-- A log that a commit does not find empty has its bootstrap. -/
theorem Commit.bootstrapped {now : Int} {log rows : List Admission} {who : Option Credential} (h : Commit now log who rows)
    (hlog : log = [] ∨ Bootstrapped log) : Bootstrapped (log ++ rows) := by
  have hkept : ∀ row ∈ issuesOf log, bootstrapsOf rows = [] → Bootstrapped (log ++ rows) := by
    intro row hrow hnone
    rcases hlog with rfl | hlog
    · exact nomatch hrow
    obtain ⟨marker, hmarker, hfrozen⟩ := hlog.marker
    obtain ⟨review, hreview, hcap⟩ := hlog.review
    obtain ⟨publish, hpublish, hcap'⟩ := hlog.publish
    refine ⟨⟨marker, ?_, hfrozen⟩, ⟨review, ?_, hcap⟩, ⟨publish, ?_, hcap'⟩⟩
    · rw [bootstrapsOf_append, hmarker, hnone, List.append_nil]
    · rw [issuesOf_append]
      exact List.mem_append_left _ hreview
    · rw [issuesOf_append]
      exact List.mem_append_left _ hpublish
  cases h with
  | bootstrap gate hempty hreview hpublish hbuilt =>
    rename_i reviewer publisher reason
    obtain ⟨scopeA, label, label', policy, -, -, rfl⟩ := bootstrapRows_eq_ok hbuilt
    subst hempty
    have hissues : issuesOf [.bootstrap (gate.bootstrapMarker reason),
        .issue (gate.issueRow reviewer scopeA 1 .reviewer reason label (.entryOnly none)),
        .issue (gate.issueRow publisher scopeA 2 .publisher reason label' policy)] =
        [gate.issueRow reviewer scopeA 1 .reviewer reason label (.entryOnly none),
          gate.issueRow publisher scopeA 2 .publisher reason label' policy] := rfl
    rw [List.nil_append]
    exact {
      marker := ⟨gate.bootstrapMarker reason, rfl, rfl, rfl⟩
      review := ⟨_, by rw [hissues]; exact List.mem_cons_self, hreview⟩
      publish := ⟨_, by rw [hissues]; exact List.mem_cons_of_mem _ List.mem_cons_self, hpublish⟩ }
  | issue gate haccepted hlive hbounds hunexpired hfresh => exact hkept _ haccepted.issued rfl
  | rotate gate haccepted hlive hcounted hfresh => exact hkept _ haccepted.issued rfl
  | revoke gate haccepted hlive => exact hkept _ haccepted.issued rfl

theorem Sound.empty : Sound [] where
  chains := SoundChain.empty
  bootstrapped := .inl rfl
  wellFormed _ h := nomatch h
  frozen _ h := nomatch h

theorem Sound.commit {now : Int} {log rows : List Admission} {who : Option Credential} (h : Sound log)
    (hstep : Commit now log who rows) : Sound (log ++ rows) where
  chains cap := (h.chains cap).commit hstep
  bootstrapped := .inr (hstep.bootstrapped h.bootstrapped)
  wellFormed row hrow := by
    rcases List.mem_append.1 hrow with hrow | hrow
    · exact h.wellFormed row hrow
    · exact hstep.wellFormed h.wellFormed row hrow
  frozen row hrow := by
    rw [issuesOf_append] at hrow
    rcases List.mem_append.1 hrow with hrow | hrow
    · exact h.frozen row hrow
    · exact hstep.frozen h.frozen row hrow

theorem Reachable.sound {log : List Admission} (h : Reachable log) : Sound log := by
  induction h with
  | empty => exact Sound.empty
  | commit _ step ih => exact ih.commit step

end Verdant.Access
