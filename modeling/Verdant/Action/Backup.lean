import Verdant.Action.Journal

/-!
# Restored backups

A restored journal row is preserved when it is the current one, and refused else.  The comparison of the content takes
in the two generations, so what is left to be classified as stale never is (`verifyBackupAgainstCurrent_eq`); it leaves
out the lossless identity, which the rounded payload does not determine.  The verdict is the promised one exactly where
the generations and the identity agree together or differ together (`verifies_exactly_iff`).
-/

namespace Verdant.Action

/-- The typed recovery failures that a verdict on a backup can be. -/
inductive RecoveryError where
  | conflict (detail : String)
  | staleGeneration (expected current : UInt32)
  deriving DecidableEq

inductive BackupVerdict where
  | intactPreserve
  | conflictSameIdDifferentContent
  | staleGenerationRefuse
  | wrongStoreConflict
  deriving DecidableEq

/-- Classifies a backup by what was compared. -/
def verifyBackup (storeIdentityMatches sameIdContentMatches : Bool) (restoredGeneration currentGeneration : UInt32) :
    BackupVerdict :=
  if !storeIdentityMatches then .wrongStoreConflict
  else if !sameIdContentMatches then .conflictSameIdDifferentContent
  else if restoredGeneration ≠ currentGeneration then .staleGenerationRefuse
  else .intactPreserve

def requireIntactBackup : BackupVerdict → Except RecoveryError Unit
  | .intactPreserve => .ok ()
  | .conflictSameIdDifferentContent =>
    .error (.conflict "restored journal reuses an operation identity with different content")
  | .staleGenerationRefuse =>
    .error (.conflict "restored journal generation is stale; REFUSE STALE, keep old obligations with old IDs")
  | .wrongStoreConflict => .error (.conflict "restored journal belongs to a different store")

def requireCurrentGeneration (expected current : UInt32) : Except RecoveryError Unit :=
  if expected = current then .ok () else .error (.staleGeneration expected current)

/-- The content of a restored row under its operation. -/
def sameIdContentMatches (restored current : Admitted) : Bool :=
  restored.operation.text = current.operation.text ∧ restored.payload = current.payload ∧
    restored.expectedGeneration = current.expectedGeneration ∧ restored.targetGeneration = current.targetGeneration ∧
    restored.scope.text = current.scope.text ∧ restored.equipment.text = current.equipment.text

/-- Verifies a restored row against the current durable one. -/
def verifyBackupAgainstCurrent (storeIdentityMatches : Bool) (restored current : Admitted) :
    Except RecoveryError BackupVerdict := do
  let sameIdContentMatches := sameIdContentMatches restored current
  let verdict :=
    verifyBackup storeIdentityMatches sameIdContentMatches restored.targetGeneration current.targetGeneration
  if restored.targetGeneration ≠ current.targetGeneration ∧ restored.operation.text = current.operation.text ∧
      storeIdentityMatches ∧ sameIdContentMatches then
    requireCurrentGeneration restored.targetGeneration current.targetGeneration
  requireIntactBackup verdict
  .ok verdict

/-! ### What two rows agree on -/

/-- The rows are of one operation, target and payload. -/
structure SameContent (restored current : Admitted) : Prop where
  operation : restored.operation = current.operation
  scope : restored.scope = current.scope
  equipment : restored.equipment = current.equipment
  payload : restored.payload = current.payload

structure SameGenerations (restored current : Admitted) : Prop where
  expected : restored.expectedGeneration = current.expectedGeneration
  target : restored.targetGeneration = current.targetGeneration

/-- The rows agree on the lossless identity. -/
structure SameIdentity (restored current : Admitted) : Prop where
  wireBits : restored.wireBits = current.wireBits
  actionKind : restored.actionKind = current.actionKind
  releaseAdmitted : restored.releaseAdmitted = current.releaseAdmitted
  releaseTarget : restored.releaseTarget = current.releaseTarget

instance (restored current : Admitted) : Decidable (SameContent restored current) :=
  decidable_of_iff (restored.operation = current.operation ∧ restored.scope = current.scope ∧
      restored.equipment = current.equipment ∧ restored.payload = current.payload)
    ⟨fun ⟨operation, scope, equipment, payload⟩ => ⟨operation, scope, equipment, payload⟩,
      fun h => ⟨h.operation, h.scope, h.equipment, h.payload⟩⟩

instance (restored current : Admitted) : Decidable (SameGenerations restored current) :=
  decidable_of_iff (restored.expectedGeneration = current.expectedGeneration ∧
      restored.targetGeneration = current.targetGeneration)
    ⟨fun ⟨expected, target⟩ => ⟨expected, target⟩, fun h => ⟨h.expected, h.target⟩⟩

instance (restored current : Admitted) : Decidable (SameIdentity restored current) :=
  decidable_of_iff (restored.wireBits = current.wireBits ∧ restored.actionKind = current.actionKind ∧
      restored.releaseAdmitted = current.releaseAdmitted ∧ restored.releaseTarget = current.releaseTarget)
    ⟨fun ⟨wireBits, actionKind, releaseAdmitted, releaseTarget⟩ =>
        ⟨wireBits, actionKind, releaseAdmitted, releaseTarget⟩,
      fun h => ⟨h.wireBits, h.actionKind, h.releaseAdmitted, h.releaseTarget⟩⟩

theorem sameIdContentMatches_iff (restored current : Admitted) :
    sameIdContentMatches restored current = true ↔
      SameContent restored current ∧ SameGenerations restored current := by
  rw [sameIdContentMatches, decide_eq_true_iff]
  constructor
  · rintro ⟨hoperation, hpayload, hexpected, htarget, hscope, hequipment⟩
    exact ⟨⟨OperationId.ext_text hoperation, TrustedScope.ext_text hscope, InstalledId.ext_text hequipment, hpayload⟩,
      hexpected, htarget⟩
  · rintro ⟨hcontent, hgenerations⟩
    exact ⟨congrArg _ hcontent.operation, hcontent.payload, hgenerations.expected, hgenerations.target,
      congrArg _ hcontent.scope, congrArg _ hcontent.equipment⟩

/-- What the verification answers: the check for a stale generation is behind an equality of the generations. -/
theorem verifyBackupAgainstCurrent_eq (storeIdentityMatches : Bool) (restored current : Admitted) :
    verifyBackupAgainstCurrent storeIdentityMatches restored current =
      if storeIdentityMatches = false then .error (.conflict "restored journal belongs to a different store")
      else if sameIdContentMatches restored current = true then .ok .intactPreserve
      else .error (.conflict "restored journal reuses an operation identity with different content") := by
  have hdead : ¬(restored.targetGeneration ≠ current.targetGeneration ∧
      restored.operation.text = current.operation.text ∧ storeIdentityMatches = true ∧
      sameIdContentMatches restored current = true) := by
    rintro ⟨hne, -, -, hmatches⟩
    exact hne ((sameIdContentMatches_iff restored current).1 hmatches).2.target
  unfold verifyBackupAgainstCurrent
  simp only [if_neg hdead]
  cases storeIdentityMatches with
  | false => rfl
  | true =>
    by_cases hmatches : sameIdContentMatches restored current = true
    · have htarget := ((sameIdContentMatches_iff restored current).1 hmatches).2.target
      have hverdict : verifyBackup true true restored.targetGeneration current.targetGeneration = .intactPreserve := by
        simp [verifyBackup, htarget]
      simp only [hmatches, hverdict]
      rfl
    · rw [Bool.not_eq_true] at hmatches
      simp only [hmatches, verifyBackup]
      rfl

/-! ### The promised verdict -/

/-- Intact is the exact row of the same store, and a row that differs in its generations alone is stale. -/
structure VerifiesExactly (storeIdentityMatches : Bool) (restored current : Admitted) : Prop where
  intact : verifyBackupAgainstCurrent storeIdentityMatches restored current = .ok .intactPreserve ↔
    storeIdentityMatches = true ∧ SameContent restored current ∧ SameGenerations restored current ∧
      SameIdentity restored current
  stale : storeIdentityMatches = true → SameContent restored current → SameIdentity restored current →
    ¬SameGenerations restored current →
    verifyBackupAgainstCurrent storeIdentityMatches restored current =
      .error (.staleGeneration restored.targetGeneration current.targetGeneration)

theorem verifyBackupAgainstCurrent_intact (storeIdentityMatches : Bool) (restored current : Admitted) :
    verifyBackupAgainstCurrent storeIdentityMatches restored current = .ok .intactPreserve ↔
      storeIdentityMatches = true ∧ SameContent restored current ∧ SameGenerations restored current := by
  rw [verifyBackupAgainstCurrent_eq, ← sameIdContentMatches_iff]
  cases storeIdentityMatches with
  | false => simp
  | true => by_cases hmatches : sameIdContentMatches restored current = true <;> simp [hmatches]

theorem verifyBackupAgainstCurrent_ne_stale (storeIdentityMatches : Bool) (restored current : Admitted)
    (expected generation : UInt32) :
    verifyBackupAgainstCurrent storeIdentityMatches restored current ≠
      .error (.staleGeneration expected generation) := by
  rw [verifyBackupAgainstCurrent_eq]
  split
  · exact fun h => nomatch h
  split
  · exact fun h => nomatch h
  · exact fun h => nomatch h

/-- The verdict is the promised one unless rows of one store and content differ in just one of the two: their
generations or their lossless identity. -/
theorem verifies_exactly_iff (storeIdentityMatches : Bool) (restored current : Admitted) :
    VerifiesExactly storeIdentityMatches restored current ↔
      (storeIdentityMatches = true → SameContent restored current →
        (SameGenerations restored current ↔ SameIdentity restored current)) := by
  constructor
  · intro h hstore hcontent
    constructor
    · intro hgenerations
      have hok := (verifyBackupAgainstCurrent_intact _ restored current).2 ⟨hstore, hcontent, hgenerations⟩
      exact (h.intact.1 hok).2.2.2
    · intro hidentity
      by_contra hgenerations
      exact verifyBackupAgainstCurrent_ne_stale _ _ _ _ _ (h.stale hstore hcontent hidentity hgenerations)
  · intro h
    constructor
    · rw [verifyBackupAgainstCurrent_intact]
      constructor
      · rintro ⟨hstore, hcontent, hgenerations⟩
        exact ⟨hstore, hcontent, hgenerations, (h hstore hcontent).1 hgenerations⟩
      · rintro ⟨hstore, hcontent, hgenerations, -⟩
        exact ⟨hstore, hcontent, hgenerations⟩
    · intro hstore hcontent hidentity hgenerations
      exact absurd ((h hstore hcontent).2 hidentity) hgenerations

theorem backupScope_valid : IsId "scope-a" := by decide

def backupScope : TrustedScope := ⟨"scope-a", backupScope_valid⟩

/-- A journal row under its generations and wire bits. -/
def backupRow (expected target wireBits : String) : List String :=
  ["op-1", "scope-a", "ahu-1", "1", "1", expected, target, "payload", "5", "9", "operator", "op-1", "admitted", wireBits,
    "set", "0", "ahu-1", "100", "admitted", "NULL"]

/-- Two rows that decode, and what holds of them. -/
theorem decoded_pair {P : Admitted → Admitted → Bool} {restored current : List String} {scope : TrustedScope}
    (h : (match decodeRow restored scope, decodeRow current scope with
      | .ok a, .ok b => P a b
      | _, _ => false) = true) :
    ∃ a b, decodeRow restored scope = .ok a ∧ decodeRow current scope = .ok b ∧ P a b = true := by
  split at h
  · rename_i a b ha hb
    exact ⟨a, b, ha, hb, h⟩
  · exact nomatch h

/-- A row with other wire bits under the same rounded payload is preserved as intact, and a row that is one generation
behind is refused as a conflict. -/
theorem backup_other_bits_intact :
    (∃ restored current, decodeRow (backupRow "0" "1" "1101004800") backupScope = .ok restored ∧
      decodeRow (backupRow "0" "1" "1101004801") backupScope = .ok current ∧ ¬SameIdentity restored current ∧
      verifyBackupAgainstCurrent true restored current = .ok .intactPreserve ∧
      ¬VerifiesExactly true restored current) ∧
    ∃ restored current, decodeRow (backupRow "0" "1" "1101004800") backupScope = .ok restored ∧
      decodeRow (backupRow "1" "2" "1101004800") backupScope = .ok current ∧
      verifyBackupAgainstCurrent true restored current =
        .error (.conflict "restored journal reuses an operation identity with different content") ∧
      ¬VerifiesExactly true restored current := by
  constructor
  · obtain ⟨restored, current, hrestored, hcurrent, h⟩ := @decoded_pair
      (fun a b => ¬SameIdentity a b ∧ sameIdContentMatches a b = true)
      (backupRow "0" "1" "1101004800") (backupRow "0" "1" "1101004801") backupScope (by decide +kernel)
    obtain ⟨hidentity, hmatches⟩ := of_decide_eq_true h
    have hok : verifyBackupAgainstCurrent true restored current = .ok .intactPreserve :=
      (verifyBackupAgainstCurrent_intact _ _ _).2 ⟨rfl, (sameIdContentMatches_iff _ _).1 hmatches⟩
    exact ⟨restored, current, hrestored, hcurrent, hidentity, hok, fun h => hidentity (h.intact.1 hok).2.2.2⟩
  · obtain ⟨restored, current, hrestored, hcurrent, h⟩ := @decoded_pair
      (fun a b => SameContent a b ∧ SameIdentity a b ∧ ¬SameGenerations a b ∧ sameIdContentMatches a b = false)
      (backupRow "0" "1" "1101004800") (backupRow "1" "2" "1101004800") backupScope (by decide +kernel)
    obtain ⟨hcontent, hidentity, hgenerations, hmatches⟩ := of_decide_eq_true h
    have herror : verifyBackupAgainstCurrent true restored current =
        .error (.conflict "restored journal reuses an operation identity with different content") := by
      rw [verifyBackupAgainstCurrent_eq, if_neg (by decide), hmatches]
      rfl
    refine ⟨restored, current, hrestored, hcurrent, herror, fun h => ?_⟩
    exact verifyBackupAgainstCurrent_ne_stale _ _ _ _ _ (h.stale rfl hcontent hidentity hgenerations)

end Verdant.Action
