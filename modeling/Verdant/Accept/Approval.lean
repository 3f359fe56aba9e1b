import Verdant.Accept.ConfigText
import Verdant.Binding.BindingRuns
import Verdant.Seal.Fingerprint
import Verdant.Library.Pointwise

/-!
# Approvals

A retried finding is compared with its committed row by the canonical bytes of the binding, and a sealed entry is approved
by a fingerprint that holds a digest of these bytes.  So both say as much about a binding as the bytes do: they single it
out exactly when its labels have one reading (`identifies_iff`), and a seal of committed findings approves a configuration
exactly when each entry has the digest of a finding that the configuration cites (`approved_iff`).
-/

namespace Verdant.Accept

open TextCodec Storage Access Binding

def Entry.fingerprint (sha : Seal.Sha256) (entry : Entry) : Except AcceptError Seal.Digest :=
  (sha.hash entry.binding.canonicalBytes.toByteArray).mapError AcceptError.seal

/-- The fields of a fingerprint approve a digest under one of the facts. -/
def approves (facts : List ObservedFact) (digest : Seal.Digest) : List String → Bool
  | [id, generation, actor, kind, content, version, bytes] =>
    kind == "synthetic-fnv1a64-not-authority" && version == "binding-canonical-v2-sha256" && bytes == digest.text &&
      facts.any fun fact => fact.id.text == id && Nat.repr fact.generation.toNat == generation && fact.actor == actor &&
        fact.digest == content
  | _ => false

/-- The approval join of `check_seal`: every entry has a fingerprint that one of the facts cites. -/
def checkApprovals (sha : Seal.Sha256) (config : EffectiveConfig) (fingerprints : List String) : Except AcceptError Unit := do
  let fingerprints ← fingerprints.mapM fun raw => decode raw 4096 7
  config.entries.entries.forM fun entry => do
    let digest ← entry.fingerprint sha
    if fingerprints.any (approves config.facts digest) then .ok () else .error .approvalMismatch

/-! ### What is compared -/

/-- Two inputs with one digest. -/
def Collides (sha : Seal.Sha256) (x y : ByteArray) : Prop :=
  x ≠ y ∧ ∃ digest, sha.hash x = .ok digest ∧ sha.hash y = .ok digest

theorem binding_of_findingRow {operation : OperationId} {revision : BindingRevision} {b : ProposedBinding}
    {finding : Finding} {actor : ActorContext} {map : Fields} {text : String}
    (hmap : splitBinding (descriptor (findingFields operation revision b finding actor)) = .ok map)
    (htext : Binding.field map "binding" = .ok text) : text = b.canonicalBytes := by
  obtain ⟨map', hmap', hfield, -⟩ := read_findingFields operation revision b finding actor
  rw [hmap'] at hmap
  obtain rfl := Except.ok.inj hmap
  have hbinding : Binding.field map' "binding" = .ok b.canonicalBytes := hfield "binding" _ rfl
  rw [hbinding] at htext
  exact (Except.ok.inj htext).symm

theorem findingCommit_bytes {registry : BindingRegistry} {revision : BindingRevision} {other : ProposedBinding}
    {map : Fields} {found : Finding} (h : registry.findingCommit revision other map = .ok found) :
    Binding.field map "binding" = .ok other.canonicalBytes := by
  unfold BindingRegistry.findingCommit at h
  obtain ⟨stored, -, h⟩ := Result.bind_eq_ok.1 h
  by_cases hstored : stored ≠ revision
  · rw [if_pos hstored] at h
    cases h
  · rw [if_neg hstored] at h
    obtain ⟨text, htext, h⟩ := Result.bind_eq_ok.1 h
    by_cases hbytes : text ≠ other.canonicalBytes
    · rw [if_pos hbytes] at h
      cases h
    · rw [htext, not_not.1 hbytes]

/-- The fields an approval decodes to are those that were written. -/
theorem fields_of_decode {fields read : List String} (h : decode (encode fields) 4096 7 = .ok read) : read = fields :=
  encodeFrames_injective ((decode_eq_ok (by decide)).1 h).1

theorem approves_eq_true {facts : List ObservedFact} {digest digest' : Seal.Digest} {finding : Finding}
    {generation : UInt32} {actor : String}
    (h : approves facts digest (Seal.fingerprintFields finding generation actor digest') = true) :
    digest' = digest ∧ ∃ fact ∈ facts, fact.id = finding.id ∧ fact.generation = generation ∧ fact.actor = actor ∧
      fact.digest = finding.digest := by
  unfold approves Seal.fingerprintFields at h
  simp only [Bool.and_eq_true, beq_iff_eq, List.any_eq_true] at h
  obtain ⟨⟨-, hdigest⟩, fact, hfact, ⟨⟨hid, hgeneration⟩, hactor⟩, hcontent⟩ := h
  refine ⟨Seal.Digest.ext_text hdigest, fact, hfact, Binding.FindingId.ext_text hid, ?_, hactor, hcontent⟩
  exact UInt32.toNat_inj.1 (TextCodec.repr_injective hgeneration)

/-! ### Approved entries -/

/-- The binding that checked canonical bytes decode to. -/
theorem unmarked_of_checkedBinding {scope : TrustedScope} {b proposed : ProposedBinding} (hparts : FromParts b)
    (h : Seal.checkedBinding scope b.canonicalBytes = .ok proposed) : proposed = unmarked b := by
  unfold Seal.checkedBinding at h
  obtain ⟨decoded, hdecoded, h⟩ := Result.bind_eq_ok.1 h
  obtain ⟨_, -, h⟩ := Result.bind_eq_ok.1 h
  obtain ⟨checked, -, h⟩ := Result.bind_eq_ok.1 h
  have hsame : proposed = decoded := by
    by_cases hwrong : checked ≠ decoded ∨ decoded.pointScope ≠ scope
    · rw [if_pos hwrong] at h
      cases h
    · rw [if_neg hwrong] at h
      exact (Except.ok.inj h).symm
  have huncut : Uncut b := by
    by_contra hcut
    rw [decodeCanonical_cut _ _ hcut] at hdecoded
    cases hdecoded
  rw [decodeCanonical_uncut _ _ hparts huncut] at hdecoded
  rw [hsame, ← Except.ok.inj hdecoded]
  rfl

theorem checkApprovals_eq_ok {sha : Seal.Sha256} {config : EffectiveConfig} {texts : List String} :
    checkApprovals sha config texts = .ok () ↔ ∃ fingerprints, (texts.mapM fun raw => decode raw 4096 7) = .ok fingerprints ∧
      ∀ e ∈ config.entries.entries, ∃ digest, e.fingerprint sha = .ok digest ∧
        ∃ fields ∈ fingerprints, approves config.facts digest fields = true := by
  unfold checkApprovals
  rw [Result.bind_eq_ok]
  refine exists_congr fun fingerprints => and_congr_right fun _ => ?_
  rw [Result.forM_eq_ok]
  refine forall_congr' fun e => forall_congr' fun _ => ?_
  rw [Result.bind_eq_ok]
  refine exists_congr fun digest => and_congr_right fun _ => ?_
  rw [← List.any_eq_true]
  by_cases hany : fingerprints.any (approves config.facts digest) = true
  · simp [hany]
  · simp [hany]

/-! ### Sealed findings -/

theorem getField_eq {map : Fields} {key value : String} (h : Binding.field map key = .ok value) :
    Seal.getField map key = .ok value := by
  unfold Seal.getField
  rw [h]
  rfl

/-- A binding that is proposed again gives itself when it is valid and its shape is sound. -/
theorem proposeAgain_eq (b : ProposedBinding) : Seal.proposeAgain b = .ok b ↔
    b.endpointScope = b.pointScope ∧ b.requested = b.effective ∧ b.feedback ≠ .ambiguous ∧ b.status = .valid := by
  constructor
  · intro h
    unfold Seal.proposeAgain propose at h
    obtain ⟨u, hshape, h⟩ := Result.bind_eq_ok.1 h
    have hstatus := congrArg ProposedBinding.status (Except.ok.inj h)
    unfold checkShape at hshape
    obtain ⟨hscope, hshape⟩ := Result.ite_error_eq_ok.1 hshape
    obtain ⟨-, hshape⟩ := Result.ite_error_eq_ok.1 hshape
    obtain ⟨-, hshape⟩ := Result.ite_error_eq_ok.1 hshape
    obtain ⟨hrole, hshape⟩ := Result.ite_error_eq_ok.1 hshape
    obtain ⟨hfeedback, -⟩ := Result.ite_error_eq_ok.1 hshape
    exact ⟨TrustedScope.ext_text (not_not.1 hscope), not_not.1 hrole, hfeedback, hstatus.symm⟩
  · rintro ⟨hscope, hrole, hfeedback, hstatus⟩
    unfold Seal.proposeAgain propose checkShape
    rw [if_neg (by rw [hscope]; simp), if_neg (by simp), if_neg (by simp), if_neg (by rw [hrole]; simp), if_neg hfeedback]
    rw [Result.ok_bind, ← hstatus]

/-- A finding as it was committed: the row of a binding at a revision, by an actor. -/
structure CommittedFinding where
  operation : OperationId
  revision : BindingRevision
  binding : ProposedBinding
  actor : ActorContext
  parts : FromParts binding

namespace CommittedFinding

def reference (c : CommittedFinding) : String := descriptor (actorFields c.actor)

def finding (c : CommittedFinding) : Finding := Finding.forBinding c.binding c.revision c.reference

def row (c : CommittedFinding) : String :=
  descriptor (findingFields c.operation c.revision c.binding c.finding c.actor)

/-- The fingerprint of the row, given the digest of its canonical bytes. -/
def fingerprint (c : CommittedFinding) (digest : Seal.Digest) : String :=
  Seal.encode (Seal.fingerprintFields c.finding c.revision.value c.reference digest)

/-- What a seal of the scope takes. -/
structure Sealable (scope : TrustedScope) (c : CommittedFinding) : Prop where
  uncut : Uncut c.binding
  valid : c.binding.status = .valid
  inScope : c.binding.pointScope = scope
  endpoint : c.binding.endpointScope = c.binding.pointScope
  role : c.binding.requested = c.binding.effective
  feedback : c.binding.feedback ≠ .ambiguous
  actorScope : c.actor.bound.scope = scope
  capgen : c.actor.row.capgen ≠ 0
  revision : c.revision.value ≠ 0

end CommittedFinding

theorem checkedBinding_eq_ok {scope : TrustedScope} {b proposed : ProposedBinding} (hparts : FromParts b) :
    Seal.checkedBinding scope b.canonicalBytes = .ok proposed ↔
      proposed = unmarked b ∧ Uncut b ∧ b.status = .valid ∧ b.pointScope = scope ∧ b.endpointScope = b.pointScope ∧
        b.requested = b.effective ∧ b.feedback ≠ .ambiguous := by
  constructor
  · intro h
    obtain rfl := unmarked_of_checkedBinding hparts h
    unfold Seal.checkedBinding at h
    obtain ⟨decoded, hdecoded, h⟩ := Result.bind_eq_ok.1 h
    obtain ⟨_, -, h⟩ := Result.bind_eq_ok.1 h
    obtain ⟨checked, hchecked, h⟩ := Result.bind_eq_ok.1 h
    obtain ⟨hright, h⟩ := Result.ite_error_eq_ok.1 h
    obtain ⟨hsame, hscope⟩ := not_or.1 hright
    have hdecodedEq := Except.ok.inj h
    rw [hdecodedEq] at hsame hscope hchecked
    have hagain := Result.mapError_eq_ok.1 hchecked
    rw [not_not.1 hsame] at hagain
    obtain ⟨hendpoint, hrole, hfeedback, hstatus⟩ := (proposeAgain_eq _).1 hagain
    have huncut : Uncut b := by
      by_contra hcut
      rw [decodeCanonical_cut _ _ hcut] at hdecoded
      cases hdecoded
    exact ⟨rfl, huncut, hstatus, not_not.1 hscope, hendpoint, hrole, hfeedback⟩
  · rintro ⟨rfl, huncut, hstatus, hscope, hendpoint, hrole, hfeedback⟩
    have hagain : Seal.proposeAgain (unmarked b) = .ok (unmarked b) :=
      (proposeAgain_eq _).2 ⟨hendpoint, hrole, hfeedback, hstatus⟩
    have hdecoded := decodeCanonical_uncut (Seal.SealError.invalid "binding canonical version") Seal.SealError.binding hparts huncut
    have hvalid : Seal.requireValid (unmarked b).status = .ok () := by
      rw [show (unmarked b).status = .valid from hstatus]
      rfl
    unfold Seal.checkedBinding
    rw [hdecoded, Result.ok_bind]
    show (do
      Seal.requireValid (unmarked b).status
      let checked ← (Seal.proposeAgain (unmarked b)).mapError Seal.SealError.binding
      if checked ≠ unmarked b ∨ (unmarked b).pointScope ≠ scope then
        Except.error (Seal.SealError.invalid "finding structure/scope")
      else .ok (unmarked b)) = .ok (unmarked b)
    rw [hvalid, Result.ok_bind, hagain]
    exact if_neg (by
      rintro (h | h)
      · exact h rfl
      · exact h hscope)

theorem forBinding_unmarked (b : ProposedBinding) (revision : BindingRevision) (actor : String) :
    Finding.forBinding (unmarked b) revision actor = Finding.forBinding b revision actor := by
  unfold Finding.forBinding
  rw [canonicalBytes_unmarked]
  rfl

section Row

variable {map : Fields} {actor : ActorContext} {revision : BindingRevision} {scope : TrustedScope}

theorem checkedActor_eq_ok {reference : String} (hcap : Binding.field map "capability" = .ok actor.row.cap.text)
    (hscope : Binding.field map "scope" = .ok actor.bound.scope.text)
    (hgen : Binding.field map "capgen" = .ok (Nat.repr actor.row.capgen.toNat))
    (hissuer : Binding.field map "issuer" = .ok actor.row.issuer.text) :
    Seal.checkedActor map scope = .ok reference ↔
      actor.row.capgen ≠ 0 ∧ actor.bound.scope = scope ∧ reference = descriptor (actorFields actor) := by
  unfold Seal.checkedActor
  simp only [getField_eq hcap, getField_eq hscope, getField_eq hgen, getField_eq hissuer, Result.ok_bind,
    CapabilityName.parse_text, IssuerId.parse_text, parse_scope, Except.mapError, Seal.numberU32_repr]
  constructor
  · intro h
    obtain ⟨hright, h⟩ := Result.ite_error_eq_ok.1 h
    obtain ⟨hcapgen, hsame⟩ := not_or.1 hright
    obtain rfl := not_not.1 hsame
    exact ⟨hcapgen, rfl, (Except.ok.inj h).symm⟩
  · rintro ⟨hcapgen, rfl, rfl⟩
    exact if_neg (not_or.2 ⟨hcapgen, not_not.2 rfl⟩)

theorem checkedGeneration_eq_ok {generation : UInt32}
    (hgeneration : Binding.field map "generation" = .ok (Nat.repr revision.value.toNat))
    (hrevision : Binding.field map "revision" = .ok (Nat.repr revision.value.toNat)) :
    Seal.checkedGeneration map = .ok generation ↔ revision.value ≠ 0 ∧ generation = revision.value := by
  unfold Seal.checkedGeneration
  simp only [getField_eq hgeneration, getField_eq hrevision, Result.ok_bind, Seal.numberU32_repr]
  constructor
  · intro h
    obtain ⟨hzero, h⟩ := Result.ite_error_eq_ok.1 h
    obtain ⟨-, h⟩ := Result.ite_error_eq_ok.1 h
    exact ⟨hzero, (Except.ok.inj h).symm⟩
  · rintro ⟨hzero, rfl⟩
    rw [if_neg hzero, if_neg (not_not.2 rfl)]

theorem checkJoin_eq_ok {finding : Finding} (hfid : Binding.field map "fid" = .ok finding.id.text)
    (hdigest : Binding.field map "digest" = .ok finding.digest)
    (hsummary : Binding.field map "summary" = .ok finding.summary) : Seal.checkJoin map finding = .ok () := by
  unfold Seal.checkJoin
  simp only [getField_eq hfid, getField_eq hdigest, getField_eq hsummary, Result.ok_bind]
  rw [if_neg (not_not.2 rfl), if_neg (not_not.2 rfl), if_neg (not_not.2 rfl)]

end Row

namespace CommittedFinding

variable {scope : TrustedScope} {sha : Seal.Sha256}

theorem fingerprint_eq_ok (c : CommittedFinding) {out : String} :
    Seal.findingFingerprint c.row scope sha = .ok out ↔ c.Sealable scope ∧
      ∃ digest, sha.hash c.binding.canonicalBytes.toByteArray = .ok digest ∧ out = c.fingerprint digest := by
  obtain ⟨map, hmap, hfield, -⟩ := read_findingFields c.operation c.revision c.binding c.finding c.actor
  have hbinding : Seal.getField map "binding" = .ok c.binding.canonicalBytes := getField_eq (hfield "binding" _ rfl)
  have hversion : Seal.checkVersion map = .ok () := by
    unfold Seal.checkVersion
    simp only [getField_eq (hfield "v" _ rfl), getField_eq (hfield "kind" _ rfl), Result.ok_bind]
    rw [if_neg (not_not.2 rfl), if_neg (not_not.2 rfl)]
  have hactor : ∀ reference, Seal.checkedActor map scope = .ok reference ↔
      c.actor.row.capgen ≠ 0 ∧ c.actor.bound.scope = scope ∧ reference = c.reference := fun _ =>
    checkedActor_eq_ok (hfield "capability" _ rfl) (hfield "scope" _ rfl) (hfield "capgen" _ rfl) (hfield "issuer" _ rfl)
  have hgeneration : ∀ generation, Seal.checkedGeneration map = .ok generation ↔
      c.revision.value ≠ 0 ∧ generation = c.revision.value := fun _ =>
    checkedGeneration_eq_ok (hfield "generation" _ rfl) (hfield "revision" _ rfl)
  have hjoin : Seal.checkJoin map c.finding = .ok () :=
    checkJoin_eq_ok (hfield "fid" _ rfl) (hfield "digest" _ rfl) (hfield "summary" _ rfl)
  have hsame : Finding.forBinding (unmarked c.binding) ⟨c.revision.value⟩ c.reference = c.finding :=
    forBinding_unmarked c.binding c.revision c.reference
  unfold Seal.findingFingerprint row
  rw [hmap]
  simp only [Except.mapError, Result.ok_bind, hversion, hbinding]
  constructor
  · intro h
    obtain ⟨proposed, hproposed, h⟩ := Result.bind_eq_ok.1 h
    obtain ⟨reference, hreference, h⟩ := Result.bind_eq_ok.1 h
    obtain ⟨generation, hgen, h⟩ := Result.bind_eq_ok.1 h
    obtain ⟨_, -, h⟩ := Result.bind_eq_ok.1 h
    obtain ⟨digest, hdigest, h⟩ := Result.bind_eq_ok.1 h
    obtain ⟨rfl, huncut, hstatus, hscope, hendpoint, hrole, hfeedback⟩ := (checkedBinding_eq_ok c.parts).1 hproposed
    obtain ⟨hcapgen, hactorScope, rfl⟩ := (hactor _).1 hreference
    obtain ⟨hrevision, rfl⟩ := (hgeneration _).1 hgen
    refine ⟨⟨huncut, hstatus, hscope, hendpoint, hrole, hfeedback, hactorScope, hcapgen, hrevision⟩, digest, hdigest, ?_⟩
    rw [← Except.ok.inj h, hsame]
    rfl
  · rintro ⟨htaken, digest, hdigest, rfl⟩
    have hproposed : Seal.checkedBinding scope c.binding.canonicalBytes = .ok (unmarked c.binding) :=
      (checkedBinding_eq_ok c.parts).2 ⟨rfl, htaken.uncut, htaken.valid, htaken.inScope, htaken.endpoint, htaken.role,
        htaken.feedback⟩
    rw [hproposed, Result.ok_bind, (hactor _).2 ⟨htaken.capgen, htaken.actorScope, rfl⟩, Result.ok_bind,
      (hgeneration _).2 ⟨htaken.revision, rfl⟩, Result.ok_bind, hsame, hjoin, Result.ok_bind, hdigest, Result.ok_bind]
    rfl

theorem size_reference_le (c : CommittedFinding) : c.reference.utf8ByteSize ≤ 512 := by
  have hsize := size_descriptor_le (actorFields c.actor)
  have hcap := c.actor.row.cap.valid.2.1
  have hscope := c.actor.bound.scope.valid.2.1
  have hissuer := c.actor.row.issuer.valid.2.1
  have hgen := utf8ByteSize_repr_le (k := 10) (by decide) (Nat.lt_trans c.actor.row.capgen.toNat_lt (by decide))
  have hmax : maxIdLen = 128 := rfl
  have hkeys : "capability".utf8ByteSize = 10 ∧ "scope".utf8ByteSize = 5 ∧ "capgen".utf8ByteSize = 6 ∧
      "issuer".utf8ByteSize = 6 := by decide
  unfold actorFields actorPairs at hsize
  simp only [List.map_cons, List.map_nil, List.sum_cons, List.sum_nil, pctEncode_of_isId c.actor.row.cap.valid,
    pctEncode_of_isId c.actor.bound.scope.valid, pctEncode_of_isId c.actor.row.issuer.valid, hkeys.1, hkeys.2.1,
    hkeys.2.2.1, hkeys.2.2.2] at hsize
  unfold reference actorFields actorPairs
  simp only [pctEncode_of_isId c.actor.row.cap.valid, pctEncode_of_isId c.actor.bound.scope.valid,
    pctEncode_of_isId c.actor.row.issuer.valid]
  omega

theorem decode_fingerprint (c : CommittedFinding) (digest : Seal.Digest) : decode (c.fingerprint digest) 4096 7 =
    .ok (Seal.fingerprintFields c.finding c.revision.value c.reference digest) := by
  have hid := Seal.utf8ByteSize_frame_le (k := 3) (by decide) c.finding.id.valid.2.1 (by decide)
  have hgeneration := Seal.utf8ByteSize_frame_le (k := 2) (by decide)
    (utf8ByteSize_repr_le (k := 10) (by decide) (Nat.lt_trans c.revision.value.toNat_lt (by decide))) (by decide)
  have hreference := Seal.utf8ByteSize_frame_le (k := 3) (by decide) c.size_reference_le (by decide)
  have hkind : "synthetic-fnv1a64-not-authority".utf8ByteSize ≤ 31 := by decide
  have hkind := Seal.utf8ByteSize_frame_le (k := 2) (by decide) hkind (by decide)
  have hcontent : c.finding.digest.utf8ByteSize ≤ 16 := Nat.le_of_eq (utf8ByteSize_hex16 _)
  have hcontent := Seal.utf8ByteSize_frame_le (k := 2) (by decide) hcontent (by decide)
  have hversion : "binding-canonical-v2-sha256".utf8ByteSize ≤ 27 := by decide
  have hversion := Seal.utf8ByteSize_frame_le (k := 2) (by decide) hversion (by decide)
  have hdigest := Seal.utf8ByteSize_frame_le (k := 2) (by decide) (Nat.le_of_eq digest.valid.1) (by decide)
  have hmax : maxIdLen = 128 := rfl
  refine Accept.decode_encode ?_ (by simp [Seal.fingerprintFields]) (by decide)
  unfold Seal.fingerprintFields
  rw [encode_eq_seal, Seal.utf8ByteSize_encode]
  simp only [List.map_cons, List.map_nil, List.sum_cons, List.sum_nil]
  omega

theorem approves_fingerprint (c : CommittedFinding) (facts : List ObservedFact) (digest digest' : Seal.Digest) :
    approves facts digest (Seal.fingerprintFields c.finding c.revision.value c.reference digest') = true ↔
      digest' = digest ∧ ObservedFact.ofFinding c.finding ∈ facts := by
  constructor
  · intro h
    obtain ⟨rfl, fact, hfact, hid, hgeneration, hactor, hcontent⟩ := approves_eq_true h
    refine ⟨rfl, ?_⟩
    have hsame : ObservedFact.ofFinding c.finding = fact := by
      obtain ⟨factId, factGeneration, factActor, content⟩ := fact
      simp only at hid hgeneration hactor hcontent
      subst hid hgeneration hactor hcontent
      rfl
    rw [hsame]
    exact hfact
  · rintro ⟨rfl, hfact⟩
    unfold approves Seal.fingerprintFields
    simp only [beq_self_eq_true, Bool.true_and, List.any_eq_true, Bool.and_eq_true, beq_iff_eq]
    exact ⟨_, hfact, ⟨⟨rfl, rfl⟩, rfl⟩, rfl⟩

/-- The bytes of the binding have the digest of the entry's. -/
def Vouches (sha : Seal.Sha256) (c : CommittedFinding) (e : Entry) : Prop :=
  ∃ digest, e.fingerprint sha = .ok digest ∧ sha.hash c.binding.canonicalBytes.toByteArray = .ok digest

/-- Findings are fingerprinted one by one. -/
theorem mapM_fingerprint {committed : List CommittedFinding} {texts : List String} :
    (committed.mapM fun c => Seal.findingFingerprint c.row scope sha) = .ok texts ↔
      List.Forall₂ (fun c text => c.Sealable scope ∧ ∃ digest,
        sha.hash c.binding.canonicalBytes.toByteArray = .ok digest ∧ text = c.fingerprint digest) committed texts := by
  rw [Result.mapM_eq_ok]
  constructor
  · intro h
    exact h.imp fun c text htext => c.fingerprint_eq_ok.1 htext
  · intro h
    exact h.imp fun c text htext => c.fingerprint_eq_ok.2 htext

theorem mapM_decode {committed : List CommittedFinding} {texts : List String}
    (h : List.Forall₂ (fun c text => c.Sealable scope ∧ ∃ digest,
      sha.hash c.binding.canonicalBytes.toByteArray = .ok digest ∧ text = c.fingerprint digest) committed texts) :
    ∃ fingerprints, (texts.mapM fun raw => decode raw 4096 7) = .ok fingerprints ∧
      List.Forall₂ (fun c fields => ∃ digest, sha.hash c.binding.canonicalBytes.toByteArray = .ok digest ∧
        fields = Seal.fingerprintFields c.finding c.revision.value c.reference digest) committed fingerprints := by
  induction h with
  | nil => exact ⟨[], rfl, .nil⟩
  | @cons c text committed texts htext _ ih =>
    obtain ⟨fingerprints, hdecoded, hall⟩ := ih
    obtain ⟨-, digest, hdigest, rfl⟩ := htext
    refine ⟨_ :: fingerprints, ?_, .cons ⟨digest, hdigest, rfl⟩ hall⟩
    rw [List.mapM_cons, c.decode_fingerprint digest, Result.ok_bind, hdecoded]
    rfl

end CommittedFinding

/-- A seal of committed findings approves a configuration exactly when it takes every one of them and each entry has the
digest of one that the facts cite. -/
theorem approved_iff (sha : Seal.Sha256) (scope : TrustedScope) (config : EffectiveConfig)
    (committed : List CommittedFinding) :
    (∃ texts, (committed.mapM fun c => Seal.findingFingerprint c.row scope sha) = .ok texts ∧
        checkApprovals sha config texts = .ok ()) ↔
      (∀ c ∈ committed, c.Sealable scope ∧ ∃ digest, sha.hash c.binding.canonicalBytes.toByteArray = .ok digest) ∧
        ∀ e ∈ config.entries.entries, ∃ c ∈ committed,
          ObservedFact.ofFinding c.finding ∈ config.facts ∧ c.Vouches sha e := by
  constructor
  · rintro ⟨texts, htexts, h⟩
    have hall := CommittedFinding.mapM_fingerprint.1 htexts
    obtain ⟨fingerprints, hdecoded, hfields⟩ := CommittedFinding.mapM_decode hall
    obtain ⟨fingerprints', hdecoded', hentries⟩ := checkApprovals_eq_ok.1 h
    rw [hdecoded] at hdecoded'
    obtain rfl := Except.ok.inj hdecoded'
    refine ⟨fun c hc => ?_, fun e he => ?_⟩
    · obtain ⟨text, -, hsealable, digest, hdigest, -⟩ := Pointwise.exists_right hall hc
      exact ⟨hsealable, digest, hdigest⟩
    · obtain ⟨digest, hdigest, fields, hmem, happroves⟩ := hentries e he
      obtain ⟨c, hc, digest', hhash, rfl⟩ := Pointwise.exists_left hfields hmem
      obtain ⟨rfl, hfact⟩ := (c.approves_fingerprint _ _ _).1 happroves
      exact ⟨c, hc, hfact, digest', hdigest, hhash⟩
  · rintro ⟨hsealable, hentries⟩
    obtain ⟨texts, hall⟩ := Pointwise.exists_of_forall (l := committed)
      (R := fun c text => c.Sealable scope ∧ ∃ digest, sha.hash c.binding.canonicalBytes.toByteArray = .ok digest ∧
        text = c.fingerprint digest) fun c hc => by
      obtain ⟨htaken, digest, hdigest⟩ := hsealable c hc
      exact ⟨_, htaken, digest, hdigest, rfl⟩
    obtain ⟨fingerprints, hdecoded, hfields⟩ := CommittedFinding.mapM_decode hall
    refine ⟨texts, CommittedFinding.mapM_fingerprint.2 hall, checkApprovals_eq_ok.2 ⟨fingerprints, hdecoded, ?_⟩⟩
    intro e he
    obtain ⟨c, hc, hfact, digest, hdigest, hhash⟩ := hentries e he
    obtain ⟨fields, hmem, digest', hhash', rfl⟩ := Pointwise.exists_right hfields hc
    rw [hhash] at hhash'
    obtain rfl := Except.ok.inj hhash'
    exact ⟨digest, hdigest, _, hmem, (c.approves_fingerprint _ _ _).2 ⟨rfl, hfact⟩⟩

/-! ### One meaning -/

/-- What is said of the binding is said of no other: its bytes, a retry that gets the finding of its row, and an approval
made from its row, but for two inputs with one digest. -/
structure Identifies (sha : Seal.Sha256) (b : ProposedBinding) : Prop where
  bytes : ∀ other, FromParts other → other.canonicalBytes = b.canonicalBytes → other = b
  retries : ∀ operation revision finding actor map,
    splitBinding (descriptor (findingFields operation revision b finding actor)) = .ok map →
    ∀ (registry : BindingRegistry) revision' other found, FromParts other →
      registry.findingCommit revision' other map = .ok found → other = b
  approvals : ∀ operation revision finding actor scope text fields,
    Seal.findingFingerprint (descriptor (findingFields operation revision b finding actor)) scope sha = .ok text →
    decode text 4096 7 = .ok fields → ∀ facts (entry : Entry) digest, FromParts entry.binding →
      entry.fingerprint sha = .ok digest → approves facts digest fields = true →
      entry.binding = b ∨ Collides sha entry.binding.canonicalBytes.toByteArray b.canonicalBytes.toByteArray

/-- A binding is identified exactly when it has one meaning. -/
theorem identifies_iff (sha : Seal.Sha256) {b : ProposedBinding} (hparts : FromParts b) : Identifies sha b ↔ OneMeaning b := by
  constructor
  · intro h
    exact (onlyReading_iff hparts).1 h.bytes
  · intro h
    have honly : OnlyReading b := (onlyReading_iff hparts).2 h
    refine ⟨honly, ?_, ?_⟩
    · intro operation revision finding actor map hmap registry revision' other found hother hcommit
      exact honly other hother (binding_of_findingRow hmap (findingCommit_bytes hcommit))
    · intro operation revision finding actor scope text fields htext hfields facts entry digest hentry hdigest happroves
      obtain ⟨map, canonical, proposed, generation, reference, digest', hmap, hcanonical, -, hhash, rfl⟩ :=
        Seal.findingFingerprint_eq_ok htext
      obtain rfl := binding_of_findingRow hmap hcanonical
      obtain rfl := fields_of_decode hfields
      obtain ⟨rfl, -⟩ := approves_eq_true happroves
      have hentryHash := Result.mapError_eq_ok.1 hdigest
      by_cases hsame : entry.binding.canonicalBytes = b.canonicalBytes
      · exact .inl (honly entry.binding hentry hsame)
      · refine .inr ⟨fun hbytes => hsame (String.toByteArray_inj.1 hbytes), digest', hentryHash, hhash⟩

theorem occupied_identified :
    Identifies ⟨fun _ => .error (.limit "tool"), "sha256"⟩ (sampleProposal (some .occupied)) := by
  have hparts : FromParts (sampleProposal (some .occupied)) :=
    sampleProposal_fromParts (show OpMode.parse "occupied" = .ok .occupied from rfl)
  refine (identifies_iff _ hparts).2 ⟨⟨.occupied, rfl, by decide⟩, ?_⟩
  exact SoleCut.of_not_mem (by decide) (by decide)

/-- A binding without a mode and one whose mode is a dash have the same bytes. -/
theorem absent_mode_is_dash : ¬ ∀ a b : ProposedBinding, FromParts a → FromParts b →
    a.canonicalBytes = b.canonicalBytes → a = b := by
  intro h
  have hnone : FromParts (sampleProposal none) := ⟨⟨"degC", rfl⟩, by rintro m ⟨⟩⟩
  have hdash : FromParts (sampleProposal (some (.unknown "-"))) :=
    sampleProposal_fromParts (show OpMode.parse "-" = .ok (.unknown "-") from rfl)
  have hsame := h _ _ hnone hdash (canonicalBytes_eq_iff.2 ⟨rfl, rfl⟩)
  have hmode := congrArg ProposedBinding.mode hsame
  cases hmode

end Verdant.Accept
