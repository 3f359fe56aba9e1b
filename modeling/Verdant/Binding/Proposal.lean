import Verdant.Binding.Records
import Verdant.Domain.Values

/-!
# Proposed bindings and findings

An endpoint bound to a point with explicit unit, mode and roles.  `propose` checks the shape of a binding in a fixed
order; a finding is the citable record of one binding at one revision, named by the digest of its canonical bytes.
-/

namespace Verdant.Binding

open TextCodec

inductive BindingRole where
  | sense
  | drive
  deriving DecidableEq, Repr

def BindingRole.parse (raw : String) : Except BindingError BindingRole :=
  if raw = "sense" then .ok .sense
  else if raw = "drive" then .ok .drive
  else .error (.invalidInput "binding-role" s!"unknown binding role '{raw}'; expected sense/drive")

def BindingRole.asStr : BindingRole → String
  | .sense => "sense"
  | .drive => "drive"

@[simp]
theorem BindingRole.parse_asStr (role : BindingRole) : BindingRole.parse role.asStr = .ok role := by
  cases role <;> rfl

/-- Feedback specification; `ambiguous` only names the failure. -/
inductive Feedback where
  | absent
  | single (role : BindingRole)
  | ambiguous
  deriving DecidableEq, Repr

def Feedback.parse (raw : String) : Except BindingError Feedback :=
  if raw = "absent" then .ok .absent
  else if raw = "sense" then .ok (.single .sense)
  else if raw = "drive" then .ok (.single .drive)
  else if raw = "ambiguous" ∨ raw = "sense+drive" then .ok .ambiguous
  else .error (.invalidInput "feedback" s!"unknown feedback '{raw}'; expected absent/sense/drive/ambiguous")

def Feedback.asStr : Feedback → String
  | .absent => "absent"
  | .single role => role.asStr
  | .ambiguous => "ambiguous"

@[simp]
theorem Feedback.parse_asStr (feedback : Feedback) : Feedback.parse feedback.asStr = .ok feedback := by
  cases feedback with
  | absent => rfl
  | single role => cases role <;> rfl
  | ambiguous => rfl

/-- Lifecycle status; `observedQualified` has no constructor path here. -/
inductive BindingStatus where
  | imported
  | valid
  | observedQualified
  deriving DecidableEq, Repr

def BindingStatus.asStr : BindingStatus → String
  | .imported => "imported"
  | .valid => "valid"
  | .observedQualified => "observed-qualified"

def BindingStatus.parse (raw : String) : Except BindingError BindingStatus :=
  if raw = "imported" then .ok .imported
  else if raw = "valid" then .ok .valid
  else if raw = "observed-qualified" then .ok .observedQualified
  else .error (unreadable s!"stored propose status invalid: '{raw}'")

@[simp]
theorem BindingStatus.parse_asStr (status : BindingStatus) : BindingStatus.parse status.asStr = .ok status := by
  cases status <;> rfl

/-- Proposed binding: endpoint to point. -/
structure ProposedBinding where
  endpoint : EndpointAddress
  endpointClass : EndpointClass
  endpointScope : TrustedScope
  pointEquipment : InstalledId
  pointProperty : PropertyName
  pointScope : TrustedScope
  source : InstalledId
  unit : MeasureUnit
  mode : Option OpMode
  requested : BindingRole
  effective : BindingRole
  feedback : Feedback
  status : BindingStatus
  deriving DecidableEq

/-- The explicit mode text; a binding without a mode has a dash. -/
def ProposedBinding.modeText (binding : ProposedBinding) : String := (binding.mode.map OpMode.asStr).getD "-"

/-- Versioned input of the finding digests. -/
def ProposedBinding.canonicalBytes (binding : ProposedBinding) : String :=
  joinText '\x1f' ["binding-canonical-v2", binding.endpoint.text, binding.endpointClass.asStr, binding.endpointScope.text,
    binding.pointEquipment.text, binding.pointProperty.text, binding.pointScope.text, binding.source.text,
    binding.unit.asStr, binding.modeText, binding.requested.asStr, binding.effective.asStr, binding.feedback.asStr,
    binding.status.asStr]

/-! ### Structural checks -/

/-- The structural checks in their order; the first failure wins. -/
def checkShape (doing : String) (endpointScope pointScope : TrustedScope) (endpointClass expectedClass : EndpointClass)
    (unit expectedUnit : MeasureUnit) (requested effective : BindingRole) (feedback : Feedback) :
    Except BindingError Unit :=
  if endpointScope.text ≠ pointScope.text then .error (.scopeDenied endpointScope.text pointScope.text)
  else if endpointClass ≠ expectedClass then .error (.endpointConfusion expectedClass.asStr endpointClass.asStr)
  else if unit.asStr ≠ expectedUnit.asStr then .error (.wrongUnit expectedUnit.asStr unit.asStr)
  else if requested ≠ effective then
    .error (.wrongRole requested.asStr
      s!"requested '{requested.asStr}' does not match effective '{effective.asStr}' (no silent downgrade)")
  else if feedback = .ambiguous then
    .error (.ambiguousFeedback s!"feedback lists more than one role; disambiguate before {doing}")
  else .ok ()

/-- Pure structural proposal: no store, no capability check. -/
def propose (endpoint : EndpointAddress) (endpointClass : EndpointClass) (endpointScope : TrustedScope)
    (pointEquipment : InstalledId) (pointProperty : PropertyName) (pointScope : TrustedScope) (source : InstalledId)
    (expectedUnit : MeasureUnit) (expectedClass : EndpointClass) (unit : MeasureUnit) (mode : Option OpMode)
    (requested effective : BindingRole) (feedback : Feedback) : Except BindingError ProposedBinding := do
  checkShape "proposing" endpointScope pointScope endpointClass expectedClass unit expectedUnit requested effective
    feedback
  .ok ⟨endpoint, endpointClass, endpointScope, pointEquipment, pointProperty, pointScope, source, unit, mode, requested,
    effective, feedback, .valid⟩

/-- What an import reads of a converted binding. -/
structure Conversion where
  verdantId : InstalledId
  unit : MeasureUnit
  value : Value
  deriving DecidableEq

/-- The mode a converted value carries. -/
def modeOf : Value → Option OpMode
  | .mode mode => some mode
  | _ => none

def importBinding (conversion : Conversion) (endpointAddress : String) (endpointClass : EndpointClass)
    (endpointScope : TrustedScope) (pointProperty : String) (pointScope : TrustedScope) (sourceText : String)
    (expectedUnit : MeasureUnit) (expectedClass : EndpointClass) (requested effective : BindingRole)
    (feedback : Feedback) : Except BindingError ProposedBinding := do
  let endpoint ← EndpointAddress.parse endpointAddress
  let property ← PropertyName.parse pointProperty
  let source ← parseInstalled "source" sourceText
  if endpointScope.text ≠ pointScope.text then .error (.scopeDenied endpointScope.text pointScope.text)
  else if endpointClass ≠ expectedClass then .error (.endpointConfusion expectedClass.asStr endpointClass.asStr)
  else if conversion.unit.asStr ≠ expectedUnit.asStr then .error (.wrongUnit expectedUnit.asStr conversion.unit.asStr)
  else if requested ≠ effective then
    .error (.wrongRole requested.asStr
      s!"requested '{requested.asStr}' does not match effective '{effective.asStr}' (no silent downgrade)")
  else if feedback = .ambiguous then
    .error (.ambiguousFeedback "feedback lists more than one role; disambiguate before importing")
  else
    .ok ⟨endpoint, endpointClass, endpointScope, conversion.verdantId, property, pointScope, source, conversion.unit,
      modeOf conversion.value, requested, effective, feedback, .imported⟩

/-- An import makes the checks of a proposal. -/
theorem importBinding_eq (conversion : Conversion) (endpointAddress : String) (endpointClass : EndpointClass)
    (endpointScope : TrustedScope) (pointProperty : String) (pointScope : TrustedScope) (sourceText : String)
    (expectedUnit : MeasureUnit) (expectedClass : EndpointClass) (requested effective : BindingRole)
    (feedback : Feedback) :
    importBinding conversion endpointAddress endpointClass endpointScope pointProperty pointScope sourceText expectedUnit
      expectedClass requested effective feedback = (do
        let endpoint ← EndpointAddress.parse endpointAddress
        let property ← PropertyName.parse pointProperty
        let source ← parseInstalled "source" sourceText
        checkShape "importing" endpointScope pointScope endpointClass expectedClass conversion.unit expectedUnit requested
          effective feedback
        .ok ⟨endpoint, endpointClass, endpointScope, conversion.verdantId, property, pointScope, source, conversion.unit,
          modeOf conversion.value, requested, effective, feedback, .imported⟩) := by
  unfold importBinding checkShape
  cases EndpointAddress.parse endpointAddress with
  | error e => rfl
  | ok endpoint =>
    cases PropertyName.parse pointProperty with
    | error e => rfl
    | ok property =>
      cases parseInstalled "source" sourceText with
      | error e => rfl
      | ok source =>
        simp only [Result.ok_bind]
        split_ifs <;> rfl

theorem checkShape_eq_ok {doing : String} {endpointScope pointScope : TrustedScope}
    {endpointClass expectedClass : EndpointClass} {unit expectedUnit : MeasureUnit} {requested effective : BindingRole}
    {feedback : Feedback} {u : Unit}
    (h : checkShape doing endpointScope pointScope endpointClass expectedClass unit expectedUnit requested effective
      feedback = .ok u) :
    endpointClass = expectedClass ∧ unit.asStr = expectedUnit.asStr := by
  unfold checkShape at h
  split at h
  · exact nomatch h
  split at h
  · exact nomatch h
  rename_i hclass
  split at h
  · exact nomatch h
  rename_i hunit
  exact ⟨not_not.1 hclass, not_not.1 hunit⟩

theorem importBinding_eq_ok {conversion : Conversion} {endpointAddress pointProperty sourceText : String}
    {endpointClass expectedClass : EndpointClass} {endpointScope pointScope : TrustedScope} {expectedUnit : MeasureUnit}
    {requested effective : BindingRole} {feedback : Feedback} {binding : ProposedBinding}
    (h : importBinding conversion endpointAddress endpointClass endpointScope pointProperty pointScope sourceText
      expectedUnit expectedClass requested effective feedback = .ok binding) :
    binding.pointEquipment = conversion.verdantId ∧ binding.pointProperty.text = pointProperty ∧
      binding.mode = modeOf conversion.value := by
  rw [importBinding_eq] at h
  obtain ⟨endpoint, -, h⟩ := Result.bind_eq_ok.1 h
  obtain ⟨property, hproperty, h⟩ := Result.bind_eq_ok.1 h
  obtain ⟨source, -, h⟩ := Result.bind_eq_ok.1 h
  obtain ⟨_, -, h⟩ := Result.bind_eq_ok.1 h
  cases h
  obtain ⟨-, rfl⟩ := parseToken_eq_ok hproperty
  exact ⟨rfl, rfl, rfl⟩

/-! ### Findings -/

/-- Referenceable finding identity. -/
structure FindingId where
  text : String
  valid : IsId text

theorem FindingId.ext_text {a b : FindingId} (h : a.text = b.text) : a = b := by
  cases a
  cases b
  cases h
  rfl

instance : DecidableEq FindingId := fun _ _ => decidable_of_iff _ ⟨FindingId.ext_text, congrArg FindingId.text⟩

def FindingId.parse (raw : String) : Except BindingError FindingId := parseToken "finding-id" raw .mk

@[simp]
theorem FindingId.parse_text (id : FindingId) : FindingId.parse id.text = .ok id := parseToken_of_isId id.valid

/-- Stable prerequisite finding: the citable id with its generation. -/
structure Finding where
  id : FindingId
  generation : UInt32
  revision : BindingRevision
  digest : String
  summary : String
  actorReference : String
  deriving DecidableEq

theorem idChar_hex16 (n : UInt64) : (hex16 n).toList.all idChar = true := by
  have hdigit : ∀ d < 16, idChar (Nat.digitChar d) = true := by decide
  rw [List.all_eq_true]
  intro c hc
  unfold hex16 at hc
  rw [String.toList_ofList] at hc
  obtain ⟨i, -, rfl⟩ := List.mem_map.1 hc
  exact hdigit _ (Nat.mod_lt _ (by decide))

theorem isId_finding (digest : UInt64) : IsId ("finding-" ++ hex16 digest) := by
  have hfront : ("finding-" : String) ≠ "" ∧ ("finding-" : String).utf8ByteSize = 8 ∧
      ("finding-" : String).toList.all idChar = true := by decide
  refine ⟨?_, ?_, ?_⟩
  · intro hempty
    have := congrArg String.utf8ByteSize hempty
    rw [String.utf8ByteSize_append, hfront.2.1] at this
    have hzero : ("" : String).utf8ByteSize = 0 := rfl
    omega
  · rw [String.utf8ByteSize_append, hfront.2.1, utf8ByteSize_hex16]
    decide
  · rw [String.toList_append, List.all_append, hfront.2.2, idChar_hex16]
    rfl

/-- The finding of one binding at one revision, scoped to the bytes of its actor. -/
def Finding.forBinding (binding : ProposedBinding) (revision : BindingRevision) (actorReference : String) : Finding :=
  let canonical := joinText '\x1f' [binding.canonicalBytes, Nat.repr revision.value.toNat, actorReference]
  let digest := fnv1a canonical.toByteArray.data.toList
  { id := ⟨"finding-" ++ hex16 digest, isId_finding digest⟩
    generation := revision.value
    revision := revision
    digest := hex16 digest
    summary := s!"binding {binding.pointEquipment.text}:{binding.pointProperty.text} {binding.status.asStr} " ++
      s!"[{binding.unit.asStr}] rev {Nat.repr revision.value.toNat} actor {actorReference}"
    actorReference := actorReference }

theorem Finding.forBinding_nonempty (binding : ProposedBinding) (revision : BindingRevision) (actor : String) :
    (Finding.forBinding binding revision actor).digest ≠ "" ∧ (Finding.forBinding binding revision actor).summary ≠ "" := by
  constructor
  · intro hempty
    have hsize := congrArg String.utf8ByteSize hempty
    unfold Finding.forBinding at hsize
    simp only [utf8ByteSize_hex16] at hsize
    exact absurd hsize (by decide)
  · intro hempty
    have hsize := congrArg String.utf8ByteSize hempty
    have hfront : ("binding " : String).utf8ByteSize = 8 := by decide
    have hzero : ("" : String).utf8ByteSize = 0 := rfl
    have hstart : toString "binding " = "binding " := rfl
    unfold Finding.forBinding at hsize
    simp only [String.utf8ByteSize_append, hstart, hfront, hzero] at hsize
    omega

end Verdant.Binding
