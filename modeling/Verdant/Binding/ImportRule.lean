import Verdant.Binding.Registry

/-!
# Imports against proposals

An import parses its endpoint, property and source, and then follows `propose` on what it parsed: it binds the same fields
under another status, and it is refused where the proposal is, in the same words but for those of an ambiguous feedback.
What either binds against a stored point of equipment in service resolves against that point.
-/

namespace Verdant.Binding

/-- The refusal of an import for the refusal of a proposal: an ambiguous feedback names what it stands before. -/
def importRefusal : BindingError → BindingError
  | .ambiguousFeedback _ => .ambiguousFeedback "feedback lists more than one role; disambiguate before importing"
  | e => e

/-- The outcome of an import for the outcome of a proposal. -/
def imported (proposed : Except BindingError ProposedBinding) : Except BindingError ProposedBinding :=
  (proposed.map fun binding => { binding with status := .imported }).mapError importRefusal

section Checks

variable {endpointScope pointScope : TrustedScope} {endpointClass expectedClass : EndpointClass}
  {unit expectedUnit : MeasureUnit} {requested effective : BindingRole} {feedback : Feedback}

/-- The five conditions of a binding. -/
structure WellShaped (endpointScope pointScope : TrustedScope) (endpointClass expectedClass : EndpointClass)
    (unit expectedUnit : MeasureUnit) (requested effective : BindingRole) (feedback : Feedback) : Prop where
  scope : endpointScope.text = pointScope.text
  endpointClass : endpointClass = expectedClass
  unit : unit.asStr = expectedUnit.asStr
  role : requested = effective
  feedback : feedback ≠ .ambiguous

theorem checkShape_iff {doing : String} :
    checkShape doing endpointScope pointScope endpointClass expectedClass unit expectedUnit requested effective feedback =
      .ok () ↔
      WellShaped endpointScope pointScope endpointClass expectedClass unit expectedUnit requested effective feedback := by
  unfold checkShape
  constructor
  · intro h
    obtain ⟨hscope, h⟩ := Result.ite_error_eq_ok.1 h
    obtain ⟨hclass, h⟩ := Result.ite_error_eq_ok.1 h
    obtain ⟨hunit, h⟩ := Result.ite_error_eq_ok.1 h
    obtain ⟨hrole, h⟩ := Result.ite_error_eq_ok.1 h
    obtain ⟨hfeedback, -⟩ := Result.ite_error_eq_ok.1 h
    exact ⟨not_not.1 hscope, not_not.1 hclass, not_not.1 hunit, not_not.1 hrole, hfeedback⟩
  · rintro ⟨hscope, hclass, hunit, hrole, hfeedback⟩
    rw [if_neg (not_not.2 hscope), if_neg (not_not.2 hclass), if_neg (not_not.2 hunit), if_neg (not_not.2 hrole),
      if_neg hfeedback]

/-- The checks before an import refuse what the checks before a proposal refuse. -/
theorem checkShape_importing :
    checkShape "importing" endpointScope pointScope endpointClass expectedClass unit expectedUnit requested effective
      feedback = (checkShape "proposing" endpointScope pointScope endpointClass expectedClass unit expectedUnit requested
        effective feedback).mapError importRefusal := by
  unfold checkShape
  split_ifs <;> rfl

end Checks

section Import

variable {conversion : Conversion} {endpointAddress pointProperty sourceText : String}
  {endpointClass expectedClass : EndpointClass} {endpointScope pointScope : TrustedScope} {expectedUnit : MeasureUnit}
  {requested effective : BindingRole} {feedback : Feedback}

/-- On what it parses an import follows the proposal. -/
theorem importBinding_of_parsed {endpoint : EndpointAddress} {property : PropertyName} {source : InstalledId}
    (hendpoint : EndpointAddress.parse endpointAddress = .ok endpoint)
    (hproperty : PropertyName.parse pointProperty = .ok property) (hsource : parseInstalled "source" sourceText = .ok source) :
    importBinding conversion endpointAddress endpointClass endpointScope pointProperty pointScope sourceText expectedUnit
      expectedClass requested effective feedback =
        imported (propose endpoint endpointClass endpointScope conversion.verdantId property pointScope source expectedUnit
          expectedClass conversion.unit (modeOf conversion.value) requested effective feedback) := by
  rw [importBinding_eq, hendpoint, hproperty, hsource]
  simp only [Result.ok_bind]
  rw [checkShape_importing]
  unfold propose
  cases checkShape "proposing" endpointScope pointScope endpointClass expectedClass conversion.unit expectedUnit requested
    effective feedback <;> rfl

/-- Nothing is imported from texts that do not parse. -/
theorem parsed_of_importBinding {binding : ProposedBinding}
    (h : importBinding conversion endpointAddress endpointClass endpointScope pointProperty pointScope sourceText
      expectedUnit expectedClass requested effective feedback = .ok binding) :
    ∃ endpoint property source, EndpointAddress.parse endpointAddress = .ok endpoint ∧
      PropertyName.parse pointProperty = .ok property ∧ parseInstalled "source" sourceText = .ok source := by
  rw [importBinding_eq] at h
  obtain ⟨endpoint, hendpoint, h⟩ := Result.bind_eq_ok.1 h
  obtain ⟨property, hproperty, h⟩ := Result.bind_eq_ok.1 h
  obtain ⟨source, hsource, -⟩ := Result.bind_eq_ok.1 h
  exact ⟨endpoint, property, source, hendpoint, hproperty, hsource⟩

end Import

/-! ### Resolving -/

/-- The point is stored under the key of the binding, and its equipment is in service: neither retired nor awaiting a fresh
qualification. -/
structure InService (registry : BindingRegistry) (point : PointRecord) (equipment : InstalledId) (property : PropertyName) :
    Prop where
  stored : registry.memory.points (pointKey equipment.text property.text) = some point
  active : equipment.text ∉ registry.memory.retired
  qualified : equipment.text ∉ registry.memory.reassessment

/-- A binding that satisfies the conditions of its point resolves against it. -/
theorem resolve_of_wellShaped {registry : BindingRegistry} {point : PointRecord} {binding : ProposedBinding}
    (hpoint : InService registry point binding.pointEquipment binding.pointProperty) (hscope : binding.pointScope = point.scope)
    (hstatus : binding.status ≠ .observedQualified)
    (hshape : WellShaped binding.endpointScope point.scope binding.endpointClass point.endpointClass binding.unit point.unit
      binding.requested binding.effective binding.feedback) : registry.resolve binding = .ok () := by
  have hproposed : propose binding.endpoint binding.endpointClass binding.endpointScope binding.pointEquipment
      binding.pointProperty point.scope binding.source point.unit point.endpointClass binding.unit binding.mode
      binding.requested binding.effective binding.feedback =
        .ok { binding with pointScope := point.scope, status := .valid } := by
    unfold propose
    rw [checkShape_iff.2 hshape]
    rfl
  unfold BindingRegistry.resolve
  rw [if_neg hpoint.active, if_neg hpoint.qualified, hpoint.stored]
  simp only
  rw [if_neg (not_not.2 hscope), if_neg hstatus, hproposed]
  rfl

/-- What is proposed against a stored point resolves against it, and so does what is imported. -/
theorem resolve_of_propose {endpoint : EndpointAddress} {endpointClass : EndpointClass} {endpointScope : TrustedScope}
    {equipment : InstalledId} {property : PropertyName} {source : InstalledId} {point : PointRecord} {unit : MeasureUnit}
    {mode : Option OpMode} {requested effective : BindingRole} {feedback : Feedback} {registry : BindingRegistry}
    (hpoint : InService registry point equipment property) {binding : ProposedBinding}
    (h : propose endpoint endpointClass endpointScope equipment property point.scope source point.unit point.endpointClass
      unit mode requested effective feedback = .ok binding) :
    registry.resolve binding = .ok () ∧ registry.resolve { binding with status := .imported } = .ok () := by
  unfold propose at h
  obtain ⟨_, hcheck, h⟩ := Result.bind_eq_ok.1 h
  cases h
  have hshape := checkShape_iff.1 hcheck
  constructor
  · exact resolve_of_wellShaped hpoint rfl (fun hbad => nomatch hbad) hshape
  · exact resolve_of_wellShaped hpoint rfl (fun hbad => nomatch hbad) hshape

/-- Import follows the proposal on the parsed texts, and what either binds against a stored point resolves against it while
its equipment is in service. -/
theorem one_structural_rule :
    (∀ conversion endpointAddress endpointClass endpointScope pointProperty pointScope sourceText expectedUnit
      expectedClass requested effective feedback,
      (∀ endpoint property source, EndpointAddress.parse endpointAddress = .ok endpoint →
        PropertyName.parse pointProperty = .ok property → parseInstalled "source" sourceText = .ok source →
        importBinding conversion endpointAddress endpointClass endpointScope pointProperty pointScope sourceText
          expectedUnit expectedClass requested effective feedback =
            imported (propose endpoint endpointClass endpointScope conversion.verdantId property pointScope source
              expectedUnit expectedClass conversion.unit (modeOf conversion.value) requested effective feedback)) ∧
      ∀ binding, importBinding conversion endpointAddress endpointClass endpointScope pointProperty pointScope sourceText
          expectedUnit expectedClass requested effective feedback = .ok binding →
        ∃ endpoint property source, EndpointAddress.parse endpointAddress = .ok endpoint ∧
          PropertyName.parse pointProperty = .ok property ∧ parseInstalled "source" sourceText = .ok source) ∧
    (∀ registry point equipment property, InService registry point equipment property →
      ∀ endpoint endpointClass endpointScope source unit mode requested effective feedback binding,
        propose endpoint endpointClass endpointScope equipment property point.scope source point.unit point.endpointClass
          unit mode requested effective feedback = .ok binding → registry.resolve binding = .ok ()) ∧
    ∀ registry point (conversion : Conversion) property, InService registry point conversion.verdantId property →
      ∀ endpointAddress endpointClass endpointScope sourceText requested effective feedback binding,
        importBinding conversion endpointAddress endpointClass endpointScope property.text point.scope sourceText
          point.unit point.endpointClass requested effective feedback = .ok binding → registry.resolve binding = .ok () := by
  refine ⟨?_, ?_, ?_⟩
  · intro conversion endpointAddress endpointClass endpointScope pointProperty pointScope sourceText expectedUnit
      expectedClass requested effective feedback
    exact ⟨fun endpoint property source => importBinding_of_parsed, fun binding => parsed_of_importBinding⟩
  · intro registry point equipment property hpoint endpoint endpointClass endpointScope source unit mode requested effective
      feedback binding h
    exact (resolve_of_propose hpoint h).1
  · intro registry point conversion property hpoint endpointAddress endpointClass endpointScope sourceText requested
      effective feedback binding h
    obtain ⟨endpoint, property', source, hendpoint, hproperty, hsource⟩ := parsed_of_importBinding h
    obtain rfl : property = property' := Except.ok.inj ((PropertyName.parse_text property).symm.trans hproperty)
    rw [importBinding_of_parsed hendpoint hproperty hsource] at h
    -- what was imported was proposed
    cases hproposed : propose endpoint endpointClass endpointScope conversion.verdantId property point.scope source
        point.unit point.endpointClass conversion.unit (modeOf conversion.value) requested effective feedback with
    | error e =>
      rw [hproposed] at h
      exact nomatch h
    | ok proposed =>
      rw [hproposed] at h
      cases h
      exact (resolve_of_propose hpoint hproposed).2

/-! ### A replaced unit -/

namespace ReplacedUnit

theorem address_valid : IsId "unit-7" := by decide
theorem scope_valid : IsId "scope-a" := by decide
theorem unit_valid : IsId "ahu-1" := by decide
theorem property_valid : IsId "supply-temp" := by decide

def address : EndpointAddress := ⟨"unit-7", address_valid⟩
def scope : TrustedScope := ⟨"scope-a", scope_valid⟩
def oldUnit : EquipmentRecord := ⟨⟨"ahu-0", by decide⟩, .ahu, scope, "Old", address⟩
def newUnit : EquipmentRecord := ⟨⟨"ahu-1", unit_valid⟩, .ahu, scope, "New", address⟩

def point : PointRecord where
  equipment := newUnit.id
  property := ⟨"supply-temp", property_valid⟩
  scope := scope
  unit := .known .degC
  endpointClass := .service

/-- The registry of these rows. -/
def registry (events : List Event) : BindingRegistry :=
  ⟨⟨"main", .tiny⟩, events.foldl Memory.replay .empty, events.length, countBindings events.length⟩

/-- A unit on an address nobody had before. -/
def fresh : BindingRegistry := registry [.equipment newUnit, .point point]

/-- The unit takes the address of one that was retired. -/
def replaced : BindingRegistry :=
  registry [.equipment oldUnit, .retire oldUnit.id.text address.text, .equipment newUnit, .point point]

def conversion : Conversion := ⟨newUnit.id, .known .degC, .mode .occupied⟩

def importWith (feedback : Feedback) : Except BindingError ProposedBinding :=
  importBinding conversion "unit-7" .service scope "supply-temp" scope "source-1" point.unit point.endpointClass .sense
    .sense feedback

def proposeWith (feedback : Feedback) : Except BindingError ProposedBinding :=
  propose address .service scope newUnit.id point.property scope ⟨"source-1", by decide⟩ point.unit point.endpointClass
    conversion.unit (modeOf conversion.value) .sense .sense feedback

end ReplacedUnit

/-- The rule at a unit in service: its import resolves. -/
theorem fresh_unit_resolves : ∃ binding, ReplacedUnit.importWith .absent = .ok binding ∧
    ReplacedUnit.fresh.resolve binding = .ok () := by
  have himport : ∃ binding, ReplacedUnit.importWith .absent = .ok binding := ⟨_, rfl⟩
  obtain ⟨binding, hbinding⟩ := himport
  refine ⟨binding, hbinding, ?_⟩
  exact one_structural_rule.2.2 ReplacedUnit.fresh ReplacedUnit.point ReplacedUnit.conversion ReplacedUnit.point.property
    ⟨rfl, by decide, by decide⟩ _ _ _ _ _ _ _ _ hbinding

/-- An ambiguous feedback is refused in other words by the import, and a proposal against the point of a replaced unit does
not resolve against it. -/
theorem import_differs :
    (∃ e e', ReplacedUnit.proposeWith .ambiguous = .error e ∧ ReplacedUnit.importWith .ambiguous = .error e' ∧ e ≠ e') ∧
      ∃ binding e, ReplacedUnit.proposeWith .absent = .ok binding ∧
        ReplacedUnit.replaced.memory.points (pointKey "ahu-1" "supply-temp") = some ReplacedUnit.point ∧
        "ahu-1" ∉ ReplacedUnit.replaced.memory.retired ∧ ReplacedUnit.replaced.resolve binding = .error e := by
  refine ⟨⟨_, _, rfl, rfl, by decide⟩, _, _, rfl, rfl, by decide, rfl⟩

end Verdant.Binding
