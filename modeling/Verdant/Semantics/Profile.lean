import Verdant.Domain.Reading

/-!
# The pinned profile

The closed vocabulary of the offline conversion: which external classes it maps to which kind, and the unit and mode tokens
it admits.  Parsing keeps labels it does not know; the profile refuses them.
-/

namespace Verdant.Semantics

open TextCodec

def pinnedProfileId : String := "verdant-pinned-brick-223p-rec-v1"

def verdantNamespace : String := "verdant:v1"

/-- Closed converter vocabulary. -/
def supportedUnits : List String := ["degC", "percent", "Pa", "L/s"]

/-- Closed operating-mode vocabulary; applies only to mode values. -/
def supportedModes : List String := ["occupied", "unoccupied", "standby"]

def outOfScenarioReason : String :=
  "known Brick class but outside tiny_site scenario for this profile (v1 covers only AHU, VAV and SAT sensor)"

inductive VerdantKind where
  | ahu
  | vav
  | sensorSat
  deriving DecidableEq, Repr

def VerdantKind.asStr : VerdantKind → String
  | .ahu => "ahu"
  | .vav => "vav"
  | .sensorSat => "sensor-sat"

def VerdantKind.slotPrefix : VerdantKind → String
  | .ahu => "ahu-"
  | .vav => "vav-"
  | .sensorSat => "sensor-sat-"

/-- Classification of one external class. -/
inductive ClassDecision where
  | supported (kind : VerdantKind)
  | outOfScenario (reason : String)
  | unknown
  deriving DecidableEq

def unitIsUnknown : MeasureUnit → Bool
  | .unknown _ => true
  | .known _ => false

def modeIsUnknown : OpMode → Bool
  | .unknown _ => true
  | _ => false

/-- Profile handle; the source builds only the pinned one. -/
structure Profile where
  id : String

def Profile.pinned : Profile := ⟨pinnedProfileId⟩

/-- First inadmissible token. -/
def Profile.unsupportedToken (_ : Profile) (unit : MeasureUnit) (value : Value) : Option (String × String) :=
  if unitIsUnknown unit ∨ unit.asStr ∉ supportedUnits then some ("unit", unit.asStr)
  else match value with
    | .mode mode =>
      if modeIsUnknown mode ∨ mode.asStr ∉ supportedModes then some ("mode", mode.asStr) else none
    | _ => none

def Profile.classify (_ : Profile) (externalClass : String) : ClassDecision :=
  if externalClass = "brick:AHU" then .supported .ahu
  else if externalClass = "brick:VAV" then .supported .vav
  else if externalClass = "brick:Supply_Air_Temperature_Sensor" then .supported .sensorSat
  else if externalClass = "brick:Chiller" ∨ externalClass = "brick:Boiler" ∨ externalClass = "brick:Meter" then
    .outOfScenario outOfScenarioReason
  else .unknown

/-! ### Admitted tokens -/

/-- A known unit of the closed list. -/
def UnitAdmitted (unit : MeasureUnit) : Prop := unitIsUnknown unit = false ∧ unit.asStr ∈ supportedUnits

/-- A value that is no mode, or a known mode of the closed list. -/
def ModeAdmitted (value : Value) : Prop :=
  ∀ mode, value = .mode mode → modeIsUnknown mode = false ∧ mode.asStr ∈ supportedModes

theorem unsupportedToken_cases (profile : Profile) (unit : MeasureUnit) (value : Value) :
    (profile.unsupportedToken unit value = none ∧ UnitAdmitted unit ∧ ModeAdmitted value) ∨
      (profile.unsupportedToken unit value = some ("unit", unit.asStr) ∧ ¬ UnitAdmitted unit) ∨
        ∃ mode, value = .mode mode ∧ profile.unsupportedToken unit value = some ("mode", mode.asStr) ∧
          UnitAdmitted unit ∧ ¬ ModeAdmitted value := by
  unfold Profile.unsupportedToken
  by_cases hunit : unitIsUnknown unit ∨ unit.asStr ∉ supportedUnits
  · rw [if_pos hunit]
    refine .inr (.inl ⟨rfl, fun h => ?_⟩)
    rcases hunit with hunknown | houtside
    · rw [h.1] at hunknown
      exact Bool.false_ne_true hunknown
    · exact houtside h.2
  rw [if_neg hunit]
  have hadmitted : UnitAdmitted unit := by
    obtain ⟨hknown, hinside⟩ := not_or.1 hunit
    exact ⟨Bool.not_eq_true _ ▸ hknown, not_not.1 hinside⟩
  cases value with
  | mode mode =>
    simp only
    by_cases hmode : modeIsUnknown mode ∨ mode.asStr ∉ supportedModes
    · rw [if_pos hmode]
      refine .inr (.inr ⟨mode, rfl, rfl, hadmitted, fun h => ?_⟩)
      obtain ⟨hknown, hinside⟩ := h mode rfl
      rcases hmode with hunknown | houtside
      · rw [hknown] at hunknown
        exact Bool.false_ne_true hunknown
      · exact houtside hinside
    · rw [if_neg hmode]
      obtain ⟨hknown, hinside⟩ := not_or.1 hmode
      refine .inl ⟨rfl, hadmitted, ?_⟩
      rintro _ ⟨⟩
      exact ⟨Bool.not_eq_true _ ▸ hknown, not_not.1 hinside⟩
  | _ => exact .inl ⟨rfl, hadmitted, fun _ h => nomatch h⟩

end Verdant.Semantics
