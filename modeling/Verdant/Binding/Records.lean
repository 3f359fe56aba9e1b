import Verdant.Binding.Error

/-!
# Scoped records

Equipment, spaces, sources, points and endpoints.  A label is text and never identity; an address or a property is a token
whose characters are those of an identity, so a property may contain the colon that joins it to its equipment in the key
of its point.
-/

namespace Verdant.Binding

open TextCodec

/-- Maximum label length in bytes. -/
def maxLabelLen : Nat := 128

/-- Maximum endpoint-address and property length in bytes. -/
def maxTokenLen : Nat := 128

def validateToken (kind raw : String) : Except BindingError Unit :=
  if raw = "" then .error (.invalidInput kind "value must not be empty")
  else if maxTokenLen < raw.utf8ByteSize then
    .error (.invalidInput kind s!"value is {raw.utf8ByteSize} chars; maximum is {maxTokenLen}")
  else if raw.toList.all idChar then .ok ()
  else .error (.invalidInput kind s!"value has unsupported characters: '{raw}'")

theorem validateToken_eq_ok {kind raw : String} : validateToken kind raw = .ok () ↔ IsId raw := by
  unfold validateToken IsId maxTokenLen maxIdLen
  by_cases hempty : raw = ""
  · simp [hempty]
  by_cases hlen : 128 < raw.utf8ByteSize
  · have hlong : ¬ raw.utf8ByteSize ≤ 128 := by omega
    simp [hempty, hlen, hlong]
  · have hshort : raw.utf8ByteSize ≤ 128 := by omega
    by_cases hchars : raw.toList.all idChar = true
    · simp only [if_neg hempty, if_neg hlen, if_pos hchars]
      exact ⟨fun _ => ⟨hempty, hshort, hchars⟩, fun _ => trivial⟩
    · simp only [if_neg hempty, if_neg hlen, if_neg hchars]
      exact ⟨fun h => (nomatch h), fun h => absurd h.2.2 hchars⟩

def validateLabel (raw : String) : Except BindingError Unit :=
  if raw = "" then .error (.invalidInput "label" "label must not be empty")
  else if maxLabelLen < raw.utf8ByteSize then
    .error (.invalidInput "label" s!"label is {raw.utf8ByteSize} chars; maximum is {maxLabelLen}")
  else if '\x00' ∈ raw.toList then .error (.invalidInput "label" "label must not contain NUL")
  else .ok ()

/-! ### Kinds and classes -/

inductive EquipmentKind where
  | ahu
  | vav
  deriving DecidableEq, Repr

def EquipmentKind.parse (raw : String) : Except BindingError EquipmentKind :=
  if raw = "ahu" then .ok .ahu
  else if raw = "vav" then .ok .vav
  else .error (.invalidInput "equipment-kind" s!"unknown equipment kind '{raw}'; expected ahu/vav")

def EquipmentKind.asStr : EquipmentKind → String
  | .ahu => "ahu"
  | .vav => "vav"

@[simp]
theorem EquipmentKind.parse_asStr (kind : EquipmentKind) : EquipmentKind.parse kind.asStr = .ok kind := by
  cases kind <;> rfl

/-- Endpoint classification: service or location. -/
inductive EndpointClass where
  | service
  | location
  deriving DecidableEq, Repr

def EndpointClass.parse (raw : String) : Except BindingError EndpointClass :=
  if raw = "service" then .ok .service
  else if raw = "location" then .ok .location
  else .error (.invalidInput "endpoint-class" s!"unknown endpoint class '{raw}'; expected service/location")

def EndpointClass.asStr : EndpointClass → String
  | .service => "service"
  | .location => "location"

@[simp]
theorem EndpointClass.parse_asStr (eclass : EndpointClass) : EndpointClass.parse eclass.asStr = .ok eclass := by
  cases eclass <;> rfl

/-! ### Tokens -/

/-- Field-bus endpoint address. -/
structure EndpointAddress where
  text : String
  valid : IsId text

theorem EndpointAddress.ext_text {a b : EndpointAddress} (h : a.text = b.text) : a = b := by
  cases a
  cases b
  cases h
  rfl

instance : DecidableEq EndpointAddress := fun _ _ => decidable_of_iff _ ⟨EndpointAddress.ext_text, congrArg EndpointAddress.text⟩

/-- Property name. -/
structure PropertyName where
  text : String
  valid : IsId text

theorem PropertyName.ext_text {a b : PropertyName} (h : a.text = b.text) : a = b := by
  cases a
  cases b
  cases h
  rfl

instance : DecidableEq PropertyName := fun _ _ => decidable_of_iff _ ⟨PropertyName.ext_text, congrArg PropertyName.text⟩

/-- The shared shape of the token constructors. -/
def parseToken {α : Type} (kind raw : String) (make : (text : String) → IsId text → α) : Except BindingError α :=
  match h : validateToken kind raw with
  | .error e => .error e
  | .ok () => .ok (make raw (validateToken_eq_ok.1 h))

theorem parseToken_of_isId {α : Type} {kind raw : String} {make : (text : String) → IsId text → α} (h : IsId raw) :
    parseToken kind raw make = .ok (make raw h) := by
  unfold parseToken
  split
  · rename_i e he
    rw [validateToken_eq_ok.2 h] at he
    exact nomatch he
  · rfl

theorem parseToken_eq_ok {α : Type} {kind raw : String} {make : (text : String) → IsId text → α} {a : α}
    (h : parseToken kind raw make = .ok a) : ∃ hid : IsId raw, a = make raw hid := by
  unfold parseToken at h
  split at h
  · exact nomatch h
  · rename_i hok
    cases h
    exact ⟨validateToken_eq_ok.1 hok, rfl⟩

def EndpointAddress.parse (raw : String) : Except BindingError EndpointAddress := parseToken "endpoint-address" raw .mk
def PropertyName.parse (raw : String) : Except BindingError PropertyName := parseToken "property" raw .mk

@[simp]
theorem EndpointAddress.parse_text (address : EndpointAddress) : EndpointAddress.parse address.text = .ok address :=
  parseToken_of_isId address.valid

@[simp]
theorem PropertyName.parse_text (property : PropertyName) : PropertyName.parse property.text = .ok property :=
  parseToken_of_isId property.valid

/-- An installed identity from caller text, with the binding module's refusal. -/
def parseInstalled (what raw : String) : Except BindingError InstalledId :=
  (InstalledId.parse raw).mapError fun e => .invalidInput "installed-id" s!"invalid {what} id '{raw}': {e.display} [{e.code}]"

/-! ### Records -/

structure EquipmentRecord where
  id : InstalledId
  kind : EquipmentKind
  scope : TrustedScope
  label : String
  address : EndpointAddress
  deriving DecidableEq

def EquipmentRecord.parse (id : String) (kind : EquipmentKind) (scope : TrustedScope) (label address : String) :
    Except BindingError EquipmentRecord := do
  let id ← parseInstalled "installed" id
  validateLabel label
  let address ← EndpointAddress.parse address
  .ok ⟨id, kind, scope, label, address⟩

structure SpaceRecord where
  id : InstalledId
  scope : TrustedScope
  label : String
  deriving DecidableEq

def SpaceRecord.parse (id : String) (scope : TrustedScope) (label : String) : Except BindingError SpaceRecord := do
  let id ← parseInstalled "installed" id
  validateLabel label
  .ok ⟨id, scope, label⟩

/-- One source may back several bindings; sharing never merges identities. -/
structure SourceRecord where
  id : InstalledId
  scope : TrustedScope
  label : String
  deriving DecidableEq

def SourceRecord.parse (id : String) (scope : TrustedScope) (label : String) : Except BindingError SourceRecord := do
  let id ← parseInstalled "installed" id
  validateLabel label
  .ok ⟨id, scope, label⟩

/-- Property point on installed equipment: the bindable target. -/
structure PointRecord where
  equipment : InstalledId
  property : PropertyName
  scope : TrustedScope
  unit : MeasureUnit
  endpointClass : EndpointClass
  deriving DecidableEq

def PointRecord.parse (equipment property : String) (scope : TrustedScope) (unitText : String)
    (endpointClass : EndpointClass) : Except BindingError PointRecord := do
  let equipment ← parseInstalled "installed" equipment
  let property ← PropertyName.parse property
  let unit ← (MeasureUnit.parse unitText).mapError fun e =>
    .invalidInput "unit" s!"invalid unit '{unitText}': {e.display} [{e.code}]"
  .ok ⟨equipment, property, scope, unit, endpointClass⟩

/-- The key a point is stored under: equipment and property joined by a colon. -/
def pointKey (equipment property : String) : String := equipment ++ ":" ++ property

/-! ### What the constructors accept -/

theorem InstalledId.text_of_parse {raw : String} {id : InstalledId} (h : InstalledId.parse raw = .ok id) :
    id.text = raw := by
  unfold InstalledId.parse parseId at h
  split at h
  · exact nomatch h
  · cases h
    rfl

theorem parseInstalled_text (what : String) (id : InstalledId) : parseInstalled what id.text = .ok id := by
  unfold parseInstalled
  have hparse : InstalledId.parse id.text = .ok id := parseId_of_isId id.valid
  rw [hparse]
  rfl

theorem text_of_parseInstalled {what raw : String} {id : InstalledId} (h : parseInstalled what raw = .ok id) :
    id.text = raw := InstalledId.text_of_parse (Result.mapError_eq_ok.1 h)

theorem EquipmentRecord.parse_eq_ok {id label address : String} {kind : EquipmentKind} {scope : TrustedScope}
    {record : EquipmentRecord} (h : EquipmentRecord.parse id kind scope label address = .ok record) :
    record.id.text = id ∧ EquipmentRecord.parse record.id.text record.kind record.scope record.label record.address.text =
      .ok record := by
  unfold EquipmentRecord.parse at h
  obtain ⟨id', hid, h⟩ := Result.bind_eq_ok.1 h
  obtain ⟨_, hlabel, h⟩ := Result.bind_eq_ok.1 h
  obtain ⟨address', -, h⟩ := Result.bind_eq_ok.1 h
  cases h
  refine ⟨text_of_parseInstalled hid, ?_⟩
  unfold EquipmentRecord.parse
  simp only [parseInstalled_text, hlabel, EndpointAddress.parse_text, Result.ok_bind]

theorem SpaceRecord.parse_eq_ok {id label : String} {scope : TrustedScope} {record : SpaceRecord}
    (h : SpaceRecord.parse id scope label = .ok record) :
    record.id.text = id ∧ SpaceRecord.parse record.id.text record.scope record.label = .ok record := by
  unfold SpaceRecord.parse at h
  obtain ⟨id', hid, h⟩ := Result.bind_eq_ok.1 h
  obtain ⟨_, hlabel, h⟩ := Result.bind_eq_ok.1 h
  cases h
  refine ⟨text_of_parseInstalled hid, ?_⟩
  unfold SpaceRecord.parse
  simp only [parseInstalled_text, hlabel, Result.ok_bind]

theorem SourceRecord.parse_eq_ok {id label : String} {scope : TrustedScope} {record : SourceRecord}
    (h : SourceRecord.parse id scope label = .ok record) :
    record.id.text = id ∧ SourceRecord.parse record.id.text record.scope record.label = .ok record := by
  unfold SourceRecord.parse at h
  obtain ⟨id', hid, h⟩ := Result.bind_eq_ok.1 h
  obtain ⟨_, hlabel, h⟩ := Result.bind_eq_ok.1 h
  cases h
  refine ⟨text_of_parseInstalled hid, ?_⟩
  unfold SourceRecord.parse
  simp only [parseInstalled_text, hlabel, Result.ok_bind]

theorem MeasureUnit.asStr_of_parse {raw : String} {unit : MeasureUnit} (h : MeasureUnit.parse raw = .ok unit) :
    unit.asStr = raw := by
  unfold MeasureUnit.parse at h
  split at h
  · exact nomatch h
  split at h
  · exact nomatch h
  split at h
  · rename_i known hknown
    cases h
    unfold KnownUnit.parse at hknown
    split at hknown
    · rename_i hraw
      cases hknown
      exact hraw.symm
    split at hknown
    · rename_i hraw
      cases hknown
      exact hraw.symm
    split at hknown
    · rename_i hraw
      cases hknown
      exact hraw.symm
    split at hknown
    · rename_i hraw
      cases hknown
      exact hraw.symm
    · exact nomatch hknown
  · cases h
    rfl

theorem PointRecord.parse_eq_ok {equipment property unitText : String} {scope : TrustedScope} {eclass : EndpointClass}
    {record : PointRecord} (h : PointRecord.parse equipment property scope unitText eclass = .ok record) :
    record.equipment.text = equipment ∧ record.property.text = property ∧
      PointRecord.parse record.equipment.text record.property.text record.scope record.unit.asStr record.endpointClass =
        .ok record := by
  unfold PointRecord.parse at h
  obtain ⟨equipment', hequipment, h⟩ := Result.bind_eq_ok.1 h
  obtain ⟨property', hproperty, h⟩ := Result.bind_eq_ok.1 h
  obtain ⟨unit', hunit, h⟩ := Result.bind_eq_ok.1 h
  cases h
  have hparse := Result.mapError_eq_ok.1 hunit
  have htext := MeasureUnit.asStr_of_parse hparse
  obtain ⟨hid, rfl⟩ := parseToken_eq_ok hproperty
  have hself : PropertyName.parse property = .ok ⟨property, hid⟩ := parseToken_of_isId hid
  refine ⟨text_of_parseInstalled hequipment, rfl, ?_⟩
  unfold PointRecord.parse
  simp only [parseInstalled_text, hself, htext, hparse, Except.mapError, Result.ok_bind]

end Verdant.Binding
