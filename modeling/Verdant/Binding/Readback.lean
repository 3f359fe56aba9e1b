import Verdant.Binding.Ledger

/-!
# Proposals that read back

The descriptor of a proposal writes every text percent-encoded but the mode, whose text stands in it raw and whose absence
is a dash.  A binding reads back as it was written exactly when its mode text has no semicolon and no percent sign and is
not that dash (`ModeReads`); records, retirements and findings read back whatever their texts are.
-/

namespace Verdant.Binding

open TextCodec Storage Access

theorem OpMode.asStr_of_parse {raw : String} {mode : OpMode} (h : OpMode.parse raw = .ok mode) : mode.asStr = raw := by
  unfold OpMode.parse at h
  split at h
  · exact nomatch h
  split at h
  · exact nomatch h
  split at h
  · rename_i hraw
    cases h
    exact hraw.symm
  split at h
  · rename_i hraw
    cases h
    exact hraw.symm
  split at h
  · rename_i hraw
    cases h
    exact hraw.symm
  · cases h
    rfl

/-! ### Parsed parts -/

/-- The unit and the mode are what their parsers made of a text. -/
structure FromParts (binding : ProposedBinding) : Prop where
  unit : ∃ raw, MeasureUnit.parse raw = .ok binding.unit
  mode : ∀ mode ∈ binding.mode, ∃ raw, OpMode.parse raw = .ok mode

namespace FromParts

variable {binding : ProposedBinding} (h : FromParts binding)

include h

theorem unit_parse : MeasureUnit.parse binding.unit.asStr = .ok binding.unit := by
  obtain ⟨raw, hraw⟩ := h.unit
  rw [MeasureUnit.asStr_of_parse hraw]
  exact hraw

theorem mode_parse {mode : OpMode} (hmode : mode ∈ binding.mode) : OpMode.parse mode.asStr = .ok mode := by
  obtain ⟨raw, hraw⟩ := h.mode mode hmode
  rw [OpMode.asStr_of_parse hraw]
  exact hraw

end FromParts

theorem propose_fromParts {endpoint : EndpointAddress} {endpointClass expectedClass : EndpointClass}
    {endpointScope pointScope : TrustedScope} {pointEquipment source : InstalledId} {pointProperty : PropertyName}
    {expectedUnit unit : MeasureUnit} {mode : Option OpMode} {requested effective : BindingRole} {feedback : Feedback}
    {binding : ProposedBinding} (hunit : ∃ raw, MeasureUnit.parse raw = .ok unit)
    (hmode : ∀ m ∈ mode, ∃ raw, OpMode.parse raw = .ok m)
    (h : propose endpoint endpointClass endpointScope pointEquipment pointProperty pointScope source expectedUnit
      expectedClass unit mode requested effective feedback = .ok binding) : FromParts binding := by
  unfold propose at h
  obtain ⟨_, -, h⟩ := Result.bind_eq_ok.1 h
  cases h
  exact ⟨hunit, hmode⟩

theorem importBinding_fromParts {conversion : Conversion} {endpointAddress pointProperty sourceText : String}
    {endpointClass expectedClass : EndpointClass} {endpointScope pointScope : TrustedScope} {expectedUnit : MeasureUnit}
    {requested effective : BindingRole} {feedback : Feedback} {binding : ProposedBinding}
    (hunit : ∃ raw, MeasureUnit.parse raw = .ok conversion.unit)
    (hmode : ∀ m ∈ modeOf conversion.value, ∃ raw, OpMode.parse raw = .ok m)
    (h : importBinding conversion endpointAddress endpointClass endpointScope pointProperty pointScope sourceText
      expectedUnit expectedClass requested effective feedback = .ok binding) : FromParts binding := by
  rw [importBinding_eq] at h
  obtain ⟨endpoint, -, h⟩ := Result.bind_eq_ok.1 h
  obtain ⟨property, -, h⟩ := Result.bind_eq_ok.1 h
  obtain ⟨source, -, h⟩ := Result.bind_eq_ok.1 h
  obtain ⟨_, -, h⟩ := Result.bind_eq_ok.1 h
  cases h
  exact ⟨hunit, hmode⟩

/-! ### The mode -/

/-- A mode text that neither ends the field nor is changed by decoding, and is not the mark of an absent mode. -/
def ModeText (raw : String) : Prop := raw ≠ "-" ∧ ';' ∉ raw.toList ∧ '%' ∉ raw.toList

instance (raw : String) : Decidable (ModeText raw) := by
  unfold ModeText
  infer_instance

/-- The mode of the binding, if it has one, is written as it is read. -/
def ModeReads (binding : ProposedBinding) : Prop := ∀ mode ∈ binding.mode, ModeText mode.asStr

theorem decodeMode_of_modeReads {binding : ProposedBinding} (hparts : FromParts binding) (h : ModeReads binding) :
    ';' ∉ binding.modeText.toList ∧ '%' ∉ binding.modeText.toList ∧ decodeMode binding.modeText = .ok binding.mode := by
  cases hmode : binding.mode with
  | none =>
    have htext : binding.modeText = "-" := by
      unfold ProposedBinding.modeText
      rw [hmode]
      rfl
    rw [htext]
    exact ⟨by decide, by decide, rfl⟩
  | some mode =>
    have htext : binding.modeText = mode.asStr := by
      unfold ProposedBinding.modeText
      rw [hmode]
      rfl
    obtain ⟨hdash, hsemi, hpercent⟩ := h mode (by rw [hmode]; rfl)
    have hparse : OpMode.parse mode.asStr = .ok mode := hparts.mode_parse (by rw [hmode]; rfl)
    rw [htext]
    refine ⟨hsemi, hpercent, ?_⟩
    unfold decodeMode
    rw [if_neg hdash, hparse]
    rfl

/-- What a decoded mode field says of the text it was cut from. -/
theorem modeText_of_decode {mode : OpMode} {read : String} (hcut : pctDecode (cutValue mode.asStr) = .ok read)
    (hread : decodeMode read = .ok (some mode)) : ModeText mode.asStr := by
  unfold decodeMode at hread
  split at hread
  · exact nomatch hread
  rename_i hdash
  obtain ⟨m, hparse, hm⟩ := Result.bind_eq_ok.1 hread
  cases hm
  obtain rfl := OpMode.asStr_of_parse (Result.mapError_eq_ok.1 hparse)
  obtain ⟨hle, hlt⟩ := size_of_pctDecode hcut
  obtain ⟨hcle, hclt⟩ := size_cutValue mode.asStr
  -- an escape or a semicolon would have shortened the text
  have hsemi : ';' ∉ mode.asStr.toList := by
    intro hmem
    have := hclt hmem
    omega
  refine ⟨hdash, hsemi, fun hmem => ?_⟩
  rw [cutValue_of_not_mem hsemi] at hlt
  have := hlt hmem
  omega

theorem mode_of_decodePropose {map : Fields} {binding : ProposedBinding} {read : String}
    (h : decodePropose map = .ok binding) (hfield : field map "mode" = .ok read) :
    decodeMode read = .ok binding.mode := by
  unfold decodePropose at h
  simp only [hfield, Result.bind_eq_ok] at h
  obtain ⟨_, -, _, -, _, -, _, -, _, -, _, -, _, -, _, -, _, -, _, -, _, -, _, -, _, -, _, -, _, -, _, -, h⟩ := h
  obtain ⟨raw, hraw, mode, hmode, h⟩ := h
  cases hraw
  obtain ⟨_, -, _, -, _, -, _, -, _, -, _, -, _, -, _, -, h⟩ := h
  cases h
  exact hmode

/-- The descriptor of a proposal reads back as its binding exactly when the mode does. -/
theorem decodePropose_iff {binding : ProposedBinding} (hparts : FromParts binding) (operation : OperationId)
    (revision : BindingRevision) (actor : ActorContext) :
    (splitBinding (proposalText operation revision binding actor) >>= decodePropose) = .ok binding ↔
      ModeReads binding := by
  constructor
  · intro h mode hmode
    obtain ⟨map, hmap, hread⟩ := Result.bind_eq_ok.1 h
    have hsome : binding.mode = some mode := hmode
    have htext : binding.modeText = mode.asStr := by
      unfold ProposedBinding.modeText
      rw [hsome]
      rfl
    have hmem : ("mode", mode.asStr) ∈ proposalFields binding ++ proposalTail operation revision ++ actorFields actor := by
      rw [← htext]
      simp [proposalFields]
    obtain ⟨read, hcut, hlookup⟩ := lookup_cutValue (Result.mapError_eq_ok.1 hmap) hmem (by simp [IsKey])
    have hfield : field map "mode" = .ok read := by
      unfold field
      rw [requireField_of_lookup hlookup]
      rfl
    refine modeText_of_decode hcut ?_
    rw [← hsome]
    exact mode_of_decodePropose hread hfield
  · intro h
    obtain ⟨hsemi, hpercent, hmode⟩ := decodeMode_of_modeReads hparts h
    exact (readEntry_proposal hparts.unit_parse hsemi hpercent hmode operation revision actor).1

end Verdant.Binding
