import Verdant.Binding.Readback
import Verdant.Library.Cuts

/-!
# Canonical bytes

What the canonical bytes of a binding say of it.  Every part but the unit and the mode is a token or a word without the
separator, so equal bytes mean equal bindings there, and one text of the unit and the mode together
(`canonicalBytes_eq_iff`).  A binding is the only one with its bytes exactly when it has a mode that is not written as the
absent one and the text of its unit and mode has one reading (`onlyReading_iff`); it is decoded from its bytes exactly when
neither text holds the separator and the mode is not that dash (`decodeCanonical_iff`).
-/

namespace Verdant.Binding

open TextCodec Storage

/-! ### Labels -/

/-- The texts a unit or a mode is parsed from. -/
def IsLabel (raw : String) : Prop := raw ≠ "" ∧ raw.utf8ByteSize ≤ 128

instance (raw : String) : Decidable (IsLabel raw) := by
  unfold IsLabel
  infer_instance

theorem isLabel_of_parse_unit {raw : String} {unit : MeasureUnit} (h : MeasureUnit.parse raw = .ok unit) :
    IsLabel raw := by
  unfold MeasureUnit.parse at h
  obtain ⟨hempty, h⟩ := Result.ite_error_eq_ok.1 h
  obtain ⟨hlong, -⟩ := Result.ite_error_eq_ok.1 h
  exact ⟨hempty, Nat.le_of_not_lt hlong⟩

theorem isLabel_of_parse_mode {raw : String} {mode : OpMode} (h : OpMode.parse raw = .ok mode) : IsLabel raw := by
  unfold OpMode.parse at h
  obtain ⟨hempty, h⟩ := Result.ite_error_eq_ok.1 h
  obtain ⟨hlong, -⟩ := Result.ite_error_eq_ok.1 h
  exact ⟨hempty, Nat.le_of_not_lt hlong⟩

theorem exists_unit {raw : String} (h : IsLabel raw) : ∃ unit, MeasureUnit.parse raw = .ok unit ∧ unit.asStr = raw := by
  have hparse : ∃ unit, MeasureUnit.parse raw = .ok unit := by
    unfold MeasureUnit.parse
    rw [if_neg h.1, if_neg (Nat.not_lt.2 h.2)]
    cases KnownUnit.parse raw with
    | none => exact ⟨_, rfl⟩
    | some known => exact ⟨_, rfl⟩
  obtain ⟨unit, hunit⟩ := hparse
  exact ⟨unit, hunit, MeasureUnit.asStr_of_parse hunit⟩

theorem exists_mode {raw : String} (h : IsLabel raw) : ∃ mode, OpMode.parse raw = .ok mode ∧ mode.asStr = raw := by
  have hparse : ∃ mode, OpMode.parse raw = .ok mode := by
    unfold OpMode.parse
    rw [if_neg h.1, if_neg (Nat.not_lt.2 h.2)]
    split
    · exact ⟨_, rfl⟩
    split
    · exact ⟨_, rfl⟩
    split
    · exact ⟨_, rfl⟩
    · exact ⟨_, rfl⟩
  obtain ⟨mode, hmode⟩ := hparse
  exact ⟨mode, hmode, OpMode.asStr_of_parse hmode⟩

/-! ### Words without the separator -/

/-- The separator of the canonical bytes. -/
def unitSep : Char := '\x1f'

theorem no_sep_of_isId {raw : String} (h : IsId raw) : unitSep ∉ raw.toList := by
  intro hc
  have hchar := List.all_eq_true.1 h.2.2 _ hc
  exact absurd hchar (by decide)

/-- Two tokens in front of a separator are told apart by it. -/
theorem append_id_inj {a b : String} {x y : List Char} (ha : IsId a) (hb : IsId b)
    (h : a.toList ++ unitSep :: x = b.toList ++ unitSep :: y) : a = b ∧ x = y := by
  obtain ⟨hab, hxy⟩ := append_cons_inj (no_sep_of_isId ha) (no_sep_of_isId hb) h
  exact ⟨String.toList_injective hab, hxy⟩

theorem EndpointClass.no_sep (eclass : EndpointClass) : unitSep ∉ eclass.asStr.toList := by cases eclass <;> decide

theorem BindingRole.no_sep (role : BindingRole) : unitSep ∉ role.asStr.toList := by cases role <;> decide

theorem Feedback.no_sep (feedback : Feedback) : unitSep ∉ feedback.asStr.toList := by
  cases feedback with
  | absent => decide
  | single role => exact role.no_sep
  | ambiguous => decide

theorem BindingStatus.no_sep (status : BindingStatus) : unitSep ∉ status.asStr.toList := by cases status <;> decide

theorem EndpointClass.asStr_injective : Function.Injective EndpointClass.asStr := by
  intro a b h
  have hparse := EndpointClass.parse_asStr a
  rw [h, EndpointClass.parse_asStr] at hparse
  exact (Except.ok.inj hparse).symm

theorem BindingRole.asStr_injective : Function.Injective BindingRole.asStr := by
  intro a b h
  have hparse := BindingRole.parse_asStr a
  rw [h, BindingRole.parse_asStr] at hparse
  exact (Except.ok.inj hparse).symm

theorem Feedback.asStr_injective : Function.Injective Feedback.asStr := by
  intro a b h
  have hparse := Feedback.parse_asStr a
  rw [h, Feedback.parse_asStr] at hparse
  exact (Except.ok.inj hparse).symm

theorem BindingStatus.asStr_injective : Function.Injective BindingStatus.asStr := by
  intro a b h
  have hparse := BindingStatus.parse_asStr a
  rw [h, BindingStatus.parse_asStr] at hparse
  exact (Except.ok.inj hparse).symm

/-! ### Equal bytes -/

/-- The unit and the mode, as the canonical bytes hold them. -/
def ProposedBinding.labels (binding : ProposedBinding) : String := joinTwo unitSep binding.unit.asStr binding.modeText

/-- The canonical bytes around the labels. -/
theorem toList_canonicalBytes (b : ProposedBinding) : b.canonicalBytes.toList =
    "binding-canonical-v2".toList ++ unitSep :: (b.endpoint.text.toList ++ unitSep :: (b.endpointClass.asStr.toList ++
      unitSep :: (b.endpointScope.text.toList ++ unitSep :: (b.pointEquipment.text.toList ++ unitSep ::
        (b.pointProperty.text.toList ++ unitSep :: (b.pointScope.text.toList ++ unitSep :: (b.source.text.toList ++
          unitSep :: ((((b.labels.toList ++ unitSep :: b.requested.asStr.toList) ++ unitSep :: b.effective.asStr.toList) ++
            unitSep :: b.feedback.asStr.toList) ++ unitSep :: b.status.asStr.toList)))))))) := by
  unfold ProposedBinding.canonicalBytes ProposedBinding.labels joinText
  rw [String.toList_ofList, toList_joinTwo]
  simp only [List.map_cons, List.map_nil, List.intercalate_cons_cons, List.intercalate_singleton, List.append_assoc,
    List.cons_append, List.nil_append]
  rfl

/-- Equal bytes are equal bindings but for the unit and the mode, which are one text. -/
theorem canonicalBytes_eq_iff {a b : ProposedBinding} :
    a.canonicalBytes = b.canonicalBytes ↔ b = { a with unit := b.unit, mode := b.mode } ∧ a.labels = b.labels := by
  constructor
  · intro h
    have hlist := congrArg String.toList h
    rw [toList_canonicalBytes, toList_canonicalBytes] at hlist
    obtain ⟨-, hlist⟩ := append_cons_inj (by decide) (by decide) hlist
    obtain ⟨hendpoint, hlist⟩ := append_id_inj a.endpoint.valid b.endpoint.valid hlist
    obtain ⟨hclass, hlist⟩ := append_cons_inj a.endpointClass.no_sep b.endpointClass.no_sep hlist
    obtain ⟨hescope, hlist⟩ := append_id_inj a.endpointScope.valid b.endpointScope.valid hlist
    obtain ⟨hequipment, hlist⟩ := append_id_inj a.pointEquipment.valid b.pointEquipment.valid hlist
    obtain ⟨hproperty, hlist⟩ := append_id_inj a.pointProperty.valid b.pointProperty.valid hlist
    obtain ⟨hpscope, hlist⟩ := append_id_inj a.pointScope.valid b.pointScope.valid hlist
    obtain ⟨hsource, hlist⟩ := append_id_inj a.source.valid b.source.valid hlist
    obtain ⟨hlist, hstatus⟩ := append_cons_inj_right a.status.no_sep b.status.no_sep hlist
    obtain ⟨hlist, hfeedback⟩ := append_cons_inj_right a.feedback.no_sep b.feedback.no_sep hlist
    obtain ⟨hlist, heffective⟩ := append_cons_inj_right a.effective.no_sep b.effective.no_sep hlist
    obtain ⟨hlabels, hrequested⟩ := append_cons_inj_right a.requested.no_sep b.requested.no_sep hlist
    refine ⟨?_, String.toList_injective hlabels⟩
    obtain ⟨⟨endpoint, _⟩, eclass, escope, equipment, ⟨property, _⟩, pscope, source, _, _, requested, effective, feedback,
      status⟩ := a
    obtain ⟨⟨endpoint', _⟩, eclass', escope', equipment', ⟨property', _⟩, pscope', source', _, _, requested', effective',
      feedback', status'⟩ := b
    cases hendpoint
    cases EndpointClass.asStr_injective (String.toList_injective hclass)
    cases TrustedScope.ext_text hescope
    cases InstalledId.ext_text hequipment
    cases hproperty
    cases TrustedScope.ext_text hpscope
    cases InstalledId.ext_text hsource
    cases BindingRole.asStr_injective (String.toList_injective hrequested)
    cases BindingRole.asStr_injective (String.toList_injective heffective)
    cases Feedback.asStr_injective (String.toList_injective hfeedback)
    cases BindingStatus.asStr_injective (String.toList_injective hstatus)
    rfl
  · rintro ⟨hb, hlabels⟩
    apply String.toList_injective
    rw [toList_canonicalBytes, toList_canonicalBytes, hlabels, hb]

/-! ### One meaning -/

/-- The bytes of the binding are those of no other binding made of parsed parts. -/
def OnlyReading (b : ProposedBinding) : Prop :=
  ∀ other : ProposedBinding, FromParts other → other.canonicalBytes = b.canonicalBytes → other = b

/-- The binding has a mode, which is not written as the absent one, and no other separator cuts its labels into a unit and
a mode. -/
structure OneMeaning (b : ProposedBinding) : Prop where
  marked : ∃ mode ∈ b.mode, mode.asStr ≠ "-"
  cut : SoleCut unitSep IsLabel IsLabel b.unit.asStr b.modeText

theorem modeText_some {b : ProposedBinding} {mode : OpMode} (h : b.mode = some mode) : b.modeText = mode.asStr := by
  unfold ProposedBinding.modeText
  rw [h]
  rfl

theorem modeText_none {b : ProposedBinding} (h : b.mode = none) : b.modeText = "-" := by
  unfold ProposedBinding.modeText
  rw [h]
  rfl

theorem isLabel_modeText {b : ProposedBinding} (hparts : FromParts b) : IsLabel b.modeText := by
  cases hmode : b.mode with
  | none =>
    rw [modeText_none hmode]
    decide
  | some mode =>
    rw [modeText_some hmode]
    exact isLabel_of_parse_mode (hparts.mode_parse hmode)

/-- The binding with other labels. -/
theorem exists_labels (b : ProposedBinding) {unitText mode : String} (hunit : IsLabel unitText) (hmode : IsLabel mode) :
    ∃ other : ProposedBinding, FromParts other ∧ other.unit.asStr = unitText ∧ (∃ m ∈ other.mode, m.asStr = mode) ∧
      b = { other with unit := b.unit, mode := b.mode } := by
  obtain ⟨u, hu, hutext⟩ := exists_unit hunit
  obtain ⟨m, hm, hmtext⟩ := exists_mode hmode
  refine ⟨{ b with unit := u, mode := some m }, ⟨⟨_, hu⟩, ?_⟩, hutext, ⟨m, rfl, hmtext⟩, rfl⟩
  rintro m' ⟨⟩
  exact ⟨_, hm⟩

theorem onlyReading_iff {b : ProposedBinding} (hparts : FromParts b) : OnlyReading b ↔ OneMeaning b := by
  have hunit : IsLabel b.unit.asStr := isLabel_of_parse_unit hparts.unit_parse
  constructor
  · intro h
    refine ⟨?_, soleCut_iff.2 fun c d hc hd hjoin => ?_⟩
    · cases hmode : b.mode with
      | none =>
        -- a binding whose mode is a dash has the same bytes
        obtain ⟨other, hother, hu, ⟨m, hm, hdash⟩, hrest⟩ := exists_labels b hunit (show IsLabel "-" by decide)
        have hlabels : other.labels = b.labels := by
          unfold ProposedBinding.labels
          rw [hu, modeText_some hm, hdash, modeText_none hmode]
        have hsame := h other hother (canonicalBytes_eq_iff.2 ⟨hrest, hlabels⟩)
        rw [hsame, hmode] at hm
        exact nomatch hm
      | some mode =>
        refine ⟨mode, rfl, fun hdash => ?_⟩
        have hnone := h { b with mode := none } ⟨hparts.unit, fun m hm => nomatch hm⟩ ?_
        · have hmodes : none = b.mode := congrArg ProposedBinding.mode hnone
          rw [hmode] at hmodes
          exact nomatch hmodes
        · refine canonicalBytes_eq_iff.2 ⟨rfl, ?_⟩
          unfold ProposedBinding.labels
          rw [modeText_some hmode, hdash]
          rfl
    · obtain ⟨other, hother, hu, ⟨m, hm, hmtext⟩, hrest⟩ := exists_labels b hc hd
      have hlabels : other.labels = b.labels := by
        unfold ProposedBinding.labels
        rw [hu, modeText_some hm, hmtext]
        exact hjoin
      have hsame := h other hother (canonicalBytes_eq_iff.2 ⟨hrest, hlabels⟩)
      rw [hsame] at hu hm
      exact ⟨hu.symm, by rw [modeText_some hm, hmtext]⟩
  · intro h other hother hbytes
    obtain ⟨hrest, hlabels⟩ := canonicalBytes_eq_iff.1 hbytes
    obtain ⟨mode, hmode, hdash⟩ := h.marked
    obtain ⟨hu, hm⟩ := soleCut_iff.1 h.cut _ _ (isLabel_of_parse_unit hother.unit_parse) (isLabel_modeText hother) hlabels
    have hunits : other.unit = b.unit := by
      have hparse := hother.unit_parse
      rw [hu, hparts.unit_parse] at hparse
      exact (Except.ok.inj hparse).symm
    have hmodes : other.mode = b.mode := by
      rw [modeText_some hmode] at hm
      cases hother' : other.mode with
      | none =>
        rw [modeText_none hother'] at hm
        exact absurd hm.symm hdash
      | some mode' =>
        rw [modeText_some hother'] at hm
        have hparse := hother.mode_parse hother'
        rw [hm, hparts.mode_parse hmode] at hparse
        rw [hmode, Except.ok.inj hparse]
    rw [hrest, ← hunits, ← hmodes]

/-! ### Decoding -/

def canonicalNames : List String :=
  ["endpoint", "eclass", "escope", "equipment", "property", "pscope", "source", "unit", "mode", "requested", "effective",
    "feedback", "status"]

section Decoding

variable {ε : Type} (version : ε) (lift : BindingError → ε)

/-- The binding of canonical bytes, with a reader's refusal of another version and of a field. -/
def decodeCanonical (raw : String) : Except ε ProposedBinding :=
  let parts := splitText unitSep raw
  if parts.length ≠ 14 ∨ parts.head? ≠ some "binding-canonical-v2" then .error version
  else (decodePropose (canonicalNames.zip parts.tail)).mapError lift

/-- Neither label holds the separator. -/
def Uncut (b : ProposedBinding) : Prop := unitSep ∉ b.unit.asStr.toList ∧ unitSep ∉ b.modeText.toList

/-- The parts of canonical bytes. -/
def canonicalParts (b : ProposedBinding) : List String :=
  ["binding-canonical-v2", b.endpoint.text, b.endpointClass.asStr, b.endpointScope.text, b.pointEquipment.text,
    b.pointProperty.text, b.pointScope.text, b.source.text, b.unit.asStr, b.modeText, b.requested.asStr,
    b.effective.asStr, b.feedback.asStr, b.status.asStr]

theorem canonicalBytes_eq (b : ProposedBinding) : b.canonicalBytes = joinText unitSep (canonicalParts b) := rfl

theorem splitText_canonicalBytes {b : ProposedBinding} (h : Uncut b) :
    splitText unitSep b.canonicalBytes = canonicalParts b := by
  rw [canonicalBytes_eq]
  refine splitText_joinText ?_ (List.cons_ne_nil _ _)
  unfold canonicalParts
  simp only [List.forall_mem_cons, List.not_mem_nil, false_implies, implies_true, and_true]
  exact ⟨by decide, no_sep_of_isId b.endpoint.valid, b.endpointClass.no_sep, no_sep_of_isId b.endpointScope.valid,
    no_sep_of_isId b.pointEquipment.valid, no_sep_of_isId b.pointProperty.valid, no_sep_of_isId b.pointScope.valid,
    no_sep_of_isId b.source.valid, h.1, h.2, b.requested.no_sep, b.effective.no_sep, b.feedback.no_sep, b.status.no_sep⟩

/-- Bytes without a further separator decode to the binding, but for a mode written as the absent one. -/
theorem decodeCanonical_uncut {b : ProposedBinding} (hparts : FromParts b) (h : Uncut b) :
    decodeCanonical version lift b.canonicalBytes =
      .ok { b with mode := if b.modeText = "-" then none else b.mode } := by
  have hmode : decodeMode b.modeText = .ok (if b.modeText = "-" then none else b.mode) := by
    unfold decodeMode
    by_cases hdash : b.modeText = "-"
    · rw [if_pos hdash, if_pos hdash]
    · rw [if_neg hdash, if_neg hdash]
      cases hmode : b.mode with
      | none => exact absurd (modeText_none hmode) hdash
      | some mode =>
        rw [modeText_some hmode, hparts.mode_parse hmode]
        rfl
  unfold decodeCanonical
  rw [splitText_canonicalBytes h]
  unfold canonicalParts canonicalNames decodePropose
  simp [field, requireField, List.lookup, hmode, hparts.unit_parse, storedDomain, storedText, Except.mapError,
    parse_scope, parse_installed]

/-- The bytes hold thirteen separators, and those of the labels. -/
theorem count_canonicalBytes (b : ProposedBinding) : b.canonicalBytes.toList.count unitSep =
    13 + b.unit.asStr.toList.count unitSep + b.modeText.toList.count unitSep := by
  have hid : ∀ {raw : String}, IsId raw → raw.toList.count unitSep = 0 :=
    fun h => List.count_eq_zero.2 (no_sep_of_isId h)
  have hversion : "binding-canonical-v2".toList.count unitSep = 0 := by decide
  rw [toList_canonicalBytes]
  unfold ProposedBinding.labels
  simp only [toList_joinTwo, List.count_append, List.count_cons_self, hid b.endpoint.valid, hid b.endpointScope.valid,
    hid b.pointEquipment.valid, hid b.pointProperty.valid, hid b.pointScope.valid, hid b.source.valid,
    List.count_eq_zero.2 b.endpointClass.no_sep, List.count_eq_zero.2 b.requested.no_sep,
    List.count_eq_zero.2 b.effective.no_sep, List.count_eq_zero.2 b.feedback.no_sep,
    List.count_eq_zero.2 b.status.no_sep, hversion]
  omega

/-- Bytes with a further separator are refused as another version. -/
theorem decodeCanonical_cut {b : ProposedBinding} (h : ¬ Uncut b) :
    decodeCanonical version lift b.canonicalBytes = .error version := by
  have hlength : (splitText unitSep b.canonicalBytes).length ≠ 14 := by
    rw [length_splitText, count_canonicalBytes]
    intro hlen
    refine h ⟨List.count_eq_zero.1 ?_, List.count_eq_zero.1 ?_⟩
    · omega
    · omega
  unfold decodeCanonical
  exact if_pos (.inl hlength)

/-- Both labels are read as they are written: no separator, and no mode written as the absent one. -/
structure LabelsRead (b : ProposedBinding) : Prop where
  uncut : Uncut b
  marked : ∀ mode ∈ b.mode, mode.asStr ≠ "-"

instance (b : ProposedBinding) : Decidable (LabelsRead b) :=
  decidable_of_iff ((unitSep ∉ b.unit.asStr.toList ∧ unitSep ∉ b.modeText.toList) ∧ ∀ mode ∈ b.mode, mode.asStr ≠ "-")
    ⟨fun h => ⟨h.1, h.2⟩, fun h => ⟨h.1, h.2⟩⟩

/-- A binding is decoded from its bytes exactly when its labels are read. -/
theorem decodeCanonical_iff {b : ProposedBinding} (hparts : FromParts b) :
    decodeCanonical version lift b.canonicalBytes = .ok b ↔ LabelsRead b := by
  constructor
  · intro h
    have huncut : Uncut b := by
      by_contra hcut
      rw [decodeCanonical_cut version lift hcut] at h
      exact nomatch h
    refine ⟨huncut, fun mode hmode hdash => ?_⟩
    rw [decodeCanonical_uncut version lift hparts huncut, Except.ok.injEq] at h
    have hmodes := congrArg ProposedBinding.mode h
    have hsome : b.mode = some mode := hmode
    rw [if_pos (by rw [modeText_some hsome, hdash]), hsome] at hmodes
    exact nomatch hmodes
  · rintro ⟨huncut, hmarked⟩
    rw [decodeCanonical_uncut version lift hparts huncut]
    congr 2
    by_cases hdash : b.modeText = "-"
    · rw [if_pos hdash]
      cases hmode : b.mode with
      | none => rfl
      | some mode =>
        rw [modeText_some hmode] at hdash
        exact absurd hdash (hmarked mode hmode)
    · rw [if_neg hdash]

end Decoding

end Verdant.Binding
