import Verdant.Binding.Rows

/-!
# Entries of the binding history

A row of the history as an `Entry`: the operation identity its descriptor names, the revision it was written at, and what
it says.  The rows of records, retirements and findings read back as they were written whatever their texts are; a
proposal whose descriptor reads does so in every field but its mode (`SameTarget`).
-/

namespace Verdant.Binding

open TextCodec Storage Access

structure Entry where
  operation : String
  revision : BindingRevision
  event : Event
  deriving DecidableEq

/-- The entry of a row, from its outbox operation and its descriptor. -/
def readEntry (operation raw : String) : Except BindingError Entry := do
  let map ← splitBinding raw
  let version ← field map "v"
  if version ≠ "2" then .error (unreadable s!"unsupported binding descriptor version '{version}'")
  else
    let identity ← field map "operation"
    let revision ← storedRevision map
    let kind ← field map "kind"
    let event ← decodeEvent operation kind map
    .ok ⟨identity, revision, event⟩

/-! ### Plain texts -/

theorem plainChar_idChar {c : Char} (h : idChar c = true) : PlainChar c := by
  unfold idChar at h
  simp only [Bool.or_eq_true, beq_iff_eq] at h
  rcases h with ((((halnum | rfl) | rfl) | rfl) | rfl) | rfl
  · unfold Char.isAlphanum Char.isAlpha Char.isUpper Char.isLower Char.isDigit at halnum
    simp only [Bool.or_eq_true, Bool.and_eq_true, decide_eq_true_eq] at halnum
    have hrange : (65 ≤ c.toNat ∧ c.toNat ≤ 90) ∨ (97 ≤ c.toNat ∧ c.toNat ≤ 122) ∨ (48 ≤ c.toNat ∧ c.toNat ≤ 57) := by
      rcases halnum with (⟨hlow, hhigh⟩ | ⟨hlow, hhigh⟩) | ⟨hlow, hhigh⟩
      · exact .inl ⟨hlow, hhigh⟩
      · exact .inr (.inl ⟨hlow, hhigh⟩)
      · exact .inr (.inr ⟨hlow, hhigh⟩)
    have hne : ∀ d : Char, c.toNat ≠ d.toNat → c ≠ d := fun d hd heq => hd (congrArg Char.toNat heq)
    have hpercent : '%'.toNat = 37 := rfl
    have hsemi : ';'.toNat = 59 := rfl
    have hequals : '='.toNat = 61 := rfl
    refine ⟨by omega, by omega, hne _ ?_, hne _ ?_, hne _ ?_⟩
    · omega
    · omega
    · omega
  all_goals decide

theorem pctEncode_of_isId {raw : String} (h : IsId raw) : pctEncode raw = raw :=
  pctEncode_of_plain fun c hc => plainChar_idChar (List.all_eq_true.1 h.2.2 c hc)

/-- The texts that stand for themselves in a descriptor. -/
private theorem plain_constants : ∀ raw ∈ ["2", "equipment", "space", "source", "point", "retire", "propose", "finding",
    "service", "location", "sense", "drive", "absent", "ambiguous", "imported", "valid", "observed-qualified"],
    pctEncode raw = raw := by
  intro raw hraw
  refine pctEncode_of_plain (forall_mem_of_all ?_)
  revert raw
  decide

private theorem plain {raw : String} (h : raw ∈ ["2", "equipment", "space", "source", "point", "retire", "propose",
    "finding", "service", "location", "sense", "drive", "absent", "ambiguous", "imported", "valid",
    "observed-qualified"]) : pctEncode raw = raw := plain_constants raw h

/-- Encoded fields as their reader sees them. -/
private theorem read_encoded_by {encode : String × String → String} {fields encoded : Fields}
    (hencode : ∀ f ∈ fields, ';' ∉ (encode f).toList ∧ pctDecode (encode f) = .ok f.2) (hne : fields ≠ [])
    (hkeys : ∀ f ∈ fields, IsKey f.1) (hnodup : (fields.map Prod.fst).Nodup)
    (hencoded : encoded = fields.map fun f => (f.1, encode f)) :
    ∃ map, splitBinding (descriptor encoded) = .ok map ∧
      (∀ k value, fields.lookup k = some value → field map k = .ok value) ∧
      ∀ k, k ∉ fields.map Prod.fst → map.lookup k = none := by
  obtain ⟨map, hmap, hlookup, hmem⟩ := splitDescriptor_encoded words hencode hne hkeys hnodup
  refine ⟨map, ?_, fun k value hk => ?_, fun k hk => ?_⟩
  · unfold splitBinding
    rw [hencoded, hmap]
    rfl
  · unfold field
    rw [requireField_of_lookup ((hlookup k).trans hk)]
    rfl
  · rw [hlookup, List.lookup_eq_none_iff]
    intro g hg
    have hne : g.1 ≠ k := fun heq => hk (List.mem_map.2 ⟨g, hg, heq⟩)
    simpa using Ne.symm hne

private theorem read_encoded {fields encoded : Fields} (hne : fields ≠ []) (hkeys : ∀ f ∈ fields, IsKey f.1)
    (hnodup : (fields.map Prod.fst).Nodup) (hencoded : encoded = fields.map fun f => (f.1, pctEncode f.2)) :
    ∃ map, splitBinding (descriptor encoded) = .ok map ∧
      (∀ k value, fields.lookup k = some value → field map k = .ok value) ∧
      ∀ k, k ∉ fields.map Prod.fst → map.lookup k = none :=
  read_encoded_by (fun f _ => ⟨semicolon_not_mem_pctEncode f.2, pctDecode_pctEncode f.2⟩) hne hkeys hnodup hencoded

theorem storedRevision_of_field {map : Fields} {revision : BindingRevision}
    (h : field map "revision" = .ok (Nat.repr revision.value.toNat)) : storedRevision map = .ok revision := by
  unfold storedRevision
  rw [h, Result.ok_bind, parseUInt32_repr]

theorem parse_scope (scope : TrustedScope) : TrustedScope.parse scope.text = .ok scope := parseId_of_isId scope.valid

/-! ### Records -/

/-- An entry whose version, identity, revision and kind are read. -/
theorem readEntry_eq {operation raw identity kind : String} {map : Fields} {revision : BindingRevision} {event : Event}
    (hmap : splitBinding raw = .ok map) (hversion : field map "v" = .ok "2")
    (hidentity : field map "operation" = .ok identity)
    (hrevision : field map "revision" = .ok (Nat.repr revision.value.toNat)) (hkind : field map "kind" = .ok kind)
    (hevent : decodeEvent operation kind map = .ok event) : readEntry operation raw = .ok ⟨identity, revision, event⟩ := by
  unfold readEntry
  simp only [hmap, hversion, hidentity, storedRevision_of_field hrevision, hkind, hevent, Result.ok_bind, ne_eq,
    not_true_eq_false, if_false]

section Records

variable (operation : OperationId) (revision : BindingRevision)

theorem readEntry_equipment {record : EquipmentRecord} (h : EquipmentRecord.parse record.id.text record.kind record.scope
      record.label record.address.text = .ok record) :
    readEntry opEquipmentText (descriptor (equipmentFields record ++ recordTail operation revision)) =
      .ok ⟨operation.text, revision, .equipment record⟩ := by
  obtain ⟨map, hmap, hfield, -⟩ := @read_encoded [("v", "2"), ("kind", "equipment"), ("id", record.id.text),
    ("ekind", record.kind.asStr), ("scope", record.scope.text), ("label", record.label), ("address", record.address.text),
    ("operation", operation.text), ("revision", Nat.repr revision.value.toNat)]
    (equipmentFields record ++ recordTail operation revision) (by simp) (by simp [IsKey]) (by simp) (by
      simp only [equipmentFields, recordTail, List.map_cons, List.map_nil, List.cons_append, List.nil_append,
        @plain "2" (by simp), @plain "equipment" (by simp), pctEncode_of_isId operation.valid,
        pctEncode_repr])
  refine readEntry_eq hmap (hfield "v" _ rfl) (hfield "operation" _ rfl) (hfield "revision" _ rfl) (hfield "kind" _ rfl) ?_
  have hrecord : decodeEquipment map = .ok record := by
    unfold decodeEquipment
    simp only [hfield "id" _ rfl, hfield "ekind" _ rfl, hfield "scope" _ rfl, hfield "label" _ rfl,
      hfield "address" _ rfl, Result.ok_bind, EquipmentKind.parse_asStr, parse_scope, storedDomain, Except.mapError, h]
  unfold decodeEvent
  simp only [and_self, if_true, hrecord, Result.ok_bind]

theorem readEntry_space {record : SpaceRecord}
    (h : SpaceRecord.parse record.id.text record.scope record.label = .ok record) :
    readEntry opSpaceText (descriptor (spaceFields record ++ recordTail operation revision)) =
      .ok ⟨operation.text, revision, .space record⟩ := by
  obtain ⟨map, hmap, hfield, -⟩ := @read_encoded [("v", "2"), ("kind", "space"), ("id", record.id.text),
    ("scope", record.scope.text), ("label", record.label), ("operation", operation.text),
    ("revision", Nat.repr revision.value.toNat)] (spaceFields record ++ recordTail operation revision) (by simp)
    (by simp [IsKey]) (by simp) (by
      simp only [spaceFields, recordTail, List.map_cons, List.map_nil, List.cons_append, List.nil_append,
        @plain "2" (by simp), @plain "space" (by simp), pctEncode_of_isId operation.valid,
        pctEncode_repr])
  refine readEntry_eq hmap (hfield "v" _ rfl) (hfield "operation" _ rfl) (hfield "revision" _ rfl) (hfield "kind" _ rfl) ?_
  have hrecord : decodeSpace map = .ok record := by
    unfold decodeSpace
    simp only [hfield "id" _ rfl, hfield "scope" _ rfl, hfield "label" _ rfl, Result.ok_bind, parse_scope, storedDomain,
      Except.mapError, h]
  have hother : ¬(opSpaceText = opEquipmentText ∧ "space" = "equipment") := by decide
  unfold decodeEvent
  simp only [hother, if_false, and_self, if_true, hrecord, Result.ok_bind]

theorem readEntry_source {record : SourceRecord}
    (h : SourceRecord.parse record.id.text record.scope record.label = .ok record) :
    readEntry opSourceText (descriptor (sourceFields record ++ recordTail operation revision)) =
      .ok ⟨operation.text, revision, .source record⟩ := by
  obtain ⟨map, hmap, hfield, -⟩ := @read_encoded [("v", "2"), ("kind", "source"), ("id", record.id.text),
    ("scope", record.scope.text), ("label", record.label), ("operation", operation.text),
    ("revision", Nat.repr revision.value.toNat)] (sourceFields record ++ recordTail operation revision) (by simp)
    (by simp [IsKey]) (by simp) (by
      simp only [sourceFields, recordTail, List.map_cons, List.map_nil, List.cons_append, List.nil_append,
        @plain "2" (by simp), @plain "source" (by simp), pctEncode_of_isId operation.valid,
        pctEncode_repr])
  refine readEntry_eq hmap (hfield "v" _ rfl) (hfield "operation" _ rfl) (hfield "revision" _ rfl) (hfield "kind" _ rfl) ?_
  have hrecord : decodeSource map = .ok record := by
    unfold decodeSource
    simp only [hfield "id" _ rfl, hfield "scope" _ rfl, hfield "label" _ rfl, Result.ok_bind, parse_scope, storedDomain,
      Except.mapError, h]
  have hequipment : ¬(opSourceText = opEquipmentText ∧ "source" = "equipment") := by decide
  have hspace : ¬(opSourceText = opSpaceText ∧ "source" = "space") := by decide
  unfold decodeEvent
  simp only [hequipment, hspace, if_false, and_self, if_true, hrecord, Result.ok_bind]

theorem readEntry_point {record : PointRecord} (h : PointRecord.parse record.equipment.text record.property.text
      record.scope record.unit.asStr record.endpointClass = .ok record) :
    readEntry opPointText (descriptor (pointFields record ++ recordTail operation revision)) =
      .ok ⟨operation.text, revision, .point record⟩ := by
  obtain ⟨map, hmap, hfield, -⟩ := @read_encoded [("v", "2"), ("kind", "point"), ("equipment", record.equipment.text),
    ("property", record.property.text), ("scope", record.scope.text), ("unit", record.unit.asStr),
    ("eclass", record.endpointClass.asStr), ("operation", operation.text), ("revision", Nat.repr revision.value.toNat)]
    (pointFields record ++ recordTail operation revision) (by simp) (by simp [IsKey]) (by simp) (by
      simp only [pointFields, recordTail, List.map_cons, List.map_nil, List.cons_append, List.nil_append,
        @plain "2" (by simp), @plain "point" (by simp), pctEncode_of_isId operation.valid,
        pctEncode_repr])
  refine readEntry_eq hmap (hfield "v" _ rfl) (hfield "operation" _ rfl) (hfield "revision" _ rfl) (hfield "kind" _ rfl) ?_
  have hrecord : decodePoint map = .ok record := by
    unfold decodePoint
    simp only [hfield "equipment" _ rfl, hfield "property" _ rfl, hfield "scope" _ rfl, hfield "unit" _ rfl,
      hfield "eclass" _ rfl, Result.ok_bind, parse_scope, storedDomain, Except.mapError, EndpointClass.parse_asStr, h]
  have hequipment : ¬(opPointText = opEquipmentText ∧ "point" = "equipment") := by decide
  have hspace : ¬(opPointText = opSpaceText ∧ "point" = "space") := by decide
  have hsource : ¬(opPointText = opSourceText ∧ "point" = "source") := by decide
  unfold decodeEvent
  simp only [hequipment, hspace, hsource, if_false, and_self, if_true, hrecord, Result.ok_bind]

theorem readEntry_retire (id address reason : String) :
    readEntry opRetireText (descriptor (retireFields id address reason ++ recordTail operation revision)) =
      .ok ⟨operation.text, revision, .retire id address⟩ := by
  obtain ⟨map, hmap, hfield, -⟩ := @read_encoded [("v", "2"), ("kind", "retire"), ("id", id), ("address", address),
    ("reason", reason), ("operation", operation.text), ("revision", Nat.repr revision.value.toNat)]
    (retireFields id address reason ++ recordTail operation revision) (by simp) (by simp [IsKey]) (by simp) (by
      simp only [retireFields, recordTail, List.map_cons, List.map_nil, List.cons_append, List.nil_append,
        @plain "2" (by simp), @plain "retire" (by simp), pctEncode_of_isId operation.valid,
        pctEncode_repr])
  refine readEntry_eq hmap (hfield "v" _ rfl) (hfield "operation" _ rfl) (hfield "revision" _ rfl) (hfield "kind" _ rfl) ?_
  have hother : ∀ other ∈ [("equipment", opEquipmentText), ("space", opSpaceText), ("source", opSourceText),
      ("point", opPointText), ("propose", opProposeText)], ¬(opRetireText = other.2 ∧ "retire" = other.1) := by decide
  unfold decodeEvent
  simp only [hother ("equipment", opEquipmentText) (by simp), hother ("space", opSpaceText) (by simp),
    hother ("source", opSourceText) (by simp), hother ("point", opPointText) (by simp),
    hother ("propose", opProposeText) (by simp), if_false, and_self, if_true, hfield "id" _ rfl,
    hfield "address" _ rfl, hfield "reason" _ rfl, Result.ok_bind]

end Records

/-! ### Findings -/

theorem storedActor_of_fields {map : Fields} {actor : ActorContext} (hcapgen : actor.row.capgen ≠ 0)
    (hcap : field map "capability" = .ok actor.row.cap.text) (hscope : field map "scope" = .ok actor.bound.scope.text)
    (hgen : field map "capgen" = .ok (Nat.repr actor.row.capgen.toNat))
    (hissuer : field map "issuer" = .ok actor.row.issuer.text)
    (hkeys : ∀ k ∈ ["fp", "key", "key_id"], map.lookup k = none) :
    storedActor map = .ok (descriptor (actorFields actor)) := by
  have hsecret : ¬(actor.row.capgen = 0 ∨ (map.lookup "fp").isSome ∨ (map.lookup "key").isSome ∨
      (map.lookup "key_id").isSome) := by
    rw [hkeys "fp" (by simp), hkeys "key" (by simp), hkeys "key_id" (by simp)]
    simpa using hcapgen
  unfold storedActor
  simp only [hcap, hscope, hgen, hissuer, Result.ok_bind, CapabilityName.parse_text, parse_scope, IssuerId.parse_text,
    Except.mapError, parseUInt32_repr]
  rw [if_neg hsecret]
  rfl

/-- What is read from the descriptor of a finding. -/
def findingRead (operation : OperationId) (revision : BindingRevision) (binding : ProposedBinding) (finding : Finding)
    (actor : ActorContext) : Fields :=
  [("v", "2"), ("kind", "finding"), ("operation", operation.text), ("fid", finding.id.text),
    ("generation", Nat.repr finding.generation.toNat), ("revision", Nat.repr revision.value.toNat),
    ("digest", finding.digest), ("summary", finding.summary), ("capability", actor.row.cap.text),
    ("scope", actor.bound.scope.text), ("capgen", Nat.repr actor.row.capgen.toNat), ("issuer", actor.row.issuer.text),
    ("equipment", binding.pointEquipment.text), ("property", binding.pointProperty.text),
    ("binding", binding.canonicalBytes)]

theorem read_findingFields (operation : OperationId) (revision : BindingRevision) (binding : ProposedBinding)
    (finding : Finding) (actor : ActorContext) :
    ∃ map, splitBinding (descriptor (findingFields operation revision binding finding actor)) = .ok map ∧
      (∀ k value, (findingRead operation revision binding finding actor).lookup k = some value →
        field map k = .ok value) ∧
      ∀ k, k ∉ (findingRead operation revision binding finding actor).map Prod.fst → map.lookup k = none := by
  refine read_encoded (List.cons_ne_nil _ _) (by simp [findingRead, IsKey]) (by simp [findingRead]) ?_
  simp only [findingRead, findingFields, actorFields, actorPairs, List.map_cons, List.map_nil, List.cons_append,
    List.nil_append, @plain "2" (by simp), @plain "finding" (by simp), pctEncode_repr]

theorem readEntry_finding (operation : OperationId) (revision : BindingRevision) (binding : ProposedBinding)
    {actor : ActorContext} (hcapgen : actor.row.capgen ≠ 0) :
    readEntry opFindingText (descriptor (findingFields operation revision binding
        (Finding.forBinding binding revision (descriptor (actorFields actor))) actor)) =
      .ok ⟨operation.text, revision,
        .finding (Finding.forBinding binding revision (descriptor (actorFields actor)))⟩ := by
  have hnonempty := Finding.forBinding_nonempty binding revision (descriptor (actorFields actor))
  have hgeneration : (Finding.forBinding binding revision (descriptor (actorFields actor))).generation = revision.value :=
    rfl
  have hrevision : (Finding.forBinding binding revision (descriptor (actorFields actor))).revision = revision := rfl
  have hactor : (Finding.forBinding binding revision (descriptor (actorFields actor))).actorReference =
    descriptor (actorFields actor) := rfl
  generalize Finding.forBinding binding revision (descriptor (actorFields actor)) = finding at *
  obtain ⟨map, hmap, hfield, hnone⟩ := read_findingFields operation revision binding finding actor
  refine readEntry_eq hmap (hfield "v" _ rfl) (hfield "operation" _ rfl) (hfield "revision" _ rfl) (hfield "kind" _ rfl) ?_
  have hstored := storedActor_of_fields hcapgen (hfield "capability" _ rfl) (hfield "scope" _ rfl)
    (hfield "capgen" _ rfl) (hfield "issuer" _ rfl) fun k hk => hnone k (by
      revert k
      simp [findingRead])
  have hfinding : decodeFinding map = .ok finding := by
    unfold decodeFinding
    simp only [hfield "fid" _ rfl, hfield "generation" _ rfl, hfield "revision" _ rfl, hfield "digest" _ rfl,
      hfield "summary" _ rfl, hfield "equipment" _ rfl, hfield "property" _ rfl, hstored, Result.ok_bind,
      FindingId.parse_text, storedText, Except.mapError, decodeU32, parseUInt32_repr, decodeNonEmpty,
      if_neg hnonempty.1, if_neg hnonempty.2, hgeneration, ne_eq, not_true_eq_false, if_false]
    cases finding
    simp only at hgeneration hrevision hactor
    subst hgeneration hrevision hactor
    rfl
  have hother : ∀ other ∈ [("equipment", opEquipmentText), ("space", opSpaceText), ("source", opSourceText),
      ("point", opPointText), ("propose", opProposeText), ("retire", opRetireText)],
      ¬(opFindingText = other.2 ∧ "finding" = other.1) := by decide
  unfold decodeEvent
  simp only [hother ("equipment", opEquipmentText) (by simp), hother ("space", opSpaceText) (by simp),
    hother ("source", opSourceText) (by simp), hother ("point", opPointText) (by simp),
    hother ("propose", opProposeText) (by simp), hother ("retire", opRetireText) (by simp), if_false, and_self, if_true,
    hfinding, Result.ok_bind]

/-! ### Proposals -/

/-- The same binding in everything but its mode. -/
structure SameTarget (a b : ProposedBinding) : Prop where
  endpoint : a.endpoint = b.endpoint
  endpointClass : a.endpointClass = b.endpointClass
  endpointScope : a.endpointScope = b.endpointScope
  equipment : a.pointEquipment = b.pointEquipment
  property : a.pointProperty = b.pointProperty
  scope : a.pointScope = b.pointScope
  source : a.source = b.source
  unit : a.unit.asStr = b.unit.asStr
  requested : a.requested = b.requested
  effective : a.effective = b.effective
  feedback : a.feedback = b.feedback
  status : a.status = b.status

def proposalText (operation : OperationId) (revision : BindingRevision) (binding : ProposedBinding)
    (actor : ActorContext) : String :=
  descriptor (proposalFields binding ++ proposalTail operation revision ++ actorFields actor)

/-- The descriptors a proposal of this binding may be written with all read back. -/
def Decodable (binding : ProposedBinding) : Prop :=
  ∀ operation revision (actor : ActorContext), actor.row.capgen ≠ 0 →
    ∃ entry, readEntry opProposeText (proposalText operation revision binding actor) = .ok entry

/-- One field of a proposal that reads, whatever the mode is. -/
private theorem field_of_proposal {operation : OperationId} {revision : BindingRevision} {binding : ProposedBinding}
    {actor : ActorContext} {map : Fields} (hmap : splitBinding (proposalText operation revision binding actor) = .ok map)
    {k value enc : String} (hencode : pctEncode value = enc)
    (hmem : (k, enc) ∈ proposalFields binding ++ proposalTail operation revision ++ actorFields actor)
    (hkey : IsKey k) : field map k = .ok value := by
  subst hencode
  have hsplit := Result.mapError_eq_ok.1 hmap
  have hlookup := lookup_of_splitDescriptor hsplit hmem hkey (semicolon_not_mem_pctEncode value) (pctDecode_pctEncode value)
  unfold field
  rw [requireField_of_lookup hlookup]
  rfl

/-- A proposal that splits names its operation. -/
theorem operation_of_proposal {operation : OperationId} {revision : BindingRevision} {binding : ProposedBinding}
    {actor : ActorContext} {map : Fields} (hmap : splitBinding (proposalText operation revision binding actor) = .ok map) :
    field map "operation" = .ok operation.text :=
  field_of_proposal hmap rfl (by simp [proposalFields, proposalTail]) (by simp [IsKey])

private theorem plain_asStr (binding : ProposedBinding) :
    pctEncode binding.endpointClass.asStr = binding.endpointClass.asStr ∧
      pctEncode binding.requested.asStr = binding.requested.asStr ∧
      pctEncode binding.effective.asStr = binding.effective.asStr ∧
      pctEncode binding.feedback.asStr = binding.feedback.asStr ∧
      pctEncode binding.status.asStr = binding.status.asStr := by
  have hrole : ∀ role : BindingRole, pctEncode role.asStr = role.asStr := by
    intro role
    cases role <;> exact plain (by simp [BindingRole.asStr])
  refine ⟨?_, hrole _, hrole _, ?_, ?_⟩
  · cases binding.endpointClass <;> exact plain (by simp [EndpointClass.asStr])
  · cases binding.feedback with
    | single role => exact hrole role
    | absent => exact plain (by simp [Feedback.asStr])
    | ambiguous => exact plain (by simp [Feedback.asStr])
  · cases binding.status <;> exact plain (by simp [BindingStatus.asStr])

theorem parse_installed (id : InstalledId) : InstalledId.parse id.text = .ok id := parseId_of_isId id.valid

theorem readEntry_propose {operation : OperationId} {revision : BindingRevision} {binding : ProposedBinding}
    {actor : ActorContext} {entry : Entry}
    (h : readEntry opProposeText (proposalText operation revision binding actor) = .ok entry) :
    entry.operation = operation.text ∧ entry.revision = revision ∧
      ∃ read, entry.event = .propose read ∧ SameTarget read binding := by
  obtain ⟨map, hmap, h⟩ := Result.bind_eq_ok.1 h
  obtain ⟨hclass, hrequested, heffective, hfeedback, hstatus⟩ := plain_asStr binding
  have hfield := fun {k value enc : String} (hencode : pctEncode value = enc) hmem hkey =>
    field_of_proposal hmap (k := k) hencode hmem hkey
  have hversion : field map "v" = .ok "2" := hfield (plain (by simp)) (by simp [proposalFields]) (by simp [IsKey])
  have hidentity : field map "operation" = .ok operation.text :=
    hfield rfl (by simp [proposalFields, proposalTail]) (by simp [IsKey])
  have hrevision : field map "revision" = .ok (Nat.repr revision.value.toNat) :=
    hfield (pctEncode_repr _) (by simp [proposalFields, proposalTail]) (by simp [IsKey])
  have hkind : field map "kind" = .ok "propose" := hfield (plain (by simp)) (by simp [proposalFields]) (by simp [IsKey])
  simp only [hversion, hidentity, storedRevision_of_field hrevision, hkind, Result.ok_bind, ne_eq, not_true_eq_false,
    if_false] at h
  obtain ⟨event, hevent, h⟩ := Result.bind_eq_ok.1 h
  cases h
  refine ⟨rfl, rfl, ?_⟩
  have hother : ∀ other ∈ [("equipment", opEquipmentText), ("space", opSpaceText), ("source", opSourceText),
      ("point", opPointText)], ¬(opProposeText = other.2 ∧ "propose" = other.1) := by decide
  unfold decodeEvent at hevent
  simp only [hother ("equipment", opEquipmentText) (by simp), hother ("space", opSpaceText) (by simp),
    hother ("source", opSourceText) (by simp), hother ("point", opPointText) (by simp), if_false, and_self,
    if_true] at hevent
  obtain ⟨_, -, hevent⟩ := Result.bind_eq_ok.1 hevent
  obtain ⟨read, hread, hevent⟩ := Result.bind_eq_ok.1 hevent
  cases hevent
  refine ⟨read, rfl, ?_⟩
  have hendpoint : field map "endpoint" = .ok binding.endpoint.text :=
    hfield rfl (by simp [proposalFields]) (by simp [IsKey])
  have heclass : field map "eclass" = .ok binding.endpointClass.asStr :=
    hfield hclass (by simp [proposalFields]) (by simp [IsKey])
  have hescope : field map "escope" = .ok binding.endpointScope.text :=
    hfield rfl (by simp [proposalFields]) (by simp [IsKey])
  have hequipment : field map "equipment" = .ok binding.pointEquipment.text :=
    hfield rfl (by simp [proposalFields]) (by simp [IsKey])
  have hproperty : field map "property" = .ok binding.pointProperty.text :=
    hfield rfl (by simp [proposalFields]) (by simp [IsKey])
  have hpscope : field map "pscope" = .ok binding.pointScope.text :=
    hfield rfl (by simp [proposalFields]) (by simp [IsKey])
  have hsource : field map "source" = .ok binding.source.text := hfield rfl (by simp [proposalFields]) (by simp [IsKey])
  have hunit : field map "unit" = .ok binding.unit.asStr := hfield rfl (by simp [proposalFields]) (by simp [IsKey])
  have hreq : field map "requested" = .ok binding.requested.asStr :=
    hfield hrequested (by simp [proposalFields]) (by simp [IsKey])
  have heff : field map "effective" = .ok binding.effective.asStr :=
    hfield heffective (by simp [proposalFields]) (by simp [IsKey])
  have hfeed : field map "feedback" = .ok binding.feedback.asStr :=
    hfield hfeedback (by simp [proposalFields]) (by simp [IsKey])
  have hstat : field map "status" = .ok binding.status.asStr :=
    hfield hstatus (by simp [proposalFields]) (by simp [IsKey])
  unfold decodePropose at hread
  simp only [hendpoint, heclass, hescope, hequipment, hproperty, hpscope, hsource, hunit, hreq, heff, hfeed, hstat,
    Result.ok_bind, EndpointAddress.parse_text, EndpointClass.parse_asStr, PropertyName.parse_text, parse_scope,
    parse_installed, BindingRole.parse_asStr, Feedback.parse_asStr, BindingStatus.parse_asStr, storedText,
    storedDomain, Except.mapError] at hread
  -- what is left are the unit, read by its own text, and the mode
  obtain ⟨unit, hparse, hread⟩ := Result.bind_eq_ok.1 hread
  obtain ⟨raw, -, hread⟩ := Result.bind_eq_ok.1 hread
  obtain ⟨mode, -, hread⟩ := Result.bind_eq_ok.1 hread
  cases hread
  exact ⟨rfl, rfl, rfl, rfl, rfl, rfl, rfl, MeasureUnit.asStr_of_parse (Result.mapError_eq_ok.1 hparse), rfl, rfl, rfl,
    rfl⟩

/-- The values of a proposal as its descriptor writes them: the mode raw, every other text encoded. -/
private def writtenAs (f : String × String) : String := if f.1 = "mode" then f.2 else pctEncode f.2

/-- A binding whose mode text stands for itself reads back, with the mode its reader makes of that text. -/
theorem readEntry_proposal {binding : ProposedBinding} (hunit : MeasureUnit.parse binding.unit.asStr = .ok binding.unit)
    (hsemi : ';' ∉ binding.modeText.toList) (hpercent : '%' ∉ binding.modeText.toList)
    (hmode : decodeMode binding.modeText = .ok binding.mode) (operation : OperationId) (revision : BindingRevision)
    (actor : ActorContext) :
    (splitBinding (proposalText operation revision binding actor) >>= decodePropose) = .ok binding ∧
      (actor.row.capgen ≠ 0 → readEntry opProposeText (proposalText operation revision binding actor) =
        .ok ⟨operation.text, revision, .propose binding⟩) := by
  obtain ⟨hclass, hrequested, heffective, hfeedback, hstatus⟩ := plain_asStr binding
  have hwritten : ∀ k value, k ≠ "mode" → writtenAs (k, value) = pctEncode value := fun _ _ hk => if_neg hk
  have hraw : ∀ value, writtenAs ("mode", value) = value := fun _ => rfl
  obtain ⟨map, hmap, hfield, hnone⟩ := @read_encoded_by writtenAs [("v", "2"), ("kind", "propose"),
    ("endpoint", binding.endpoint.text), ("eclass", binding.endpointClass.asStr), ("escope", binding.endpointScope.text),
    ("equipment", binding.pointEquipment.text), ("property", binding.pointProperty.text),
    ("pscope", binding.pointScope.text), ("source", binding.source.text), ("unit", binding.unit.asStr),
    ("mode", binding.modeText), ("requested", binding.requested.asStr), ("effective", binding.effective.asStr),
    ("feedback", binding.feedback.asStr), ("status", binding.status.asStr), ("operation", operation.text),
    ("revision", Nat.repr revision.value.toNat), ("capability", actor.row.cap.text), ("scope", actor.bound.scope.text),
    ("capgen", Nat.repr actor.row.capgen.toNat), ("issuer", actor.row.issuer.text)]
    (proposalFields binding ++ proposalTail operation revision ++ actorFields actor)
    (by
      intro f hf
      by_cases hk : f.1 = "mode"
      · obtain ⟨k, value⟩ := f
        obtain rfl : k = "mode" := hk
        obtain rfl : value = binding.modeText := by simpa using hf
        exact ⟨hsemi, pctDecode_of_not_mem hpercent⟩
      · rw [hwritten f.1 f.2 hk]
        exact ⟨semicolon_not_mem_pctEncode f.2, pctDecode_pctEncode f.2⟩)
    (by simp) (by simp [IsKey]) (by simp)
    (by
      simp [proposalFields, proposalTail, actorFields, actorPairs, hwritten, hraw, @plain "2" (by simp),
        @plain "propose" (by simp), pctEncode_repr, hclass, hrequested, heffective, hfeedback, hstatus])
  have hread : decodePropose map = .ok binding := by
    unfold decodePropose
    simp only [hfield "endpoint" _ rfl, hfield "eclass" _ rfl, hfield "escope" _ rfl, hfield "equipment" _ rfl,
      hfield "property" _ rfl, hfield "pscope" _ rfl, hfield "source" _ rfl, hfield "unit" _ rfl, hfield "mode" _ rfl,
      hfield "requested" _ rfl, hfield "effective" _ rfl, hfield "feedback" _ rfl, hfield "status" _ rfl,
      Result.ok_bind, EndpointAddress.parse_text, EndpointClass.parse_asStr, PropertyName.parse_text, parse_scope,
      parse_installed, BindingRole.parse_asStr, Feedback.parse_asStr, BindingStatus.parse_asStr, storedText,
      storedDomain, Except.mapError, hunit, hmode]
  have htext : splitBinding (proposalText operation revision binding actor) = .ok map := hmap
  refine ⟨?_, fun hcapgen => ?_⟩
  · rw [htext, Result.ok_bind, hread]
  have hstored := storedActor_of_fields hcapgen (hfield "capability" _ rfl) (hfield "scope" _ rfl)
    (hfield "capgen" _ rfl) (hfield "issuer" _ rfl) fun k hk => hnone k (by
      revert k
      simp [findingRead])
  have hother : ∀ other ∈ [("equipment", opEquipmentText), ("space", opSpaceText), ("source", opSourceText),
      ("point", opPointText)], ¬(opProposeText = other.2 ∧ "propose" = other.1) := by decide
  refine readEntry_eq htext (hfield "v" _ rfl) (hfield "operation" _ rfl) (hfield "revision" _ rfl)
    (hfield "kind" _ rfl) ?_
  unfold decodeEvent
  simp only [hother ("equipment", opEquipmentText) (by simp), hother ("space", opSpaceText) (by simp),
    hother ("source", opSourceText) (by simp), hother ("point", opPointText) (by simp), if_false, and_self, if_true,
    hstored, hread, Result.ok_bind]

end Verdant.Binding
