import Verdant.Domain.ValueText

/-!
# Readings

One sensor reading with its scope, entity, source, value, unit and times.  Its decoder writes the nested value object
out again with `stringify` and reads it with the value codec; the canonical text has the same fields as the text the
value was written in, so the reading reads back.
-/

namespace Verdant

open TextCodec Json

structure Reading where
  scope : TrustedScope
  entity : InstalledId
  sensor : InstalledId
  value : Value
  unit : MeasureUnit
  times : TimeTriple
  deriving DecidableEq

/-- Frozen encoding: `value` is the nested value object, the other fields are strings. -/
def Reading.toJson (r : Reading) : String :=
  "\x7b\"scope\":" ++ quote r.scope.text ++ ",\"entity\":" ++ quote r.entity.text ++ ",\"sensor\":" ++
    quote r.sensor.text ++ ",\"value\":" ++ r.value.toJson ++ ",\"unit\":" ++ quote r.unit.asStr ++
    ",\"source_ms\":" ++ quote (toString r.times.source) ++ ",\"receipt_ms\":" ++ quote (toString r.times.receipt) ++
    ",\"ingestion_ms\":" ++ quote (toString r.times.ingestion) ++ "\x7d"

def parseMillis (fields : List (String × JsonVal)) (name : String) : Except DomainError Int := do
  let raw ← getString fields name
  match parseI64 raw with
  | some n => .ok n
  | none => .error (.invalidValue "unix-millis" raw)

def Reading.fromJson (text : String) : Except DomainError Reading := do
  let fields ← parseObject text
  rejectUnknown fields
    ["scope", "entity", "sensor", "value", "unit", "source_ms", "receipt_ms", "ingestion_ms"]
  let scope ← TrustedScope.parse (← getString fields "scope")
  let entity ← InstalledId.parse (← getString fields "entity")
  let sensor ← InstalledId.parse (← getString fields "sensor")
  match fields.lookup "value" with
  | none => .error (.missingField "value")
  | some valueJson => do
    let value ← Value.fromJson (stringify valueJson)
    let unit ← MeasureUnit.parse (← getString fields "unit")
    let source ← parseMillis fields "source_ms"
    let receipt ← parseMillis fields "receipt_ms"
    let ingestion ← parseMillis fields "ingestion_ms"
    let times ← TimeTriple.new source receipt ingestion
    .ok ⟨scope, entity, sensor, value, unit, times⟩

/-! ### Valid readings -/

/-- The unit is one the unit reader returned. -/
def MeasureUnit.Parsed (u : MeasureUnit) : Prop := ∃ raw, MeasureUnit.parse raw = .ok u

theorem MeasureUnit.parse_asStr {u : MeasureUnit} (h : u.Parsed) : MeasureUnit.parse u.asStr = .ok u := by
  obtain ⟨raw, hraw⟩ := h
  have hsame : u.asStr = raw := by
    unfold MeasureUnit.parse KnownUnit.parse at hraw
    split_ifs at hraw with h1 h2 h3 h4 h5 h6
    · cases hraw
      exact h3.symm
    · cases hraw
      exact h4.symm
    · cases hraw
      exact h5.symm
    · cases hraw
      exact h6.symm
    · cases hraw
      rfl
  rw [hsame, hraw]

/-- An unknown label that is neither empty, nor long, nor the label of a known unit. -/
def MeasureUnit.Canonical : MeasureUnit → Prop
  | .known _ => True
  | .unknown raw => raw ≠ "" ∧ raw.utf8ByteSize ≤ 128 ∧ KnownUnit.parse raw = none

instance (u : MeasureUnit) : Decidable u.Canonical := by
  unfold MeasureUnit.Canonical
  cases u <;> infer_instance

theorem MeasureUnit.parse_asStr_iff {u : MeasureUnit} : MeasureUnit.parse u.asStr = .ok u ↔ u.Canonical := by
  cases u with
  | known unit => cases unit <;> decide
  | unknown raw =>
    unfold MeasureUnit.Canonical MeasureUnit.asStr MeasureUnit.parse
    by_cases hempty : raw = ""
    · simp [hempty]
    by_cases hlong : raw.utf8ByteSize > 128
    · simp [hempty, hlong]
    · cases hknown : KnownUnit.parse raw with
      | none => simp [hempty, hknown]
      | some unit => simp [hempty, hlong, hknown]

/-- The readings of an `i64` clock. -/
def Millis (n : Int) : Prop := -2 ^ 63 ≤ n ∧ n < 2 ^ 63

instance (n : Int) : Decidable (Millis n) := by
  unfold Millis
  infer_instance

theorem parseI64_toString {n : Int} (h : Millis n) : parseI64 (toString n) = some n := by
  unfold parseI64
  have hrange : -2 ^ 63 ≤ n ∧ n < 2 ^ 63 := h
  rw [parseInt_toString, Option.filter_some, decide_eq_true hrange, if_pos rfl]

structure TimeTriple.InRange (t : TimeTriple) : Prop where
  source : Millis t.source
  receipt : Millis t.receipt
  ingestion : Millis t.ingestion

theorem TimeTriple.new_self (t : TimeTriple) : TimeTriple.new t.source t.receipt t.ingestion = .ok t := by
  unfold TimeTriple.new
  rw [dif_pos t.source_le, dif_pos t.receipt_le]

/-- A reading over valid ids, a parsed unit, a value built from valid parts and three clock readings. -/
structure Reading.Valid (r : Reading) : Prop where
  value : r.value.Valid
  unit : r.unit.Parsed
  times : r.times.InRange

/-! ### The object of a reading -/

def Reading.members (r : Reading) : List Member :=
  [.str "scope" r.scope.text, .str "entity" r.entity.text, .str "sensor" r.sensor.text,
    ⟨"value", r.value.toJson, .object r.value.fields⟩, .str "unit" r.unit.asStr,
    .str "source_ms" (toString r.times.source), .str "receipt_ms" (toString r.times.receipt),
    .str "ingestion_ms" (toString r.times.ingestion)]

/-- The fields a reader of the text holds, sorted by key. -/
def Reading.fields (r : Reading) : List (String × JsonVal) :=
  [("entity", .str r.entity.text), ("ingestion_ms", .str (toString r.times.ingestion)),
    ("receipt_ms", .str (toString r.times.receipt)), ("scope", .str r.scope.text), ("sensor", .str r.sensor.text),
    ("source_ms", .str (toString r.times.source)), ("unit", .str r.unit.asStr), ("value", .object r.value.fields)]

theorem Reading.insertMembers_fields (r : Reading) : insertMembers [] (r.members.map Member.field) = some r.fields := by
  have hnil : ∀ key value, insertField key value [] = some [(key, value)] := fun _ _ => rfl
  simp (disch := decide) only [Reading.members, Reading.fields, Member.str, Member.field, List.map_cons, List.map_nil,
    insertMembers, hnil, insertField_before, insertField_behind, Option.bind_some, Option.map_some]

private theorem objectText_eight {a b c d e f g h : String} {ka kb kc kd ke kf kg kh : String}
    (ha : a = "\x7b" ++ quote ka ++ ":") (hb : b = "," ++ quote kb ++ ":") (hc : c = "," ++ quote kc ++ ":")
    (hd : d = "," ++ quote kd ++ ":") (he : e = "," ++ quote ke ++ ":") (hf : f = "," ++ quote kf ++ ":")
    (hg : g = "," ++ quote kg ++ ":") (hh : h = "," ++ quote kh ++ ":") (ma mb mc md me mf mg mh : Member)
    (hkeys : [ma, mb, mc, md, me, mf, mg, mh].map Member.key = [ka, kb, kc, kd, ke, kf, kg, kh]) :
    a ++ ma.text ++ b ++ mb.text ++ c ++ mc.text ++ d ++ md.text ++ e ++ me.text ++ f ++ mf.text ++ g ++ mg.text ++
      h ++ mh.text ++ "\x7d" = objectText [ma, mb, mc, md, me, mf, mg, mh] := by
  simp only [List.map_cons, List.map_nil, List.cons.injEq, and_true] at hkeys
  obtain ⟨rfl, rfl, rfl, rfl, rfl, rfl, rfl, rfl⟩ := hkeys
  subst ha hb hc hd he hf hg hh
  simp only [objectText, membersText, if_true, Bool.false_eq_true, if_false, String.append_assoc, String.empty_append,
    String.append_empty]

theorem Reading.toJson_eq (r : Reading) : r.toJson = objectText r.members := by
  have hscope : "\x7b\"scope\":" = "\x7b" ++ quote "scope" ++ ":" := by decide
  have hentity : ",\"entity\":" = "," ++ quote "entity" ++ ":" := by decide
  have hsensor : ",\"sensor\":" = "," ++ quote "sensor" ++ ":" := by decide
  have hvalue : ",\"value\":" = "," ++ quote "value" ++ ":" := by decide
  have hunit : ",\"unit\":" = "," ++ quote "unit" ++ ":" := by decide
  have hsource : ",\"source_ms\":" = "," ++ quote "source_ms" ++ ":" := by decide
  have hreceipt : ",\"receipt_ms\":" = "," ++ quote "receipt_ms" ++ ":" := by decide
  have hingestion : ",\"ingestion_ms\":" = "," ++ quote "ingestion_ms" ++ ":" := by decide
  exact objectText_eight hscope hentity hsensor hvalue hunit hsource hreceipt hingestion (.str "scope" r.scope.text)
    (.str "entity" r.entity.text) (.str "sensor" r.sensor.text) ⟨"value", r.value.toJson, .object r.value.fields⟩
    (.str "unit" r.unit.asStr) (.str "source_ms" (toString r.times.source))
    (.str "receipt_ms" (toString r.times.receipt)) (.str "ingestion_ms" (toString r.times.ingestion)) rfl

theorem Reading.parseObject_toJson (r : Reading) : parseObject r.toJson = .ok r.fields := by
  have hstr : ∀ key s, ReadsAs (parseValue 16) (Member.str key s).text (Member.str key s).val := by
    intro key s rest _
    exact parseValue_quote 15 s rest
  have hread : ReadsAs (parseValue 17) r.toJson (.object r.fields) := by
    rw [r.toJson_eq]
    refine parseValue_members ?_ r.insertMembers_fields
    intro m hm
    simp only [Reading.members, List.mem_cons, List.not_mem_nil, or_false] at hm
    rcases hm with rfl | rfl | rfl | rfl | rfl | rfl | rfl | rfl
    · exact hstr _ _
    · exact hstr _ _
    · exact hstr _ _
    · exact r.value.readsAs_toJson 14
    · exact hstr _ _
    · exact hstr _ _
    · exact hstr _ _
    · exact hstr _ _
  unfold parseObject
  rw [parse_of_readsAs hread]
  rfl

/-- The nested value, written out again from its fields, reads back. -/
theorem Value.fromJson_stringify {v : Value} (hv : v.Valid) : Value.fromJson (stringify (.object v.fields)) = .ok v := by
  have hread : parse (stringify (.object v.fields)) = .ok (.object v.fields) := by
    have hvalue := parse_of_readsAs (v.readsAs_toJson 15)
    exact parse_of_readsAs (parseValue_stringify (parse_eq_ok hvalue))
  apply Value.fromJson_of_fields hv
  unfold parseObject
  rw [hread]
  rfl

theorem parseMillis_eq {fields : List (String × JsonVal)} {name : String} {n : Int} (hn : Millis n)
    (h : fields.lookup name = some (.str (toString n))) : parseMillis fields name = .ok n := by
  unfold parseMillis getString
  rw [h]
  simp only [Result.ok_bind, parseI64_toString hn]

/-- A valid reading reads back. -/
theorem Reading.fromJson_toJson {r : Reading} (hr : r.Valid) : Reading.fromJson r.toJson = .ok r := by
  have hknown : rejectUnknown r.fields
      ["scope", "entity", "sensor", "value", "unit", "source_ms", "receipt_ms", "ingestion_ms"] = .ok () := rfl
  have hscope : getString r.fields "scope" = .ok r.scope.text := rfl
  have hentity : getString r.fields "entity" = .ok r.entity.text := rfl
  have hsensor : getString r.fields "sensor" = .ok r.sensor.text := rfl
  have hvalue : r.fields.lookup "value" = some (.object r.value.fields) := rfl
  have hunit : getString r.fields "unit" = .ok r.unit.asStr := rfl
  have hsource : parseMillis r.fields "source_ms" = .ok r.times.source := parseMillis_eq hr.times.source rfl
  have hreceipt : parseMillis r.fields "receipt_ms" = .ok r.times.receipt := parseMillis_eq hr.times.receipt rfl
  have hingestion : parseMillis r.fields "ingestion_ms" = .ok r.times.ingestion := parseMillis_eq hr.times.ingestion rfl
  have hscopeId : TrustedScope.parse r.scope.text = .ok r.scope := parseId_of_isId r.scope.valid
  have hentityId : InstalledId.parse r.entity.text = .ok r.entity := parseId_of_isId r.entity.valid
  have hsensorId : InstalledId.parse r.sensor.text = .ok r.sensor := parseId_of_isId r.sensor.valid
  unfold Reading.fromJson
  simp only [r.parseObject_toJson, hknown, hscope, hentity, hsensor, hvalue, hunit, hsource, hreceipt, hingestion,
    hscopeId, hentityId, hsensorId, Value.fromJson_stringify hr.value, MeasureUnit.parse_asStr hr.unit,
    TimeTriple.new_self, Result.ok_bind]

/-! ### The codecs -/

/-- Values and readings survive their encodings, and distinct values have distinct encodings. -/
structure ValueCodecs : Prop where
  value : ∀ v : Value, v.Valid → Value.fromJson v.toJson = .ok v
  distinct : ∀ v w : Value, v.Valid → w.Valid → v ≠ w → v.toJson ≠ w.toJson
  reading : ∀ r : Reading, r.Valid → Reading.fromJson r.toJson = .ok r

theorem value_codecs : ValueCodecs where
  value _ hv := Value.fromJson_toJson hv
  distinct _ _ hv hw hne h := hne (Value.toJson_injective hv hw h)
  reading _ hr := Reading.fromJson_toJson hr

end Verdant
