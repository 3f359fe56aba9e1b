import Verdant.Domain.JsonValues
import Verdant.Domain.Values

/-!
# Values and their texts

Each kind of value is written as an object of strings, or of one boolean.  The decoder reads the value back from the
fields of that object, in whatever order they were written (`fromJson_of_fields`), so the encoding is injective on the
values built from valid parts.
-/

namespace Verdant

open TextCodec Json

/-! ### Values built from valid parts -/

/-- The label is one the mode reader returned. -/
def OpMode.Parsed (m : OpMode) : Prop := ∃ raw, OpMode.parse raw = .ok m

/-- A value built from valid parts: an `i128` and a parsed mode; the other parts carry their own proofs. -/
def Value.Valid : Value → Prop
  | .integer n => -2 ^ 127 ≤ n ∧ n < 2 ^ 127
  | .mode m => m.Parsed
  | _ => True

theorem OpMode.parse_asStr {m : OpMode} (h : m.Parsed) : OpMode.parse m.asStr = .ok m := by
  obtain ⟨raw, hraw⟩ := h
  have hsame : m.asStr = raw := by
    unfold OpMode.parse at hraw
    split_ifs at hraw with h1 h2 h3 h4 h5
    · cases hraw
      exact h3.symm
    · cases hraw
      exact h4.symm
    · cases hraw
      exact h5.symm
    · cases hraw
      rfl
  rw [hsame, hraw]

theorem Decimal.parse_text (d : Decimal) : Decimal.parse d.text = .ok d := by
  obtain ⟨hne, hlen, hlexical⟩ := d.valid
  unfold Decimal.parse
  rw [dif_neg hne, dif_pos hlen, dif_pos hlexical]

theorem parseI128_toString {n : Int} (h : -2 ^ 127 ≤ n ∧ n < 2 ^ 127) : parseI128 (toString n) = some n := by
  unfold parseI128
  rw [parseInt_toString, Option.filter_some, decide_eq_true h, if_pos rfl]

/-! ### The object of a value -/

/-- A member whose value is a string. -/
def Json.Member.str (key s : String) : Member := ⟨key, quote s, .str s⟩

/-- The members of a value, in the order they are written. -/
def Value.members : Value → List Member
  | .missing => [.str "type" "missing"]
  | .bool b => [.str "type" "bool", ⟨"value", if b then "true" else "false", .bool b⟩]
  | .integer n => [.str "type" "integer", .str "value" (toString n)]
  | .decimal d => [.str "type" "decimal", .str "value" d.text]
  | .text s => [.str "type" "text", .str "value" s]
  | .mode m => [.str "type" "mode", .str "value" m.asStr]
  | .diagnostic (.invalid detail) => [.str "type" "diagnostic", .str "kind" "invalid", .str "detail" detail]
  | .diagnostic d => [.str "type" "diagnostic", .str "kind" d.kind]

/-- The fields of a value as a reader of its text holds them. -/
def Value.fields : Value → List (String × JsonVal)
  | .missing => [("type", .str "missing")]
  | .bool b => [("type", .str "bool"), ("value", .bool b)]
  | .integer n => [("type", .str "integer"), ("value", .str (toString n))]
  | .decimal d => [("type", .str "decimal"), ("value", .str d.text)]
  | .text s => [("type", .str "text"), ("value", .str s)]
  | .mode m => [("type", .str "mode"), ("value", .str m.asStr)]
  | .diagnostic (.invalid detail) => [("detail", .str detail), ("kind", .str "invalid"), ("type", .str "diagnostic")]
  | .diagnostic d => [("kind", .str d.kind), ("type", .str "diagnostic")]

theorem Value.fields_sorted (v : Value) : (v.fields.map Prod.fst).Pairwise (· < ·) := by
  have hpair : ∀ a b : String, a < b → [a, b].Pairwise (· < ·) := by
    intro a b h
    simpa using h
  cases v with
  | diagnostic d =>
    cases d with
    | invalid detail =>
      show ["detail", "kind", "type"].Pairwise (· < ·)
      decide
    | _ => exact hpair "kind" "type" (by decide)
  | missing => simp [Value.fields]
  | _ => exact hpair "type" "value" (by decide)

theorem Value.insertMembers_fields (v : Value) : insertMembers [] (v.members.map Member.field) = some v.fields := by
  have hkind : "kind" < "type" := by decide
  have hdetail : "detail" < "kind" := by decide
  have hsorted := v.fields_sorted
  cases v with
  | diagnostic d =>
    -- the members are written with the type first
    cases d <;> simp [Value.members, Value.fields, Member.str, Member.field, insertMembers, insertField, hkind, hdetail]
  | _ => exact insertMembers_sorted hsorted

/-- The frozen shape of a value with one string field is the object of its two members. -/
private theorem objectText_tagged {kind name s : String}
    (h : "\x7b" ++ quote "type" ++ ":" ++ quote kind ++ "," ++ quote name ++ ":" =
      "\x7b\"type\":\"" ++ kind ++ "\",\"" ++ name ++ "\":") :
    "\x7b\"type\":\"" ++ kind ++ "\",\"" ++ name ++ "\":" ++ quote s ++ "\x7d" =
      objectText [.str "type" kind, .str name s] := by
  rw [← h]
  simp only [objectText, membersText, Member.str, if_true, Bool.false_eq_true, if_false, String.append_assoc,
    String.empty_append, String.append_empty]

theorem Value.toJson_eq (v : Value) : v.toJson = objectText v.members := by
  cases v with
  | missing => decide
  | bool b => cases b <;> decide
  | integer n => exact objectText_tagged (by decide)
  | decimal d => exact objectText_tagged (by decide)
  | text s => exact objectText_tagged (by decide)
  | mode m => exact objectText_tagged (by decide)
  | diagnostic d =>
    cases d with
    | invalid detail =>
      have hfront : "\x7b\"type\":\"diagnostic\",\"kind\":\"invalid\",\"detail\":" =
          "\x7b" ++ quote "type" ++ ":" ++ quote "diagnostic" ++ "," ++ quote "kind" ++ ":" ++ quote "invalid" ++ "," ++
            quote "detail" ++ ":" := by
        decide
      refine (congrArg (· ++ quote detail ++ "\x7d") hfront).trans ?_
      simp only [Value.members, objectText, membersText, Member.str, if_true, Bool.false_eq_true, if_false,
        String.append_assoc, String.empty_append, String.append_empty]
    | positiveInfinity => exact objectText_tagged (by decide)
    | negativeInfinity => exact objectText_tagged (by decide)
    | notANumber => exact objectText_tagged (by decide)

theorem Value.readsAs_members (v : Value) (budget : Nat) {m : Member} (hm : m ∈ v.members) :
    ReadsAs (parseValue (budget + 1)) m.text m.val := by
  have hstr : ∀ key s, ReadsAs (parseValue (budget + 1)) (Member.str key s).text (Member.str key s).val := by
    intro key s rest _
    exact parseValue_quote budget s rest
  have hbool : ∀ b : Bool, ReadsAs (parseValue (budget + 1)) (if b then "true" else "false") (.bool b) := by
    intro b
    have hread := parseValue_stringify (.bool budget b)
    cases b <;> exact hread
  cases v with
  | bool b =>
    simp only [Value.members, List.mem_cons, List.not_mem_nil, or_false] at hm
    rcases hm with rfl | rfl
    · exact hstr "type" "bool"
    · exact hbool b
  | diagnostic d =>
    cases d
    all_goals
      simp only [Value.members, List.mem_cons, List.not_mem_nil, or_false] at hm
      rcases hm with rfl | rfl | rfl <;> exact hstr _ _
  | missing =>
    rw [List.mem_singleton.1 hm]
    exact hstr _ _
  | _ =>
    simp only [Value.members, List.mem_cons, List.not_mem_nil, or_false] at hm
    rcases hm with rfl | rfl <;> exact hstr _ _

/-- The text of a value is read as the object of its fields, at any depth but the last. -/
theorem Value.readsAs_toJson (v : Value) (budget : Nat) :
    ReadsAs (parseValue (budget + 2)) v.toJson (.object v.fields) := by
  rw [v.toJson_eq]
  exact parseValue_members (fun m hm => v.readsAs_members budget hm) v.insertMembers_fields

/-! ### Decoding -/

/-- A text whose object has the fields of a value decodes to that value. -/
theorem Value.fromJson_of_fields {v : Value} (hv : v.Valid) {text : String} (h : parseObject text = .ok v.fields) :
    Value.fromJson text = .ok v := by
  unfold Value.fromJson
  rw [h, Result.ok_bind]
  cases v with
  | missing => rfl
  | bool b => rfl
  | integer n =>
    have hn := parseI128_toString hv
    simp only [Value.fields]
    generalize toString n = raw at hn ⊢
    simp [getString, rejectUnknown, List.lookup, hn]
  | decimal d =>
    have hd := d.parse_text
    simp [Value.fields, getString, rejectUnknown, List.lookup, hd]
  | text s => rfl
  | mode m =>
    have hm := OpMode.parse_asStr hv
    simp [Value.fields, getString, rejectUnknown, List.lookup, hm]
  | diagnostic d => cases d <;> rfl

theorem Value.parseObject_toJson (v : Value) : parseObject v.toJson = .ok v.fields := by
  unfold parseObject
  rw [parse_of_readsAs (v.readsAs_toJson 15)]
  rfl

/-- A value built from valid parts reads back. -/
theorem Value.fromJson_toJson {v : Value} (hv : v.Valid) : Value.fromJson v.toJson = .ok v :=
  Value.fromJson_of_fields hv v.parseObject_toJson

/-! ### Canonical labels -/

/-- An unknown label that is neither empty, nor long, nor the label of a known mode. -/
def OpMode.Canonical : OpMode → Prop
  | .unknown raw => raw ≠ "" ∧ raw.utf8ByteSize ≤ 128 ∧ raw ≠ "occupied" ∧ raw ≠ "unoccupied" ∧ raw ≠ "standby"
  | _ => True

instance (m : OpMode) : Decidable m.Canonical := by
  unfold OpMode.Canonical
  cases m <;> infer_instance

theorem OpMode.parse_asStr_iff {m : OpMode} : OpMode.parse m.asStr = .ok m ↔ m.Canonical := by
  cases m with
  | unknown raw =>
    unfold OpMode.Canonical OpMode.asStr OpMode.parse
    by_cases hempty : raw = ""
    · simp [hempty]
    by_cases hlong : raw.utf8ByteSize > 128
    · simp [hempty, hlong]
    by_cases hknown : raw = "occupied" ∨ raw = "unoccupied" ∨ raw = "standby"
    · rcases hknown with rfl | rfl | rfl <;> decide
    · obtain ⟨h1, h2, h3⟩ : raw ≠ "occupied" ∧ raw ≠ "unoccupied" ∧ raw ≠ "standby" := by simpa using hknown
      simp [hempty, h1, h2, h3]
  | _ => decide

/-- The mode of a value, if it is one, has a canonical label. -/
def Value.Canonical : Value → Prop
  | .mode m => m.Canonical
  | _ => True

instance (v : Value) : Decidable v.Canonical := by
  unfold Value.Canonical
  cases v <;> infer_instance

/-- An integer value is an `i128`. -/
def Value.InRange : Value → Prop
  | .integer n => -2 ^ 127 ≤ n ∧ n < 2 ^ 127
  | _ => True

theorem Value.fromJson_mode (m : OpMode) :
    Value.fromJson (Value.mode m).toJson = (OpMode.parse m.asStr).map .mode := by
  unfold Value.fromJson
  rw [Value.parseObject_toJson, Result.ok_bind]
  cases hparse : OpMode.parse m.asStr <;>
    simp [Value.fields, getString, rejectUnknown, List.lookup, hparse, Except.map]

/-- A value reads back exactly when its label is canonical. -/
theorem Value.fromJson_toJson_iff {v : Value} (hv : v.InRange) : Value.fromJson v.toJson = .ok v ↔ v.Canonical := by
  cases v with
  | mode m =>
    have hparse : (OpMode.parse m.asStr).map Value.mode = .ok (.mode m) ↔ OpMode.parse m.asStr = .ok m := by
      cases OpMode.parse m.asStr with
      | error e => simp [Except.map]
      | ok parsed => simp [Except.map]
    rw [Value.fromJson_mode, hparse, OpMode.parse_asStr_iff]
    rfl
  | integer n => exact ⟨fun _ => trivial, fun _ => Value.fromJson_toJson hv⟩
  | _ => exact ⟨fun _ => trivial, fun _ => Value.fromJson_toJson trivial⟩

theorem Value.toJson_injective {v w : Value} (hv : v.Valid) (hw : w.Valid) (h : v.toJson = w.toJson) : v = w := by
  have hread := Value.fromJson_toJson hv
  rw [h, Value.fromJson_toJson hw] at hread
  exact (Except.ok.inj hread).symm

end Verdant
