import Verdant.Action.JournalRead

/-!
# Journal rows and their columns

The row an admission commits is printed in list mode and decoded again.  The decoder has one text for two things: the
text `NULL` is a value where an identity is called so, and an absent column everywhere else.  The round trip is exact
but for such identities (`readBack_admission`), and the check for a partial identity never refuses
(`decodeRow_ne_partialIdentity`).
-/

namespace Verdant.Action

open Storage TextCodec

/-! ### List mode -/

/-- The column separator of the list mode. -/
def colSep : Char := Char.ofNat 0x1f

/-- The output of a read in list mode: one line a row, the raw column texts with the separator between them. -/
def printRows (rows : Rows) : String := joinText '\n' (rows.map (joinText colSep))

def readRows (output : String) : Rows := (splitText '\n' output).map (splitText colSep)

/-- Text the list mode prints and reads back as it is. -/
def Printable (text : String) : Prop := colSep ∉ text.toList ∧ '\n' ∉ text.toList

instance (text : String) : Decidable (Printable text) := by
  unfold Printable
  infer_instance

theorem readRows_printRows {rows : Rows} (hne : rows ≠ []) (h : ∀ row ∈ rows, row ≠ [] ∧ ∀ cell ∈ row, Printable cell) :
    readRows (printRows rows) = rows := by
  unfold readRows printRows
  rw [splitText_joinText _ (by simpa using hne)]
  · rw [List.map_map]
    refine (List.map_congr_left fun row hrow => ?_).trans (List.map_id rows)
    exact splitText_joinText (fun cell hcell => ((h row hrow).2 cell hcell).1) (h row hrow).1
  · intro line hline
    obtain ⟨row, hrow, rfl⟩ := List.mem_map.1 hline
    exact not_mem_joinText (by decide) fun cell hcell => ((h row hrow).2 cell hcell).2

theorem Printable.append {a b : String} (ha : Printable a) (hb : Printable b) : Printable (a ++ b) := by
  unfold Printable at *
  simp [ha, hb]

theorem printable_repr (n : Nat) : Printable (Nat.repr n) := by
  have hdigit : ∀ c ∈ (Nat.repr n).toList, c.isDigit = true := by
    intro c hc
    rw [Nat.toList_repr] at hc
    exact Nat.isDigit_of_mem_toDigits (by decide) (by decide) hc
  exact ⟨fun hc => absurd (hdigit _ hc) (by decide), fun hc => absurd (hdigit _ hc) (by decide)⟩

theorem printable_toString (n : Int) : Printable (toString n) := by
  cases n with
  | ofNat n => exact printable_repr n
  | negSucc n => exact Printable.append (a := "-") (by decide) (printable_repr (n + 1))

theorem printable_of_isId {raw : String} (h : IsId raw) : Printable raw := by
  have hall : ∀ c ∈ raw.toList, idChar c = true := List.all_eq_true.1 h.2.2
  exact ⟨fun hc => absurd (hall _ hc) (by decide), fun hc => absurd (hall _ hc) (by decide)⟩

theorem printable_actor {actor : String} (h : checkActor actor = .ok ()) : Printable actor := by
  unfold checkActor at h
  simp only [Result.ite_error_eq_ok, Bool.not_eq_true', Bool.not_eq_false] at h
  have hall : ∀ c ∈ actor.toList, idChar c = true := List.all_eq_true.1 h.2.2.1
  exact ⟨fun hc => absurd (hall _ hc) (by decide), fun hc => absurd (hall _ hc) (by decide)⟩

theorem printable_intercalate {sep : String} {parts : List String} (hsep : Printable sep)
    (h : ∀ part ∈ parts, Printable part) : Printable (String.intercalate sep parts) := by
  induction parts with
  | nil => exact ⟨by simp, by simp⟩
  | cons first rest ih =>
    have hfirst := h first List.mem_cons_self
    have hrest := ih fun part hpart => h part (List.mem_cons_of_mem _ hpart)
    cases rest with
    | nil => simpa using hfirst
    | cons second rest =>
      rw [String.intercalate_cons_cons]
      exact (hfirst.append hsep).append hrest

theorem printable_fixed4 (x : Binary64) : Printable x.fixed4 := by
  cases x with
  | finite q =>
    unfold Binary64.fixed4
    have hsign : Printable (if q < 0 then "-" else "") := by
      split
      · decide
      · decide
    have hzeros : ∀ n, Printable (String.ofList (List.replicate n '0')) := by
      intro n
      unfold Printable
      rw [String.toList_ofList]
      exact ⟨fun hc => absurd (List.eq_of_mem_replicate hc) (by decide),
        fun hc => absurd (List.eq_of_mem_replicate hc) (by decide)⟩
    exact (((hsign.append (printable_repr _)).append (by decide)).append (hzeros _)).append (printable_repr _)
  | infinite negative => cases negative <;> decide
  | nan => decide

/-- What a preview's unit and feedback are, whoever asked for it. -/
theorem preview_fixed {request : Preview.Request} {preview : Preview} (h : Preview.preview request = .ok preview) :
    preview.unit.asStr = "degC" ∧ preview.feedback = .pvReadback ∧ preview.timing = .synthetic := by
  unfold Preview.preview at h
  cases hwire : request.wireOverride
  all_goals
    rw [hwire] at h
    simp only [Result.bind_eq_ok] at h
    obtain ⟨-, -, target, -, -, -, priority, -, object, -, ⟨⟩, hunit, encoded, -, -, -, -, -, -, -, h⟩ := h
    cases h
    refine ⟨?_, rfl, rfl⟩
    by_contra hne
    have hsame := (if_neg hne).symm.trans hunit
    cases hsame

/-- The payload of a preview prints as it is. -/
theorem printable_canonicalBytes {request : Preview.Request} {preview : Preview}
    (h : Preview.preview request = .ok preview) : Printable preview.canonicalBytes := by
  obtain ⟨hunit, hfeedback, htiming⟩ := preview_fixed h
  unfold Preview.canonicalBytes
  rw [hunit, hfeedback, htiming]
  have hpriority : Printable s!"p{preview.priority}" := Printable.append (by decide) (printable_repr _)
  have hobject : Printable s!"av{preview.object.objectType}:pv{preview.object.propertyId}" :=
    ((Printable.append (by decide) (printable_repr _)).append (by decide)).append (printable_repr _)
  have hage : Printable s!"age{preview.preconditionAgeSecs}" := Printable.append (by decide) (printable_repr _)
  refine printable_intercalate (by decide) ?_
  intro part hpart
  simp only [List.mem_cons, List.not_mem_nil, or_false] at hpart
  rcases hpart with rfl | rfl | rfl | rfl | rfl | rfl | rfl | rfl | rfl | rfl | rfl | rfl | rfl | rfl | rfl | rfl
  · decide
  · exact printable_of_isId preview.target.scope.valid
  · exact printable_of_isId preview.target.equipment.valid
  · exact printable_repr _
  · exact printable_repr _
  · exact hpriority
  · exact hobject
  · decide
  · exact printable_fixed4 _
  · decide
  · decide
  · decide
  · decide
  · exact hage
  · decide
  · exact (by decide : Printable "null-relinquish")

/-! ### The check for a partial identity -/

/-- Some column absent or all columns there: there is no third case, so nothing is left to refuse. -/
theorem identity_partial_unreachable {α β γ δ : Type} (x : Option α) (y : Option β) (z : Option γ) (w : Option δ) :
    (!(x.isNone || y.isNone || z.isNone || w.isNone) && !(x.isSome && y.isSome && z.isSome && w.isSome)) = false := by
  cases x <;> cases y <;> cases z <;> cases w <;> rfl

theorem decodeIdentity_passes (wire kind release target : String) (base : Admitted) :
    decodeIdentity wire kind release target base = (do
      let wireBits ← nullableColumn "journal wire_bits" wire parseUInt32
      let actionKind ← nullableColumn "journal action kind" kind ActionKind.parse
      let releaseAdmitted ← nullableColumn "journal release admission" release parseBit
      let releaseTarget ← nullableColumn "journal release target" target fun s => (InstalledId.parse s).toOption
      .ok ⟨base.operation, base.scope, base.equipment, base.bindingRevision, base.acceptedRevision,
        base.expectedGeneration, base.targetGeneration, base.payload, base.deadlineSecs, base.ceiling, base.actor,
        base.attempt, base.reconciled, wireBits, actionKind, releaseAdmitted, releaseTarget, base.lifecycle,
        base.predecessor, base.createdSecs⟩) := by
  unfold decodeIdentity
  simp only [identity_partial_unreachable, Result.refuseIf, Bool.false_eq_true, if_false, Result.ok_bind]

/-- The error the check for a partial identity would report. -/
def partialIdentity : WriterError := .invalid "journal identity partial"

theorem require_ne_partialIdentity {α : Type} {what : String} (x : Option α) (h : what ≠ "journal identity partial") :
    Result.Fails (· ≠ partialIdentity) (require what x) := by
  cases x with
  | none => exact .error fun he => h (WriterError.invalid.inj he)
  | some a => exact .ok

theorem nullableColumn_ne_partialIdentity {α : Type} {what raw : String} {parse : String → Option α}
    (h : what ≠ "journal identity partial") : Result.Fails (· ≠ partialIdentity) (nullableColumn what raw parse) := by
  unfold nullableColumn
  cases parseNullable raw with
  | none => exact .ok
  | some text =>
    intro e he
    cases hparse : parse text with
    | none =>
      simp only [hparse, require, Except.map, Except.error.injEq] at he
      rw [← he]
      exact fun hpartial => h (WriterError.invalid.inj hpartial)
    | some a => simp [hparse, require, Except.map] at he

theorem refuseIf_ne_partialIdentity {c : Prop} [Decidable c] {e : WriterError} (h : e ≠ partialIdentity) :
    Result.Fails (· ≠ partialIdentity) (Result.refuseIf c e) := by
  unfold Result.refuseIf
  split
  · exact .error h
  · exact .ok

theorem checkActor_ne_partialIdentity (raw : String) : Result.Fails (· ≠ partialIdentity) (checkActor raw) := by
  unfold checkActor
  intro e he
  split at he
  · cases he; decide
  split at he
  · cases he; decide
  split at he
  · cases he; decide
  split at he
  · cases he; decide
  split at he
  · cases he; decide
  · exact nomatch he

theorem decodeBase_ne_partialIdentity (row : List String) (scope : TrustedScope) :
    Result.Fails (· ≠ partialIdentity) (decodeBase row scope) := by
  unfold decodeBase
  split
  · refine (require_ne_partialIdentity _ (by decide)).bind fun _ => ?_
    refine (refuseIf_ne_partialIdentity (by simp [partialIdentity])).bind fun _ => ?_
    refine (require_ne_partialIdentity _ (by decide)).bind fun _ => ?_
    refine (require_ne_partialIdentity _ (by decide)).bind fun _ => ?_
    refine (require_ne_partialIdentity _ (by decide)).bind fun _ => ?_
    refine (require_ne_partialIdentity _ (by decide)).bind fun _ => ?_
    refine (require_ne_partialIdentity _ (by decide)).bind fun _ => ?_
    refine (require_ne_partialIdentity _ (by decide)).bind fun _ => ?_
    refine (refuseIf_ne_partialIdentity (by decide)).bind fun _ => ?_
    refine (refuseIf_ne_partialIdentity (by decide)).bind fun _ => ?_
    refine (require_ne_partialIdentity _ (by decide)).bind fun _ => ?_
    refine (refuseIf_ne_partialIdentity (by decide)).bind fun _ => ?_
    refine (require_ne_partialIdentity _ (by decide)).bind fun _ => ?_
    refine (checkActor_ne_partialIdentity _).bind fun _ => ?_
    refine (require_ne_partialIdentity _ (by decide)).bind fun _ => ?_
    exact (refuseIf_ne_partialIdentity (by decide)).bind fun _ => .ok
  · exact .error (by decide)

theorem decodeIdentity_ne_partialIdentity (wire kind release target : String) (base : Admitted) :
    Result.Fails (· ≠ partialIdentity) (decodeIdentity wire kind release target base) := by
  rw [decodeIdentity_passes]
  refine (nullableColumn_ne_partialIdentity (by decide)).bind fun _ => ?_
  refine (nullableColumn_ne_partialIdentity (by decide)).bind fun _ => ?_
  refine (nullableColumn_ne_partialIdentity (by decide)).bind fun _ => ?_
  exact (nullableColumn_ne_partialIdentity (by decide)).bind fun _ => .ok

theorem decodeLifecycle_ne_partialIdentity (created lifecycle predecessor : String) (base : Admitted) :
    Result.Fails (· ≠ partialIdentity) (decodeLifecycle created lifecycle predecessor base) := by
  have hstate : ∀ raw, Result.Fails (· ≠ partialIdentity) (decodeLifecycleOrDefault raw) := by
    intro raw
    cases raw with
    | none => exact .ok
    | some text =>
      show Result.Fails _ (require "lifecycle state" (LifecycleState.parse text))
      exact require_ne_partialIdentity _ (by decide)
  unfold decodeLifecycle
  refine (require_ne_partialIdentity _ (by decide)).bind fun _ => ?_
  refine (hstate _).bind fun _ => ?_
  exact (nullableColumn_ne_partialIdentity (by decide)).bind fun _ => .ok

/-- No row is refused for a partial identity. -/
theorem decodeRow_ne_partialIdentity (row : List String) (scope : TrustedScope) :
    decodeRow row scope ≠ .error partialIdentity := by
  have hfails : Result.Fails (· ≠ partialIdentity) (decodeRow row scope) := by
    unfold decodeRow
    split
    · exact decodeBase_ne_partialIdentity row scope
    · exact (decodeBase_ne_partialIdentity _ scope).bind fun _ => decodeIdentity_ne_partialIdentity _ _ _ _ _
    · exact ((decodeBase_ne_partialIdentity _ scope).bind fun _ => (decodeIdentity_ne_partialIdentity _ _ _ _ _).bind fun _ =>
        decodeLifecycle_ne_partialIdentity _ _ _ _)
    · exact .error (by decide)
  exact fun h => hfails _ h rfl

/-! ### Rows whose identity is partial -/

/-- The columns `wire_bits`, `action_kind`, `release_admitted` and `release_target`. -/
def identityColumns (row : List String) : List String := (row.drop 13).take 4

/-- Some identity column is NULL and some is there. -/
def MixedIdentity (row : List String) : Prop :=
  (∃ cell ∈ identityColumns row, parseNullable cell = none) ∧ ∃ cell ∈ identityColumns row, parseNullable cell ≠ none

instance (row : List String) : Decidable (MixedIdentity row) := by
  unfold MixedIdentity
  infer_instance

/-- A row with its identity columns, of the 0005 or the 0006 shape. -/
def IdentityShape (row : List String) : Prop := row.length = 17 ∨ row.length = 20

instance (row : List String) : Decidable (IdentityShape row) := by
  unfold IdentityShape
  infer_instance

/-- The row decodes only where its identity is not mixed, and is refused as partial where it is. -/
def RefusesPartial (row : List String) (scope : TrustedScope) : Prop :=
  IdentityShape row → ((decodeRow row scope).isOk = true → ¬MixedIdentity row) ∧
    (MixedIdentity row → decodeRow row scope = .error partialIdentity)

/-- A row is handled so exactly when it is no mixed row of one of the two shapes. -/
theorem refuses_partial_iff (row : List String) (scope : TrustedScope) :
    RefusesPartial row scope ↔ ¬(IdentityShape row ∧ MixedIdentity row) := by
  constructor
  · rintro h ⟨hshape, hmixed⟩
    exact decodeRow_ne_partialIdentity row scope ((h hshape).2 hmixed)
  · intro h hshape
    have hmixed : ¬MixedIdentity row := fun hmixed => h ⟨hshape, hmixed⟩
    exact ⟨fun _ => hmixed, fun hpartial => absurd hpartial hmixed⟩

theorem mixedScope_valid : IsId "scope-a" := by decide

def mixedScope : TrustedScope := ⟨"scope-a", mixedScope_valid⟩

/-- A row of the 0005 shape with its bits and without its kind. -/
def mixedRow : List String :=
  ["op-1", "scope-a", "ahu-1", "1", "1", "0", "1", "payload", "5", "9", "operator", "op-1", "admitted", "1101004800",
    "", "0", "ahu-1"]

/-- The mixed row is decoded, and so neither only-uniform rows decode nor is every mixed row refused. -/
theorem partial_identity_decoded :
    (decodeRow mixedRow mixedScope).isOk = true ∧ ¬∀ row scope, RefusesPartial row scope := by
  have hok : (decodeRow mixedRow mixedScope).isOk = true := by decide +kernel
  have hmixed : MixedIdentity mixedRow := by decide +kernel
  exact ⟨hok, fun h => (h mixedRow mixedScope (by decide)).1 hok hmixed⟩

/-! ### The columns of an admitted row -/

/-- The admission as its row should read back. -/
def Admission.admitted (a : Admission) (created : Int) : Admitted where
  operation := a.operation
  scope := a.scope
  equipment := a.equipment
  bindingRevision := a.bindingRevision
  acceptedRevision := a.acceptedRevision
  expectedGeneration := a.expectedGeneration
  targetGeneration := a.targetGeneration
  payload := a.payload
  deadlineSecs := a.deadlineSecs
  ceiling := a.ceiling
  actor := a.actor
  attempt := a.attempt
  reconciled := false
  wireBits := some a.identity.wireBits
  actionKind := some a.identity.kind
  releaseAdmitted := some a.identity.releaseAdmitted
  releaseTarget := some a.identity.releaseTarget
  lifecycle := .admitted
  predecessor := a.predecessor
  createdSecs := created

/-- No identity of the nullable columns is called `NULL`. -/
def Admission.Named (a : Admission) : Prop :=
  a.identity.releaseTarget.text ≠ "NULL" ∧ ∀ old ∈ a.predecessor, old.text ≠ "NULL"

instance (a : Admission) : Decidable a.Named := by
  unfold Admission.Named
  infer_instance

theorem Admission.Named.predecessor_kept {a : Admission} (h : a.Named) :
    (a.predecessor.filter fun old => old.text ≠ "NULL") = a.predecessor := by
  cases hp : a.predecessor with
  | none => rfl
  | some old =>
    have hne := h.2 old hp
    simp [Option.filter, hne]

theorem parseNullable_of_isId {raw : String} (h : IsId raw) :
    parseNullable raw = if raw = "NULL" then none else some raw := by
  unfold parseNullable
  rw [stripQuotes_of_unquoted h.unquoted]
  by_cases hnull : raw = "NULL"
  · rw [if_pos (.inl hnull), if_pos hnull]
  · rw [if_neg (not_or.2 ⟨hnull, h.1⟩), if_neg hnull]

theorem nullableColumn_id {α : Type} {what raw : String} {parse : String → Option α} {a : α} (h : IsId raw)
    (hparse : parse raw = some a) : nullableColumn what raw parse = .ok (if raw = "NULL" then none else some a) := by
  unfold nullableColumn
  rw [parseNullable_of_isId h]
  by_cases hnull : raw = "NULL"
  · rw [if_pos hnull, if_pos hnull]
  · rw [if_neg hnull, if_neg hnull]
    simp only [hparse, require]
    rfl

theorem nullableColumn_wireBits (what : String) (bits : UInt32) :
    nullableColumn what (Nat.repr bits.toNat) parseUInt32 = .ok (some bits) := by
  have hparse := parseUInt32_repr bits
  have hnull : ¬(Nat.repr bits.toNat = "NULL" ∨ Nat.repr bits.toNat = "") := by
    have hnone : parseUInt32 "NULL" = none ∧ parseUInt32 "" = none := by decide
    rintro (h | h)
    · rw [h, hnone.1] at hparse
      exact nomatch hparse
    · rw [h, hnone.2] at hparse
      exact nomatch hparse
  unfold nullableColumn parseNullable
  rw [if_neg hnull, stripQuotes_of_unquoted (quote_not_mem_repr _)]
  simp only [hparse, require]
  rfl

theorem nullableColumn_predecessor (predecessor : Option OperationId) :
    nullableColumn "lifecycle predecessor" (nullable (predecessor.map OperationId.text))
        (fun s => (OperationId.parse (stripQuotes s)).toOption) =
      .ok (predecessor.filter fun old => old.text ≠ "NULL") := by
  cases predecessor with
  | none => rfl
  | some old =>
    have hparse : (OperationId.parse (stripQuotes old.text)).toOption = some old := by
      rw [stripQuotes_of_unquoted old.valid.unquoted, OperationId.parse_text]
      rfl
    simp only [Option.map_some, nullable, Option.getD_some]
    rw [nullableColumn_id old.valid hparse]
    by_cases hnull : old.text = "NULL"
    · simp [hnull, Option.filter]
    · simp [hnull, Option.filter]

theorem decodeBase_admission {a : Admission} (h : a.Checked) (created : Int) (l : Option LifecycleRow) :
    decodeBase (((a.row created).columns l).take 13) a.scope =
      .ok { a.admitted 0 with
        wireBits := none, actionKind := none, releaseAdmitted := none, releaseTarget := none, predecessor := none } := by
  have hcolumns : ((a.row created).columns l).take 13 = [a.operation.text, a.scope.text, a.equipment.text,
      Nat.repr a.bindingRevision.value.toNat, Nat.repr a.acceptedRevision.value.toNat,
      Nat.repr a.expectedGeneration.toNat, Nat.repr a.targetGeneration.toNat, a.payload, Nat.repr a.deadlineSecs,
      Nat.repr a.ceiling.toNat, a.actor, a.attempt.text, "admitted"] := rfl
  have hequipment : InstalledId.parse a.equipment.text = .ok a.equipment := parseId_of_isId a.equipment.valid
  have haccepted : AcceptedRevision.new a.acceptedRevision.value = some a.acceptedRevision :=
    dif_pos a.acceptedRevision.le_max
  have hsucc : checkedSucc a.expectedGeneration = some a.targetGeneration := by
    have hlt := a.targetGeneration.toNat_lt
    rw [h.succ] at hlt
    unfold checkedSucc
    rw [if_pos hlt, Option.some_inj, ← UInt32.toNat_inj, UInt32.toNat_add, h.succ]
    exact Nat.mod_eq_of_lt hlt
  have hdeadline : parseU64 (Nat.repr a.deadlineSecs) = some a.deadlineSecs := by
    rw [h.deadline]
    decide
  rw [hcolumns]
  simp only [decodeBase, OperationId.parse_text, hequipment, parseUInt32_repr, haccepted, hdeadline, parseUInt8_repr,
    h.actor, hsucc, Except.toOption, require, Result.ok_bind, Result.refuseIf, h.payload, if_false, not_true,
    ne_eq]
  rw [if_neg (not_not.2 (show a.deadlineSecs = deadlineSecs from h.deadline))]
  rfl

/-- What the columns of an admitted row decode to: an identity called `NULL` is lost, and only that. -/
theorem decodeRow_admission {a : Admission} (h : a.Checked) (created : Int64) {l : LifecycleRow}
    (hlink : l.predecessor = a.predecessor.map OperationId.text) :
    decodeRow ((a.row created.toInt).columns (some l)) a.scope =
      .ok { a.admitted created.toInt with
        releaseTarget := if a.identity.releaseTarget.text = "NULL" then none else some a.identity.releaseTarget
        lifecycle := l.state
        predecessor := a.predecessor.filter fun old => old.text ≠ "NULL" } := by
  have hdrop : ((a.row created.toInt).columns (some l)).drop 13 =
      [Nat.repr a.identity.wireBits.toNat, nullable ((some a.identity.kind).map ActionKind.asStr),
        nullable ((some a.identity.releaseAdmitted).map bitSql), a.identity.releaseTarget.text,
        toString created.toInt, l.state.asStr, nullable (a.predecessor.map OperationId.text)] := by
    rw [← hlink]
    rfl
  have htarget : nullableColumn "journal release target" a.identity.releaseTarget.text
      (fun s => (InstalledId.parse s).toOption) =
        .ok (if a.identity.releaseTarget.text = "NULL" then none else some a.identity.releaseTarget) := by
    refine nullableColumn_id a.identity.releaseTarget.valid ?_
    rw [InstalledId.parse, parseId_of_isId a.identity.releaseTarget.valid]
    rfl
  have hcreated : parseI64 (toString created.toInt) = some created.toInt := by
    rw [parseI64, parseInt_toString]
    exact Option.filter_eq_some_iff.2 ⟨rfl, decide_eq_true ⟨Int64.le_toInt created, Int64.toInt_lt created⟩⟩
  unfold decodeRow
  rw [hdrop]
  simp only [decodeBase_admission h, Result.ok_bind, decodeIdentity_passes, nullableColumn_wireBits,
    nullableColumn_kind, nullableColumn_bit, htarget, decodeLifecycle, hcreated, require, decode_asStr,
    nullableColumn_predecessor]
  rfl

theorem requireIdentical_admission (pending : PendingAdmission) (created : Int) (lifecycle : LifecycleState) :
    requireIdentical pending { pending.admission.admitted created with lifecycle := lifecycle } = .ok () := by
  simp [requireIdentical, Admission.admitted]

/-! ### The row of an operation in later states -/

/-- What a state still holds of a committed admission: its row, and the link of its lifecycle row. -/
structure Holds (a : Admission) (created : Int) (tables : JournalTables) : Prop where
  row : tables.findJournal a.operation.text = some (a.row created)
  link : ∃ l, tables.findLifecycle a.operation.text = some l ∧ l.predecessor = a.predecessor.map OperationId.text

theorem Holds.of_admits {a : Admission} {guardNow created : Int} {before after : JournalTables}
    (h : Admits a guardNow created before after) : Holds a created after := by
  obtain ⟨updated, rfl⟩ := h.after_eq
  have hrow := h.fresh
  have hlink := h.freshLifecycle
  rw [JournalTables.findJournal] at hrow
  rw [JournalTables.findLifecycle] at hlink
  refine ⟨?_, a.lifecycleRow updated, ?_, rfl⟩
  · simp [JournalTables.findJournal, JournalTables.admitted, List.find?_append, hrow]
  · simp [JournalTables.findLifecycle, JournalTables.admitted, List.find?_append, hlink]

theorem upsertLifecycleRow_link {row : LifecycleRow} {lifecycle : List LifecycleRow} {operation : String}
    {l : LifecycleRow} (h : (lifecycle.find? fun r => r.operation = operation) = some l) :
    ∃ l', ((upsertLifecycleRow row lifecycle).find? fun r => r.operation = operation) = some l' ∧
      l'.predecessor = l.predecessor := by
  unfold upsertLifecycleRow
  split
  · -- the upsert keeps the operation and the link of every row
    have hkeep : ((fun r : LifecycleRow => decide (r.operation = operation)) ∘ fun r : LifecycleRow =>
        if r.operation = row.operation then { r with state := row.state, updated := row.updated } else r) =
        fun r => decide (r.operation = operation) := by
      funext r
      simp only [Function.comp_apply]
      split <;> rfl
    rw [List.find?_map, hkeep, h]
    refine ⟨_, rfl, ?_⟩
    simp only
    split <;> rfl
  · exact ⟨l, by rw [List.find?_append, h]; rfl, rfl⟩

theorem Holds.step {a : Admission} {created : Int} {before after : JournalTables} (h : Holds a created before)
    (hstep : JournalStep before after) : Holds a created after := by
  obtain ⟨l, hl, hlink⟩ := h.link
  cases hstep with
  | same => exact h
  | admitted b guardNow created' _ _ hadmits =>
    obtain ⟨updated, rfl⟩ := hadmits.after_eq
    refine ⟨JournalTables.findJournal_admitted h.row, l, ?_, hlink⟩
    rw [JournalTables.findLifecycle] at hl
    simp [JournalTables.findLifecycle, JournalTables.admitted, List.find?_append, hl]
  | moved operation newState _ htransits =>
    obtain ⟨journal, updated, -, rfl⟩ := htransits
    refine ⟨h.row, ?_⟩
    obtain ⟨l', hl', hsame⟩ := upsertLifecycleRow_link hl
    exact ⟨l', hl', hsame.trans hlink⟩

theorem Holds.later {a : Admission} {created : Int} {tables later : JournalTables} (h : Holds a created tables)
    (hsteps : Relation.ReflTransGen JournalStep tables later) : Holds a created later := by
  induction hsteps with
  | refl => exact h
  | tail _ hstep ih => exact ih.step hstep

/-- The row of a held admission is the first one a read of it finds. -/
theorem Holds.head {a : Admission} {created : Int} {tables : JournalTables} (h : Holds a created tables) :
    (readRowWhere a.operation a.scope tables).head? = some (a.row created) := by
  obtain ⟨hkey, front, back, hjournal, hfront⟩ := List.find?_eq_some_iff_append.1 h.row
  unfold readRowWhere
  rw [List.head?_filter, List.find?_eq_some_iff_append]
  refine ⟨by simp [Admission.row], front, back, hjournal, fun r hr => ?_⟩
  have hother := hfront r hr
  simp only [Bool.not_eq_true', decide_eq_false_iff_not] at hother ⊢
  exact fun hboth => hother hboth.1

/-- A read of the operation while its row is held decodes the admitted columns. -/
theorem Holds.readAnswer {a : Admission} (hchecked : a.Checked) (hnamed : a.Named) {created : Int64} {m : Moment}
    {db : Database JournalTables} {found : Admitted} (h : Holds a created.toInt db.tables)
    (hread : readAnswer a.operation a.scope m db = .ok found) :
    ∃ lifecycle, found = { a.admitted created.toInt with lifecycle := lifecycle } := by
  obtain ⟨l, hl, hlink⟩ := h.link
  have hfirst := h.head
  unfold Action.readAnswer execScript at hread
  cases hfault : m.read with
  | some fault => simp [hfault] at hread
  | none =>
    simp only [hfault, readRowSql_rows] at hread
    obtain ⟨r, rest, hrows, hr⟩ : ∃ r rest, readRowWhere a.operation a.scope db.tables = r :: rest ∧
        r = a.row created.toInt := by
      cases hrows : readRowWhere a.operation a.scope db.tables with
      | nil => simp [hrows] at hfirst
      | cons r rest => exact ⟨r, rest, rfl, by simpa [hrows] using hfirst⟩
    rw [hrows, hr, List.map_cons] at hread
    have hdecode : decodeRow ((a.row created.toInt).columns (some l)) a.scope = .ok found := by
      rw [← hl]
      exact hread
    rw [decodeRow_admission hchecked created hlink, if_neg hnamed.1] at hdecode
    refine ⟨l.state, (Except.ok.inj hdecode).symm.trans ?_⟩
    rw [hnamed.predecessor_kept]
    rfl

/-! ### Round trip -/

/-- The claim for one prepared admission: its row reads back as admitted, printed in list mode, and once its batch has
committed, every later read of it passes the identical-retry comparison. -/
structure ReadsBack (pending : PendingAdmission) : Prop where
  exact : ∀ (created : Int64) (updated : Int),
    decodeFirst pending.admission.operation pending.admission.scope
        (readRows (printRows [(pending.admission.row created.toInt).columns
          (some (pending.admission.lifecycleRow updated))])) =
      .ok (pending.admission.admitted created.toInt)
  identical : ∀ (store : SqliteStore) (host : Host) (db later : Database JournalTables) (m : Moment) (found : Admitted),
    (submit store pending.ticket host db).1 ≠ db →
      Relation.ReflTransGen JournalStep (submit store pending.ticket host db).1.tables later.tables →
        readAnswer pending.admission.operation pending.admission.scope m later = .ok found →
          requireIdentical pending found = .ok ()

/-- The printed row of an admission reads back as its columns. -/
theorem readRows_admission {a : Admission} (h : a.Checked) (hpayload : Printable a.payload) (created : Int)
    (updated : Int) : readRows (printRows [(a.row created).columns (some (a.lifecycleRow updated))]) =
      [(a.row created).columns (some (a.lifecycleRow updated))] := by
  have hkind : ∀ kind : ActionKind, Printable kind.asStr := fun kind => by cases kind <;> decide
  have hbit : ∀ b, Printable (bitSql b) := fun b => by cases b <;> decide
  have hpredecessor : Printable (nullable (a.predecessor.map OperationId.text)) := by
    cases a.predecessor with
    | none => exact ⟨by simp [nullable], by simp [nullable]⟩
    | some old => exact printable_of_isId old.valid
  refine readRows_printRows (by simp) ?_
  intro row hrow
  obtain rfl := List.mem_singleton.1 hrow
  refine ⟨by simp [JournalRow.columns], ?_⟩
  intro cell hcell
  simp only [JournalRow.columns, List.mem_cons, List.not_mem_nil, or_false] at hcell
  rcases hcell with rfl | rfl | rfl | rfl | rfl | rfl | rfl | rfl | rfl | rfl | rfl | rfl | rfl | rfl | rfl | rfl | rfl |
    rfl | rfl | rfl
  · exact printable_of_isId a.operation.valid
  · exact printable_of_isId a.scope.valid
  · exact printable_of_isId a.equipment.valid
  · exact printable_repr _
  · exact printable_repr _
  · exact printable_repr _
  · exact printable_repr _
  · exact hpayload
  · exact printable_repr _
  · exact printable_repr _
  · exact printable_actor h.actor
  · exact printable_of_isId a.attempt.valid
  · decide
  · exact printable_repr _
  · exact hkind _
  · exact hbit _
  · exact printable_of_isId a.identity.releaseTarget.valid
  · exact printable_toString _
  · exact (by decide : Printable LifecycleState.admitted.asStr)
  · exact hpredecessor

/-- What the printed row of an admission decodes to. -/
theorem decodeFirst_admission {a : Admission} (h : a.Checked) (hpayload : Printable a.payload) (created : Int64)
    (updated : Int) :
    decodeFirst a.operation a.scope
        (readRows (printRows [(a.row created.toInt).columns (some (a.lifecycleRow updated))])) =
      .ok { a.admitted created.toInt with
        releaseTarget := if a.identity.releaseTarget.text = "NULL" then none else some a.identity.releaseTarget
        predecessor := a.predecessor.filter fun old => old.text ≠ "NULL" } := by
  rw [readRows_admission h hpayload]
  exact decodeRow_admission h created rfl

/-- The row of an admission is read back exactly only where no identity is called `NULL`. -/
theorem named_of_exact {a : Admission} (h : a.Checked) (hpayload : Printable a.payload)
    (hexact : decodeFirst a.operation a.scope
        (readRows (printRows [(a.row (0 : Int64).toInt).columns (some (a.lifecycleRow 0))])) =
      .ok (a.admitted (0 : Int64).toInt)) : a.Named := by
  rw [decodeFirst_admission h hpayload, Except.ok.injEq, Admitted.mk.injEq] at hexact
  obtain ⟨-, -, -, -, -, -, -, -, -, -, -, -, -, -, -, -, htarget, -, hpredecessor, -⟩ := hexact
  constructor
  · intro hnull
    rw [if_pos hnull] at htarget
    exact nomatch htarget
  · intro old hold
    have hkept : (a.predecessor.filter fun old => old.text ≠ "NULL") = some old := hpredecessor.trans hold
    simpa using (Option.filter_eq_some_iff.1 hkept).2

theorem askedEquipment_valid : IsId "ahu-1" := by decide
theorem askedRevision_le : (1 : UInt32) ≤ maxAccepted := by decide
theorem admittedOperation_valid : IsId "set-1" := by decide

/-- A SET of one target with the given release target. -/
def askedSet (target : InstalledId) : Preview.Request where
  scope := mixedScope
  equipment := ⟨"ahu-1", askedEquipment_valid⟩
  bindingRevision := ⟨1⟩
  acceptedRevision := ⟨1, askedRevision_le⟩
  bindingStatus := .valid
  ceiling := 9
  role := .publisher
  priority := some 8
  object := ⟨2, 85, none⟩
  unit := .known .degC
  requestedC := .ofBinary32 0x41AC0000
  wireOverride := none
  aliases := []
  precondition := ⟨0, 0, Nat.le_refl 0⟩
  sealOrder := ⟨true, true, true, none, none, true⟩
  releaseTarget := target
  releaseAdmitted := false

def admittedSet (preview : Preview) : AdmissionRequest where
  operation := ⟨"set-1", admittedOperation_valid⟩
  scope := mixedScope
  ceiling := 9
  role := .publisher
  actor := "operator"
  preview := preview
  expectedGeneration := 0
  predecessor := none

/-- The preview and the prepared admission of that SET. -/
def preparedSet (target : InstalledId) : Option (Preview × PendingAdmission) := do
  let preview ← (Preview.preview (askedSet target)).toOption
  let pending ← (prepareWithPredecessor ⟨"store", .tiny⟩ "storage-1-2-3" (admittedSet preview)).toOption
  some (preview, pending)

theorem preparedSet_eq_some {target : InstalledId} {out : Preview × PendingAdmission}
    (h : preparedSet target = some out) :
    Preview.preview (askedSet target) = .ok out.1 ∧
      prepareWithPredecessor ⟨"store", .tiny⟩ "storage-1-2-3" (admittedSet out.1) = .ok out.2 := by
  simp only [preparedSet, bind, Option.bind_eq_some_iff, toOption_eq_some] at h
  obtain ⟨preview, hpreview, pending, hpending, h⟩ := h
  cases h
  exact ⟨hpreview, hpending⟩

/-- An admission of a preview reads back, and its retries compare equal, exactly where no identity is called `NULL`. -/
theorem journal_round_trip {store : SqliteStore} {id : String} {request : AdmissionRequest} {asked : Preview.Request}
    {pending : PendingAdmission} (hpreview : Preview.preview asked = .ok request.preview)
    (hprepared : prepareWithPredecessor store id request = .ok pending) :
    ReadsBack pending ↔ pending.admission.Named := by
  obtain ⟨hcheck, hticket⟩ := prepareWithPredecessor_eq_ok hprepared
  obtain ⟨hchecked, -, targetGeneration, -, hadmission⟩ := AdmissionRequest.check_eq_ok hcheck
  have hpayload : Printable pending.admission.payload := by
    rw [hadmission]
    exact printable_canonicalBytes hpreview
  constructor
  · exact fun h => named_of_exact hchecked hpayload (h.exact 0 0)
  · intro hnamed
    refine ⟨fun created updated => ?_, fun store' host db later m found hcommitted hlater hread => ?_⟩
    · rw [decodeFirst_admission hchecked hpayload, if_neg hnamed.1, hnamed.predecessor_kept]
      rfl
    · rw [hticket] at hcommitted hlater
      rcases submit_admission store' store pending.admission host db with hsame | ⟨-, hadmits, -⟩
      · exact absurd hsame hcommitted
      · have hholds := (Holds.of_admits hadmits).later hlater
        obtain ⟨created, hcreated⟩ : ∃ created : Int64, createdReading pending.admission host = created.toInt :=
          ⟨_, rfl⟩
        rw [hcreated] at hholds
        obtain ⟨lifecycle, rfl⟩ := hholds.readAnswer hchecked hnamed hread
        exact requireIdentical_admission pending created.toInt lifecycle

theorem journal_round_trip_set : ∃ out, preparedSet ⟨"ahu-1", by decide⟩ = some out ∧ ReadsBack out.2 := by
  have hnamed : ((preparedSet ⟨"ahu-1", by decide⟩).any fun out => decide out.2.admission.Named) = true := by
    decide +kernel
  obtain ⟨out, hout, hnamed⟩ := (Option.any_eq_true _ _).1 hnamed
  obtain ⟨hpreview, hprepared⟩ := preparedSet_eq_some hout
  exact ⟨out, hout, (journal_round_trip hpreview hprepared).2 (of_decide_eq_true hnamed)⟩

/-- The SET whose release target is called `NULL` does not read back. -/
theorem journal_round_trip_broken : ∃ out, preparedSet ⟨"NULL", by decide⟩ = some out ∧ ¬ReadsBack out.2 := by
  have hnull : ((preparedSet ⟨"NULL", by decide⟩).any fun out => decide ¬out.2.admission.Named) = true := by
    decide +kernel
  obtain ⟨out, hout, hnull⟩ := (Option.any_eq_true _ _).1 hnull
  obtain ⟨hpreview, hprepared⟩ := preparedSet_eq_some hout
  obtain ⟨hcheck, -⟩ := prepareWithPredecessor_eq_ok hprepared
  obtain ⟨hchecked, -, targetGeneration, -, hadmission⟩ := AdmissionRequest.check_eq_ok hcheck
  have hpayload : Printable out.2.admission.payload := by
    rw [hadmission]
    exact printable_canonicalBytes hpreview
  exact ⟨out, hout, fun h => of_decide_eq_true hnull (named_of_exact hchecked hpayload (h.exact 0 0))⟩

end Verdant.Action
