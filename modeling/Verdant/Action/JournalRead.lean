import Verdant.Action.JournalLaw

/-!
# What a journal read returns

A row that decodes agrees with the durable columns it was printed from (`Reads`).  The older shapes are never read: the
tables have every column, so the first read of `readRow` decides (`readRow_answer`).
-/

namespace Verdant.Action

open Storage TextCodec

/-! ### Columns -/

theorem require_eq_ok {α : Type} {what : String} {x : Option α} {a : α} : require what x = .ok a ↔ x = some a := by
  cases x <;> simp [require]

theorem toOption_eq_some {ε α : Type} {x : Except ε α} {a : α} : x.toOption = some a ↔ x = .ok a := by
  cases x <;> simp [Except.toOption]

theorem toNat_of_parseUInt32 {n : Nat} {v : UInt32} (h : parseUInt32 (Nat.repr n) = some v) : v.toNat = n := by
  simp only [parseUInt32, parseU32, parseNat_repr, Option.map_eq_some_iff] at h
  obtain ⟨m, hm, rfl⟩ := h
  rw [Option.filter_eq_some_iff] at hm
  obtain ⟨hm, hlt⟩ := hm
  cases hm
  rw [decide_eq_true_eq] at hlt
  exact Nat.mod_eq_of_lt hlt

theorem InstalledId.text_of_parse {raw : String} {id : InstalledId} (h : InstalledId.parse raw = .ok id) :
    id.text = raw := by
  unfold InstalledId.parse parseId at h
  split at h
  · exact nomatch h
  · cases h
    rfl

/-- A nullable column that decodes to a value carries the text of that value. -/
theorem nullableColumn_some {α : Type} {what raw : String} {parse : String → Option α} {a : α}
    (h : nullableColumn what raw parse = .ok (some a)) :
    raw ≠ "" ∧ raw ≠ "NULL" ∧ parse (stripQuotes raw) = some a := by
  unfold nullableColumn parseNullable at h
  by_cases hnull : raw = "NULL" ∨ raw = ""
  · simp [hnull] at h
  · rw [if_neg hnull] at h
    rw [not_or] at hnull
    refine ⟨hnull.2, hnull.1, ?_⟩
    cases hparse : parse (stripQuotes raw) with
    | none => simp [hparse, require, Except.map] at h
    | some b => simpa [hparse, require, Except.map] using h

theorem nullableColumn_none {α : Type} {what raw : String} {parse : String → Option α}
    (h : nullableColumn what raw parse = .ok none) : raw = "NULL" ∨ raw = "" := by
  unfold nullableColumn parseNullable at h
  by_contra hnull
  rw [if_neg hnull] at h
  cases hparse : parse (stripQuotes raw) <;> simp [hparse, require, Except.map] at h

theorem stripQuotes_of_unquoted {raw : String} (h : '\'' ∉ raw.toList) : stripQuotes raw = raw := by
  unfold stripQuotes
  split
  · rename_i rest hlist
    rw [hlist] at h
    exact absurd List.mem_cons_self h
  · rfl

/-! ### Rows -/

/-- A decoded row agrees with the durable row and lifecycle row it was read from. -/
structure Reads (r : JournalRow) (l : Option LifecycleRow) (scope : TrustedScope) (found : Admitted) : Prop where
  operation : found.operation.text = r.operation
  scope_eq : found.scope = scope ∧ r.scope = scope.text
  equipment : found.equipment.text = r.equipment
  bindingRevision : found.bindingRevision.value.toNat = r.bindingRevision
  acceptedRevision : found.acceptedRevision.value.toNat = r.acceptedRevision
  expectedGeneration : found.expectedGeneration.toNat = r.expectedGeneration
  targetGeneration : found.targetGeneration.toNat = r.targetGeneration
  successor : found.targetGeneration.toNat = found.expectedGeneration.toNat + 1
  payload : found.payload = r.payload
  deadline : found.deadlineSecs = deadlineSecs
  actor : found.actor = r.actor
  attempt : found.attempt.text = r.attempt
  wireBits : ∀ bits, found.wireBits = some bits → r.wireBits = some bits.toNat
  actionKind : found.actionKind = r.actionKind
  releaseAdmitted : found.releaseAdmitted = r.releaseAdmitted
  releaseTarget : ∀ target, found.releaseTarget = some target → ∃ text, r.releaseTarget = some text ∧
    ('\'' ∉ text.toList → target.text = text)
  lifecycle : found.lifecycle = (l.map LifecycleRow.state).getD .admitted
  created : found.createdSecs = r.created

private theorem decodeBase_reads {r : JournalRow} {l : Option LifecycleRow} {scope : TrustedScope} {base : Admitted}
    (h : decodeBase ((r.columns l).take 13) scope = .ok base) :
    base.operation.text = r.operation ∧ (base.scope = scope ∧ r.scope = scope.text) ∧
      base.equipment.text = r.equipment ∧ base.bindingRevision.value.toNat = r.bindingRevision ∧
      base.acceptedRevision.value.toNat = r.acceptedRevision ∧
      base.expectedGeneration.toNat = r.expectedGeneration ∧ base.targetGeneration.toNat = r.targetGeneration ∧
      base.targetGeneration.toNat = base.expectedGeneration.toNat + 1 ∧ base.payload = r.payload ∧
      base.deadlineSecs = deadlineSecs ∧ base.actor = r.actor ∧ base.attempt.text = r.attempt := by
  have hcolumns : (r.columns l).take 13 = [r.operation, r.scope, r.equipment, Nat.repr r.bindingRevision,
      Nat.repr r.acceptedRevision, Nat.repr r.expectedGeneration, Nat.repr r.targetGeneration, r.payload,
      Nat.repr r.deadlineSecs, Nat.repr r.ceiling, r.actor, r.attempt, "admitted"] := rfl
  rw [hcolumns] at h
  simp only [decodeBase, Result.bind_eq_ok, require_eq_ok, toOption_eq_some, Result.refuseIf_eq_ok, not_not] at h
  obtain ⟨operation, hoperation, -, hscope, equipment, hequipment, binding, hbinding, accepted, haccepted, revision,
    hrevision, expected, hexpected, target, htarget, -, hsucc, -, -, deadline, -, -, hdeadline, ceiling, -, -, -,
    attempt, hattempt, -, -, hbase⟩ := h
  cases hbase
  refine ⟨OperationId.text_of_parse hoperation, ⟨rfl, hscope⟩, InstalledId.text_of_parse hequipment,
    toNat_of_parseUInt32 hbinding, ?_, toNat_of_parseUInt32 hexpected, toNat_of_parseUInt32 htarget,
    toNat_of_checkedSucc hsucc, rfl, hdeadline, rfl, OperationId.text_of_parse hattempt⟩
  have hvalue : revision.value = accepted := by
    unfold AcceptedRevision.new at hrevision
    split at hrevision
    · cases hrevision
      rfl
    · cases hrevision
  rw [hvalue]
  exact toNat_of_parseUInt32 haccepted

private theorem decodeIdentity_eq_ok {wire kind release target : String} {base found : Admitted}
    (h : decodeIdentity wire kind release target base = .ok found) :
    nullableColumn "journal wire_bits" wire parseUInt32 = .ok found.wireBits ∧
      nullableColumn "journal action kind" kind ActionKind.parse = .ok found.actionKind ∧
      nullableColumn "journal release admission" release parseBit = .ok found.releaseAdmitted ∧
      nullableColumn "journal release target" target (fun s => (InstalledId.parse s).toOption) =
        .ok found.releaseTarget ∧
      found = { base with
        wireBits := found.wireBits
        actionKind := found.actionKind
        releaseAdmitted := found.releaseAdmitted
        releaseTarget := found.releaseTarget } := by
  simp only [decodeIdentity, Result.bind_eq_ok] at h
  obtain ⟨wireBits, hwire, actionKind, hkind, releaseAdmitted, hrelease, releaseTarget, htarget, -, -, hfound⟩ := h
  cases hfound
  exact ⟨hwire, hkind, hrelease, htarget, rfl⟩

private theorem decodeLifecycle_eq_ok {created lifecycle predecessor : String} {base found : Admitted}
    (h : decodeLifecycle created lifecycle predecessor base = .ok found) :
    parseI64 created = some found.createdSecs ∧
      decodeLifecycleOrDefault (parseNullable lifecycle) = .ok found.lifecycle ∧
      nullableColumn "lifecycle predecessor" predecessor (fun s => (OperationId.parse (stripQuotes s)).toOption) =
        .ok found.predecessor ∧
      found = { base with
        createdSecs := found.createdSecs
        lifecycle := found.lifecycle
        predecessor := found.predecessor } := by
  simp only [decodeLifecycle, Result.bind_eq_ok, require_eq_ok] at h
  obtain ⟨created, hcreated, lifecycle, hlifecycle, predecessor, hpredecessor, hfound⟩ := h
  cases hfound
  exact ⟨hcreated, hlifecycle, hpredecessor, rfl⟩

theorem decode_asStr (state : LifecycleState) :
    decodeLifecycleOrDefault (parseNullable state.asStr) = .ok state := by
  cases state <;> decide

theorem nullableColumn_kind (what : String) (kind : Option ActionKind) :
    nullableColumn what (nullable (kind.map ActionKind.asStr)) ActionKind.parse = .ok kind := by
  rcases kind with _ | kind
  · rfl
  · cases kind <;> rfl

theorem nullableColumn_bit (what : String) (bit : Option Bool) :
    nullableColumn what (nullable (bit.map bitSql)) parseBit = .ok bit := by
  rcases bit with _ | bit
  · rfl
  · cases bit <;> rfl

theorem quote_not_mem_repr (n : Nat) : '\'' ∉ (Nat.repr n).toList := by
  rw [Nat.toList_repr]
  intro hc
  have := Nat.isDigit_of_mem_toDigits (b := 10) (by decide) (by decide) hc
  simp [Char.isDigit] at this

theorem decodeRow_reads {r : JournalRow} {l : Option LifecycleRow} {scope : TrustedScope} {found : Admitted}
    (h : decodeRow (r.columns l) scope = .ok found) : Reads r l scope found := by
  have hdrop : (r.columns l).drop 13 = [nullable (r.wireBits.map Nat.repr),
      nullable (r.actionKind.map ActionKind.asStr), nullable (r.releaseAdmitted.map bitSql), nullable r.releaseTarget,
      toString r.created, ((l.map LifecycleRow.state).getD .admitted).asStr,
      nullable (l.bind LifecycleRow.predecessor)] := rfl
  unfold decodeRow at h
  rw [hdrop] at h
  simp only at h
  obtain ⟨base, hbase, h⟩ := Result.bind_eq_ok.1 h
  obtain ⟨identified, hidentity, hlifecycle⟩ := Result.bind_eq_ok.1 h
  obtain ⟨hoperation, hscope, hequipment, hbinding, haccepted, hexpected, htarget, hsucc, hpayload, hdeadline, hactor,
    hattempt⟩ := decodeBase_reads hbase
  obtain ⟨hwire, hkind, hrelease, hreleaseTarget, hidentified⟩ := decodeIdentity_eq_ok hidentity
  obtain ⟨hcreated, hstate, -, hfound⟩ := decodeLifecycle_eq_ok hlifecycle
  rw [decode_asStr] at hstate
  rw [hfound, hidentified]
  refine ⟨hoperation, hscope, hequipment, hbinding, haccepted, hexpected, htarget, hsucc, hpayload, hdeadline, hactor,
    hattempt, ?_, ?_, ?_, ?_, (Except.ok.inj hstate).symm, ?_⟩
  · intro bits hbits
    simp only at hbits
    rw [hbits] at hwire
    obtain ⟨hne, -, hparse⟩ := nullableColumn_some hwire
    cases hr : r.wireBits with
    | none => simp [hr, nullable] at hne
    | some n =>
      simp only [hr, nullable, Option.map_some, Option.getD_some] at hparse
      rw [stripQuotes_of_unquoted (quote_not_mem_repr n)] at hparse
      rw [toNat_of_parseUInt32 hparse]
  · rw [nullableColumn_kind] at hkind
    exact (Except.ok.inj hkind).symm
  · rw [nullableColumn_bit] at hrelease
    exact (Except.ok.inj hrelease).symm
  · intro target htarget
    simp only at htarget
    rw [htarget] at hreleaseTarget
    obtain ⟨hne, -, hparse⟩ := nullableColumn_some hreleaseTarget
    cases hr : r.releaseTarget with
    | none => simp [hr, nullable] at hne
    | some text =>
      refine ⟨text, rfl, fun hquote => ?_⟩
      simp only [hr, nullable, Option.getD_some] at hparse
      rw [stripQuotes_of_unquoted hquote, toOption_eq_some] at hparse
      exact InstalledId.text_of_parse hparse
  · simp only [parseI64, parseInt_toString, Option.filter_eq_some_iff] at hcreated
    exact (Option.some.inj hcreated.1).symm

/-! ### Reads of the store -/

theorem readRowSql_rows (operation : OperationId) (scope : TrustedScope) (now : Int) (db : Database JournalTables) :
    (readRowSql operation scope).rows now db = .ok ((readRowWhere operation scope db.tables).map fun r =>
      r.columns (db.tables.findLifecycle r.operation)) := rfl

theorem readRowSql_schema {operation : OperationId} {scope : TrustedScope} {m : Moment}
    {db : Database JournalTables} {e : StorageError} (h : execScript m (readRowSql operation scope) db = .error e) :
    e.missingSchema = false := by
  unfold execScript at h
  split at h
  · rename_i fault hfault
    cases h
    exact fault.schema_present
  · rw [readRowSql_rows] at h
    exact nomatch h

/-- What a read of one row returns: the store's failure, or the decoded row. -/
def readAnswer (operation : OperationId) (scope : TrustedScope) (m : Moment) (db : Database JournalTables) :
    Except WriterError Admitted :=
  match execScript m (readRowSql operation scope) db with
  | .ok rows => decodeFirst operation scope rows
  | .error e => .error (.ofStorage e)

/-- A row that was read is the first row of its operation and scope. -/
theorem readAnswer_eq_ok {operation : OperationId} {scope : TrustedScope} {m : Moment} {db : Database JournalTables}
    {found : Admitted} (h : readAnswer operation scope m db = .ok found) :
    ∃ r ∈ db.tables.journal, r.operation = operation.text ∧ r.scope = scope.text ∧
      Reads r (db.tables.findLifecycle r.operation) scope found := by
  unfold readAnswer execScript at h
  cases hfault : m.read with
  | some fault => simp [hfault] at h
  | none =>
    simp only [hfault, readRowSql_rows] at h
    cases hrows : readRowWhere operation scope db.tables with
    | nil => simp [hrows, decodeFirst] at h
    | cons r rest =>
      rw [hrows] at h
      have hmem : r ∈ readRowWhere operation scope db.tables := by rw [hrows]; exact List.mem_cons_self
      obtain ⟨hjournal, hkey⟩ := List.mem_filter.1 hmem
      rw [decide_eq_true_eq] at hkey
      exact ⟨r, hjournal, hkey.1, hkey.2, decodeRow_reads h⟩

theorem readAnswer_lifecycle {operation : OperationId} {scope : TrustedScope} {m : Moment}
    {db : Database JournalTables} {found : Admitted} (h : readAnswer operation scope m db = .ok found) :
    found.lifecycle = db.tables.lifecycleState operation.text := by
  obtain ⟨r, -, hoperation, -, hreads⟩ := readAnswer_eq_ok h
  rw [hreads.lifecycle, hoperation]
  rfl

/-- A run of `readRow` from a store leaves it and answers with what its first read returned. -/
theorem runs_readRow {E : Moment → Prop} {operation : OperationId} {scope : TrustedScope}
    {db db' : Database JournalTables} {result : Option (Except WriterError Admitted)}
    (h : Prog.Runs StoreOp.exec E (readRow operation scope) db db' result) :
    db' = db ∧ (result = none ∨ ∃ m, E m ∧ result = some (readAnswer operation scope m db)) := by
  rcases Prog.runs_call.1 h with ⟨rfl, rfl⟩ | ⟨m, hm, h⟩
  · exact ⟨rfl, .inl rfl⟩
  have hanswer : readAnswer operation scope m db =
      match execScript m (readRowSql operation scope) db with
      | .ok rows => decodeFirst operation scope rows
      | .error e => .error (.ofStorage e) := rfl
  simp only [StoreOp.exec] at h
  cases hexec : execScript m (readRowSql operation scope) db with
  | ok rows =>
    rw [hexec] at h hanswer
    obtain ⟨rfl, rfl⟩ := Prog.runs_done.1 h
    exact ⟨rfl, .inr ⟨m, hm, by rw [hanswer]⟩⟩
  | error e =>
    -- the tables have every column, so the older shapes are never tried
    rw [hexec] at h hanswer
    simp only [Prog.bind, readRowSql_schema hexec, Bool.false_eq_true, if_false] at h
    obtain ⟨rfl, rfl⟩ := Prog.runs_done.1 h
    exact ⟨rfl, .inr ⟨m, hm, by rw [hanswer]⟩⟩

theorem Reads.reconciled {r : JournalRow} {l : Option LifecycleRow} {scope : TrustedScope} {found : Admitted}
    (h : Reads r l scope found) (b : Bool) : Reads r l scope { found with reconciled := b } :=
  ⟨h.operation, h.scope_eq, h.equipment, h.bindingRevision, h.acceptedRevision, h.expectedGeneration,
    h.targetGeneration, h.successor, h.payload, h.deadline, h.actor, h.attempt, h.wireBits, h.actionKind,
    h.releaseAdmitted, h.releaseTarget, h.lifecycle, h.created⟩

/-- A row that `reconcile` returned, from the store it was read in. -/
theorem runs_reconcileRow {E : Moment → Prop} {operation : OperationId} {scope : TrustedScope}
    {db db' : Database JournalTables} {fresh : Admitted}
    (h : Prog.Runs StoreOp.exec E (reconcileRow operation scope) db db' (some (.ok fresh))) :
    fresh.lifecycle = db.tables.lifecycleState operation.text ∧
      ∃ r ∈ db.tables.journal, r.operation = operation.text ∧ r.scope = scope.text ∧
        Reads r (db.tables.findLifecycle r.operation) scope fresh := by
  rcases Prog.runs_bind h with ⟨-, hnone⟩ | ⟨answer, u, hread, hmap⟩
  · exact nomatch hnone
  obtain ⟨rfl, hanswer⟩ := runs_readRow hread
  rcases hanswer with hnone | ⟨m, -, hanswer⟩
  · exact nomatch hnone
  have hfresh := Option.some.inj (Prog.runs_done.1 hmap).2
  cases answer with
  | error e => exact nomatch hfresh
  | ok found =>
    cases hfresh
    have hfound := (Option.some.inj hanswer).symm
    obtain ⟨r, hr, hoperation, hscope, hreads⟩ := readAnswer_eq_ok hfound
    have hlifecycle := readAnswer_lifecycle hfound
    exact ⟨hlifecycle, r, hr, hoperation, hscope, hreads.reconciled true⟩

end Verdant.Action
