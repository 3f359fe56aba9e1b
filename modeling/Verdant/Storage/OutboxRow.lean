import Verdant.Domain.Values
import Verdant.Library.Result

/-!
# Storage errors, SQL text and outbox rows

The typed store failures, the quoting of text into SQL and back, and `decodeRow`, which reads one outbox row from the
thirteen columns a claim returns.
-/

namespace Verdant.Storage

open TextCodec

/-- Typed store failure. -/
inductive StorageError where
  | missingSqlite (detail : String)
  | sqliteFailure (detail : String)
  | durabilityUnavailable (detail : String)
  | unwritablePath (path reason : String)
  | readOnlyPath (path : String)
  | spaceExhausted (detail : String)
  | valueTooLarge (len max : Nat)
  | maintenanceRequired (detail : String)
  | conflict (detail : String)
  | schemaMismatch (expected : Nat) (found : String)
  | invalidRecord (detail : String)
  | invalidInput (what detail : String)
  | busy (detail : String)
  | tooManyConnections (max : Nat)
  | tooManyRunningOperations (max : Nat)
  | deadlineExceeded (timeoutMs : Nat)
  | executionLimit (resource : String) (max : Nat)
  | handoffFull (capacity : Nat)
  | io (path message : String)
  deriving DecidableEq, Repr

/-- A number padded to four digits. -/
private def fourDigits (n : Nat) : String :=
  let digits := Nat.repr n
  String.ofList (List.replicate (4 - digits.length) '0') ++ digits

/-- The text a store failure displays. -/
def StorageError.display : StorageError → String
  | .missingSqlite detail => s!"sqlite3 unavailable: {detail}"
  | .sqliteFailure detail => s!"sqlite failure: {detail}"
  | .durabilityUnavailable detail => s!"required durability unavailable: {detail}"
  | .unwritablePath path reason => s!"unwritable database path '{path}': {reason}"
  | .readOnlyPath path => s!"read-only database directory '{path}': refusing, not silently dropping"
  | .spaceExhausted detail => s!"space budget exhausted: {detail}"
  | .valueTooLarge len max => s!"value payload is {len} bytes; maximum is {max}"
  | .maintenanceRequired detail => s!"maintenance required: {detail}"
  | .conflict detail => s!"conflict (zero affected rows is not success): {detail}"
  | .schemaMismatch expected found =>
    s!"schema generation mismatch: statements are bound to {fourDigits expected}, found user_version {found}"
  | .invalidRecord detail => s!"stored row is not a valid record: {detail}"
  | .invalidInput what detail => s!"invalid {what}: {detail}"
  | .busy detail => s!"database busy past timeout + retries: {detail}"
  | .tooManyConnections max => s!"in-process handle budget exhausted (max {max})"
  | .tooManyRunningOperations max => s!"running operation budget exhausted (max {max}); no child spawned"
  | .deadlineExceeded timeoutMs => s!"operation wall deadline exceeded ({timeoutMs} ms)"
  | .executionLimit resource max => s!"operation {resource} budget exceeded (max {max}); partial result refused"
  | .handoffFull capacity =>
    s!"bounded handoff full (capacity {capacity}): announcement refused, not dropped"
  | .io path message => s!"io failure at '{path}': {message}"

/-- The machine code of a store failure. -/
def StorageError.code : StorageError → String
  | .missingSqlite _ => "missing-sqlite3"
  | .sqliteFailure _ => "sqlite-failure"
  | .durabilityUnavailable _ => "durability-unavailable"
  | .unwritablePath _ _ => "unwritable-path"
  | .readOnlyPath _ => "read-only-path"
  | .spaceExhausted _ => "space-exhausted"
  | .valueTooLarge _ _ => "value-too-large"
  | .maintenanceRequired _ => "maintenance-required"
  | .conflict _ => "conflict"
  | .schemaMismatch _ _ => "schema-generation-mismatch"
  | .invalidRecord _ => "invalid-record"
  | .invalidInput _ _ => "invalid-input"
  | .busy _ => "busy"
  | .tooManyConnections _ => "too-many-connections"
  | .tooManyRunningOperations _ => "too-many-running-operations"
  | .deadlineExceeded _ => "operation-deadline"
  | .executionLimit _ _ => "execution-limit"
  | .handoffFull _ => "handoff-full"
  | .io _ _ => "io"

def failure (detail : String) : StorageError := .sqliteFailure detail

/-- The rows one exchange returns: each line split at the column separator. -/
abbrev Rows := List (List String)

/-! ### SQL text -/

/-- SQL string literal: quotes doubled. -/
def sqlQuote (raw : String) : String :=
  "'" ++ String.join (raw.toList.map fun c => if c = '\'' then "''" else String.singleton c) ++ "'"

theorem sqlQuote_of_unquoted {raw : String} (h : '\'' ∉ raw.toList) : sqlQuote raw = "'" ++ raw ++ "'" := by
  have hmap : (raw.toList.map fun c => if c = '\'' then "''" else String.singleton c) =
      raw.toList.map String.singleton := by
    refine List.map_congr_left fun c hc => ?_
    rw [if_neg]
    rintro rfl
    exact h hc
  have hjoin : String.join (raw.toList.map String.singleton) = raw := by
    apply String.toList_injective
    rw [String.toList_join, List.flatMap_map]
    simp
  rw [sqlQuote, hmap, hjoin]

/-- Quoted texts at the front of two equal texts are the same. -/
theorem sqlQuote_append_inj {a b x y : String} (ha : '\'' ∉ a.toList) (hb : '\'' ∉ b.toList)
    (h : sqlQuote a ++ x = sqlQuote b ++ y) : a = b ∧ x = y := by
  rw [sqlQuote_of_unquoted ha, sqlQuote_of_unquoted hb] at h
  have hlists := congrArg String.toList h
  simp only [String.toList_append, List.append_assoc] at hlists
  obtain ⟨hfront, hback⟩ := TextCodec.append_cons_inj ha hb (List.append_cancel_left hlists)
  exact ⟨String.toList_injective hfront, String.toList_injective hback⟩

private def undouble : List Char → List Char
  | '\'' :: '\'' :: cs => '\'' :: undouble cs
  | c :: cs => c :: undouble cs
  | [] => []

/-- Decodes a `quote()` column; bare `NULL` is absent. -/
def unquoteText (raw : String) : Except StorageError (Option String) :=
  if raw = "NULL" then .ok none
  else match raw.toList with
    | '\'' :: rest =>
      if rest.getLast? = some '\'' then .ok (some (String.ofList (undouble rest.dropLast)))
      else .error (.invalidRecord s!"quoted text malformed: '{raw}'")
    | _ => .error (.invalidRecord s!"quoted text malformed: '{raw}'")

/-- The characters of a text with its quotes doubled. -/
private def doubled (cs : List Char) : List Char := cs.flatMap fun c => if c = '\'' then ['\'', '\''] else [c]

private theorem toList_sqlQuote (raw : String) : (sqlQuote raw).toList = '\'' :: (doubled raw.toList ++ ['\'']) := by
  have hquote : ∀ c : Char, (if c = '\'' then "''" else String.singleton c).toList =
      if c = '\'' then ['\'', '\''] else [c] := by
    intro c
    by_cases hc : c = '\''
    · rw [if_pos hc, if_pos hc]
      rfl
    · rw [if_neg hc, if_neg hc]
      simp
  unfold sqlQuote doubled
  rw [String.toList_append, String.toList_append, String.toList_join, List.flatMap_map]
  simp only [hquote]
  rfl

private theorem undouble_doubled (cs : List Char) : undouble (doubled cs) = cs := by
  induction cs with
  | nil => rfl
  | cons c cs ih =>
    by_cases hc : c = '\''
    · subst hc
      exact congrArg _ ih
    · have hcons : doubled (c :: cs) = c :: doubled cs := by simp [doubled, hc]
      rw [hcons]
      unfold undouble
      split
      · rename_i h
        exact absurd (List.cons.inj h).1 hc
      · rename_i h
        obtain ⟨rfl, rfl⟩ := List.cons.inj h
        rw [ih]
      · rename_i h
        exact nomatch h

/-- A doubled text is no quote followed by a doubled text. -/
private theorem doubled_ne_cons (v w : List Char) : doubled v ≠ '\'' :: doubled w := by
  induction v generalizing w with
  | nil => exact fun h => nomatch h
  | cons c v ih =>
    intro h
    by_cases hc : c = '\''
    · have hcons : doubled (c :: v) = '\'' :: '\'' :: doubled v := by simp [doubled, hc]
      rw [hcons, List.cons.injEq] at h
      cases w with
      | nil => exact nomatch h.2
      | cons d w =>
        by_cases hd : d = '\''
        · have hcons' : doubled (d :: w) = '\'' :: '\'' :: doubled w := by simp [doubled, hd]
          rw [hcons', List.cons.injEq] at h
          exact ih w h.2.2
        · have hcons' : doubled (d :: w) = d :: doubled w := by simp [doubled, hd]
          rw [hcons', List.cons.injEq] at h
          exact hd h.2.1.symm
    · have hcons : doubled (c :: v) = c :: doubled v := by simp [doubled, hc]
      rw [hcons, List.cons.injEq] at h
      exact hc h.1

/-- After any other character, a doubled text has no single quote. -/
private theorem doubled_ne_append (v w x : List Char) : doubled v ≠ x ++ ',' :: '\'' :: doubled w := by
  induction v generalizing x with
  | nil =>
    intro h
    have hlen := congrArg List.length h
    rw [List.length_append, List.length_cons] at hlen
    have hnil : (doubled []).length = 0 := rfl
    omega
  | cons c v ih =>
    intro h
    by_cases hc : c = '\''
    · have hcons : doubled (c :: v) = '\'' :: '\'' :: doubled v := by simp [doubled, hc]
      rw [hcons] at h
      -- both quotes are in front of the comma
      rcases x with _ | ⟨a, _ | ⟨b, x⟩⟩
      · simp at h
      · simp at h
      · simp only [List.cons_append, List.cons.injEq] at h
        exact ih x h.2.2
    · have hcons : doubled (c :: v) = c :: doubled v := by simp [doubled, hc]
      rw [hcons] at h
      rcases x with _ | ⟨a, x⟩
      · rw [List.nil_append, List.cons.injEq] at h
        exact doubled_ne_cons v w h.2
      · rw [List.cons_append, List.cons.injEq] at h
        exact ih x h.2

/-- The quoted text at the end of a text is determined, whatever stands before its comma. -/
theorem sqlQuote_last_inj {x y v w : String} (h : x ++ "," ++ sqlQuote v = y ++ "," ++ sqlQuote w) : v = w := by
  have hcomma : ",".toList = [','] := rfl
  have hlists := congrArg String.toList h
  simp only [String.toList_append, toList_sqlQuote, hcomma, List.append_assoc, List.singleton_append] at hlists
  have hsame : ∀ {a b : List Char}, doubled a = doubled b → a = b := by
    intro a b hab
    rw [← undouble_doubled a, hab, undouble_doubled]
  have hback : ∀ {x y v w : List Char}, x ++ ',' :: '\'' :: (doubled v ++ ['\'']) = y ++ ',' :: '\'' :: (doubled w ++ ['\'']) →
      x.length ≤ y.length → v = w := by
    intro x y v w hxy hle
    have hassoc : ∀ z u : List Char, z ++ ',' :: '\'' :: (u ++ ['\'']) = (z ++ ',' :: '\'' :: u) ++ ['\''] := by
      intro z u
      simp
    rw [hassoc, hassoc] at hxy
    obtain ⟨hfront, -⟩ := List.append_inj' hxy rfl
    rcases List.append_eq_append_iff.1 hfront with ⟨m, hy, hm⟩ | ⟨m, hx, hm⟩
    · rcases m with _ | ⟨a, _ | ⟨b, m⟩⟩
      · simp only [List.nil_append, List.cons.injEq, true_and] at hm
        exact hsame hm
      · simp at hm
      · simp only [List.cons_append, List.cons.injEq] at hm
        exact absurd hm.2.2 (doubled_ne_append v w m)
    · have hnil : m = [] := by
        rw [hx, List.length_append] at hle
        exact List.length_eq_zero_iff.1 (by omega)
      subst hnil
      simp only [List.nil_append, List.cons.injEq, true_and] at hm
      exact (hsame hm).symm
  apply String.toList_injective
  rcases Nat.le_total x.toList.length y.toList.length with hle | hle
  · exact hback hlists hle
  · exact (hback hlists.symm hle).symm

/-- A quoted text reads back. -/
@[simp]
theorem unquoteText_sqlQuote (raw : String) : unquoteText (sqlQuote raw) = .ok (some raw) := by
  have hlist := toList_sqlQuote raw
  have hnull : sqlQuote raw ≠ "NULL" := by
    intro h
    have hchars := congrArg String.toList h
    rw [hlist] at hchars
    simp at hchars
  unfold unquoteText
  rw [if_neg hnull, hlist]
  simp [undouble_doubled]

/-! ### Outbox rows -/

inductive OutboxStatus where
  | queued
  | claimed
  | acked
  deriving DecidableEq, Repr

def OutboxStatus.asStr : OutboxStatus → String
  | .queued => "queued"
  | .claimed => "claimed"
  | .acked => "acked"

def OutboxStatus.parse (raw : String) : Except StorageError OutboxStatus :=
  if raw = "queued" then .ok .queued
  else if raw = "claimed" then .ok .claimed
  else if raw = "acked" then .ok .acked
  else .error (.invalidRecord s!"unknown outbox status '{raw}'")

/-- One decoded outbox row. -/
structure OutboxRow where
  id : Int
  operation : OperationId
  entity : InstalledId
  sensor : InstalledId
  value : Value
  unit : MeasureUnit
  times : TimeTriple
  record : RecordIdentity
  status : OutboxStatus
  claimedBy : Option String
  deriving DecidableEq

private def invalid (detail : String) : StorageError := .invalidRecord detail

private def domain {α : Type} (what : String) : Except DomainError α → Except StorageError α
  | .ok a => .ok a
  | .error e => .error (invalid s!"{what}: {e.display}")

private def orInvalid {α : Type} (detail : String) : Option α → Except StorageError α
  | some a => .ok a
  | none => .error (invalid detail)

private def textColumn (what raw : String) : Except StorageError String := do
  orInvalid s!"{what} is NULL" (← unquoteText raw)

private def millisColumn (what raw : String) : Except StorageError Int := do
  orInvalid s!"{what} is not an integer millis value" (parseI64 (← textColumn what raw))

def decodeRow : List String → Except StorageError OutboxRow
  | [c0, c1, c2, c3, c4, c5, c6, c7, c8, c9, c10, c11, c12] => do
    let id ← orInvalid s!"row id unreadable: '{c0}'" (parseI64 c0)
    let operation ← domain "operation" (OperationId.parse (← textColumn "operation" c1))
    let entity ← domain "entity" (InstalledId.parse (← textColumn "entity" c2))
    let sensor ← domain "sensor" (InstalledId.parse (← textColumn "sensor" c3))
    let value ← domain "value" (Value.fromJson (← textColumn "value_json" c4))
    let unit ← domain "unit" (MeasureUnit.parse (← textColumn "unit" c5))
    let source ← millisColumn "source_ms" c6
    let receipt ← millisColumn "receipt_ms" c7
    let ingestion ← millisColumn "ingestion_ms" c8
    let times ← domain "times" (TimeTriple.new source receipt ingestion)
    let generation ← domain "generation" (SourceGenerationId.parse (← textColumn "generation" c9))
    let seq ← orInvalid "seq is not a u64" (parseU64 (← textColumn "seq" c10))
    let status ← OutboxStatus.parse (← textColumn "status" c11)
    let claimedBy ← unquoteText c12
    .ok ⟨id, operation, entity, sensor, value, unit, times, ⟨generation, seq⟩, status, claimedBy⟩
  | cols => .error (invalid s!"outbox row has {cols.length} columns, expected 13")

theorem length_of_decodeRow {cols : List String} {row : OutboxRow} (h : decodeRow cols = .ok row) :
    cols.length = 13 := by
  unfold decodeRow at h
  split at h
  · rfl
  · exact nomatch h

private theorem orInvalid_eq_ok {α : Type} {detail : String} {o : Option α} {a : α}
    (h : orInvalid detail o = .ok a) : o = some a := by
  cases o with
  | none => exact nomatch h
  | some b => rw [Except.ok.inj h]

/-- The first column is the id of the decoded row. -/
theorem id_of_decodeRow {c : String} {cols : List String} {row : OutboxRow}
    (h : decodeRow (c :: cols) = .ok row) : parseI64 c = some row.id := by
  unfold decodeRow at h
  split at h
  · rename_i heq
    cases heq
    obtain ⟨id, hid, h⟩ := Result.bind_eq_ok.1 h
    rw [orInvalid_eq_ok hid]
    iterate 21 obtain ⟨_, _, h⟩ := Result.bind_eq_ok.1 h
    cases h
    rfl
  · exact nomatch h

private theorem textColumn_sqlQuote (what raw : String) : textColumn what (sqlQuote raw) = .ok raw := by
  unfold textColumn
  rw [unquoteText_sqlQuote, Result.ok_bind]
  rfl

private theorem millisColumn_sqlQuote {what raw : String} {n : Int} (h : parseI64 raw = some n) :
    millisColumn what (sqlQuote raw) = .ok n := by
  unfold millisColumn
  rw [textColumn_sqlQuote, Result.ok_bind, h]
  rfl

@[simp]
theorem OutboxStatus.parse_asStr (status : OutboxStatus) : OutboxStatus.parse status.asStr = .ok status := by
  cases status <;> decide

/-- A nullable column as `quote()` prints it. -/
def quoteNullable : Option String → String
  | some raw => sqlQuote raw
  | none => "NULL"

theorem unquoteText_quoteNullable (cell : Option String) : unquoteText (quoteNullable cell) = .ok cell := by
  cases cell with
  | some raw => exact unquoteText_sqlQuote raw
  | none => decide

private theorem domain_eq_ok {α : Type} {what : String} {x : Except DomainError α} {a : α} :
    domain what x = .ok a ↔ x = .ok a := by
  cases x with
  | ok b =>
    constructor
    · intro h
      rw [Except.ok.inj h]
    · intro h
      rw [Except.ok.inj h]
      rfl
  | error e =>
    constructor
    · exact fun h => nomatch h
    · exact fun h => nomatch h

/-- The quoted columns of a row decode to it exactly when its value and its unit are the ones their readers return. -/
theorem decodeRow_quoted {row : OutboxRow} {id value unit source receipt ingestion seq : String}
    (hid : parseI64 id = some row.id) (hsource : parseI64 source = some row.times.source)
    (hreceipt : parseI64 receipt = some row.times.receipt) (hingestion : parseI64 ingestion = some row.times.ingestion)
    (hseq : parseU64 seq = some row.record.seq) :
    decodeRow (id :: [row.operation.text, row.entity.text, row.sensor.text, value, unit, source, receipt, ingestion,
        row.record.generation.text, seq, row.status.asStr].map sqlQuote ++ [quoteNullable row.claimedBy]) = .ok row ↔
      Value.fromJson value = .ok row.value ∧ MeasureUnit.parse unit = .ok row.unit := by
  have hoperation : OperationId.parse row.operation.text = .ok row.operation := OperationId.parse_text _
  have hentity : InstalledId.parse row.entity.text = .ok row.entity := parseId_of_isId row.entity.valid
  have hsensor : InstalledId.parse row.sensor.text = .ok row.sensor := parseId_of_isId row.sensor.valid
  have hgeneration : SourceGenerationId.parse row.record.generation.text = .ok row.record.generation :=
    parseId_of_isId row.record.generation.valid
  have htimes : TimeTriple.new row.times.source row.times.receipt row.times.ingestion = .ok row.times := by
    unfold TimeTriple.new
    rw [dif_pos row.times.source_le, dif_pos row.times.receipt_le]
  have hdomain : ∀ {α : Type} (what : String) (a : α), domain what (.ok a) = .ok a := fun _ _ => rfl
  have hsome : ∀ {α : Type} (detail : String) (a : α), orInvalid detail (some a) = .ok a := fun _ _ => rfl
  simp only [List.map_cons, List.map_nil, List.cons_append, List.nil_append, decodeRow, textColumn_sqlQuote,
    millisColumn_sqlQuote hsource, millisColumn_sqlQuote hreceipt, millisColumn_sqlQuote hingestion, hid, hseq,
    hoperation, hentity, hsensor, hgeneration, htimes, hdomain, hsome, OutboxStatus.parse_asStr,
    unquoteText_quoteNullable, Result.ok_bind]
  constructor
  · intro h
    obtain ⟨v, hv, h⟩ := Result.bind_eq_ok.1 h
    obtain ⟨u, hu, h⟩ := Result.bind_eq_ok.1 h
    have hrow := Except.ok.inj h
    rw [domain_eq_ok] at hv hu
    rw [← hrow]
    exact ⟨hv, hu⟩
  · rintro ⟨hv, hu⟩
    simp only [hv, hu, hdomain, Result.ok_bind]

/-! ### The errors of `decodeRow` -/

/-- The error says that a stored row is not a valid record. -/
def StorageError.IsInvalidRecord (e : StorageError) : Prop := ∃ detail, e = .invalidRecord detail

private theorem unquoteText_fails (raw : String) : Result.Fails StorageError.IsInvalidRecord (unquoteText raw) := by
  unfold unquoteText
  split
  · exact Result.Fails.ok
  · split
    · split
      · exact Result.Fails.ok
      · exact Result.Fails.error ⟨_, rfl⟩
    · exact Result.Fails.error ⟨_, rfl⟩

private theorem orInvalid_fails {α : Type} (detail : String) (o : Option α) :
    Result.Fails StorageError.IsInvalidRecord (orInvalid detail o) := by
  cases o with
  | none => exact Result.Fails.error ⟨_, rfl⟩
  | some a => exact Result.Fails.ok

private theorem textColumn_fails (what raw : String) :
    Result.Fails StorageError.IsInvalidRecord (textColumn what raw) := by
  exact (unquoteText_fails raw).bind fun _ => orInvalid_fails _ _

private theorem millisColumn_fails (what raw : String) :
    Result.Fails StorageError.IsInvalidRecord (millisColumn what raw) := by
  exact (textColumn_fails what raw).bind fun _ => orInvalid_fails _ _

private theorem domain_fails {α : Type} (what : String) (x : Except DomainError α) :
    Result.Fails StorageError.IsInvalidRecord (domain what x) := by
  cases x with
  | ok a => exact Result.Fails.ok
  | error e => exact Result.Fails.error ⟨_, rfl⟩

private theorem statusParse_fails (raw : String) :
    Result.Fails StorageError.IsInvalidRecord (OutboxStatus.parse raw) := by
  unfold OutboxStatus.parse
  split_ifs
  · exact Result.Fails.ok
  · exact Result.Fails.ok
  · exact Result.Fails.ok
  · exact Result.Fails.error ⟨_, rfl⟩

theorem decodeRow_fails (cols : List String) : Result.Fails StorageError.IsInvalidRecord (decodeRow cols) := by
  unfold decodeRow
  split
  · refine (orInvalid_fails _ _).bind fun _ => ?_
    refine (textColumn_fails _ _).bind fun _ => (domain_fails _ _).bind fun _ => ?_
    refine (textColumn_fails _ _).bind fun _ => (domain_fails _ _).bind fun _ => ?_
    refine (textColumn_fails _ _).bind fun _ => (domain_fails _ _).bind fun _ => ?_
    refine (textColumn_fails _ _).bind fun _ => (domain_fails _ _).bind fun _ => ?_
    refine (textColumn_fails _ _).bind fun _ => (domain_fails _ _).bind fun _ => ?_
    refine (millisColumn_fails _ _).bind fun _ => (millisColumn_fails _ _).bind fun _ => ?_
    refine (millisColumn_fails _ _).bind fun _ => (domain_fails _ _).bind fun _ => ?_
    refine (textColumn_fails _ _).bind fun _ => (domain_fails _ _).bind fun _ => ?_
    refine (textColumn_fails _ _).bind fun _ => (orInvalid_fails _ _).bind fun _ => ?_
    refine (textColumn_fails _ _).bind fun _ => (statusParse_fails _).bind fun _ => ?_
    exact (unquoteText_fails _).bind fun _ => Result.Fails.ok
  · exact Result.Fails.error ⟨_, rfl⟩

end Verdant.Storage
