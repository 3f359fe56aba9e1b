import Verdant.Api.Ledger

/-!
# The rows of the journal

What the journal is in the tables: the intents of the `api-intent-v1` rows in id order, and the cancel rows.  `Kept` is the
invariant of a database of coordinators: every intent row reads back, the ledger of intents is reachable, and the rows of
the coordinators and the receipts of their appends stand for each other.  In a kept database the history a coordinator
reads is the part of the ledger in its scope (`Kept.joinIntents`).
-/

namespace Verdant.Api

open TextCodec Storage

def isIntent (r : OutboxRecord) : Bool := r.operation = eventText
def isCancel (r : OutboxRecord) : Bool := r.operation = cancelText

def intentOf (r : OutboxRecord) : Option Intent := (Intent.decode (intentColumns r)).toOption

/-- The intents of all scopes, in id order. -/
def journal (tables : OutboxTables) : List Intent := (logOf isIntent tables).filterMap intentOf

/-- The cancel rows of an operation. -/
def cancelsOf (op : OperationId) (tables : OutboxTables) : List OutboxRecord :=
  (logOf isCancel tables).filter fun r => r.valueJson = cancelValue op

/-- The identity of the append that wrote a row. -/
def ticketOf (r : OutboxRecord) : Option String :=
  if r.operation = eventText then (intentOf r).map fun i => journalFront ++ "-" ++ i.operation.text
  else if r.operation = cancelText then
    (textColumn (sqlQuote r.valueJson)).toOption.map fun op => cancelFront ++ "-" ++ op
  else none

/-! ### Intents as bytes -/

namespace Intent

/-- What the columns of an intent carry back. -/
structure Readable (i : Intent) : Prop where
  operation : IsApi i.operation
  subject : IsApi i.subject
  parent : ∀ p ∈ i.parent, IsApi p
  size : i.bytes.utf8ByteSize ≤ 65536

theorem decodeParent_of_api {parent : Option OperationId} (h : ∀ p ∈ parent, IsApi p) :
    decodeParent (parent.elim "" OperationId.text) = .ok parent := by
  cases parent with
  | none => rfl
  | some p =>
    have hp := h p rfl
    have hne : p.text ≠ "" := p.valid.1
    have helim : (some p).elim "" OperationId.text = p.text := rfl
    rw [helim]
    unfold decodeParent
    rw [if_neg hne, operation_of_isApi hp]
    rfl

theorem decodeParent_eq_ok {raw : String} {parent : Option OperationId} (h : decodeParent raw = .ok parent) :
    ∀ p ∈ parent, IsApi p := by
  unfold decodeParent at h
  split at h
  · cases h
    exact fun p hp => nomatch hp
  · rename_i hne
    cases hop : Api.operation raw with
    | error e =>
      rw [hop] at h
      exact nomatch h
    | ok op =>
      rw [hop] at h
      cases h
      rintro p ⟨⟩
      exact (operation_eq_ok hop).2

/-- A row that carries the bytes of an intent reads as that intent. -/
theorem decode_of_readable {i : Intent} (h : i.Readable) {id : Nat} (hpos : 0 < id) (hlt : id < 2 ^ 63) :
    decode [Nat.repr id, sqlQuote (Value.text i.bytes).toJson] = .ok { i with rowId := id } := by
  have hfields : Api.decode i.bytes 65536 8 = .ok i.fields := decode_encode h.size (Nat.le_refl _) (by decide)
  have hscope : TrustedScope.parse i.scope.text = .ok i.scope := parseId_of_isId i.scope.valid
  have hread : decodeFields (Nat.repr id) i.fields = .ok { i with rowId := id } := by
    unfold decodeFields fields
    simp only
    rw [if_neg (not_not.2 rfl), numberI64_repr hlt, operation_of_isApi h.operation, hscope, Kind.parse_text,
      operation_of_isApi h.subject, decodeParent_of_api h.parent]
    rfl
  have hbytes : ({ i with rowId := (id : Int) } : Intent).bytes = i.bytes := rfl
  unfold decode
  simp only [textColumn_toJson, Result.ok_bind, hfields, hread]
  rw [if_neg]
  rintro (hle | hne)
  · have hid : ({ i with rowId := (id : Int) } : Intent).rowId = (id : Int) := rfl
    omega
  · exact hne hbytes

/-- What an intent that was read carries. -/
theorem decode_eq_ok {row : List String} {i : Intent} (h : decode row = .ok i) :
    ∃ id value, row = [id, value] ∧ textColumn value = .ok i.bytes ∧ numberI64 id = .ok i.rowId ∧ 0 < i.rowId ∧
      IsApi i.operation ∧ IsApi i.subject ∧ ∀ p ∈ i.parent, IsApi p := by
  unfold decode at h
  split at h
  · rename_i id value
    obtain ⟨text, htext, h⟩ := Result.bind_eq_ok.1 h
    obtain ⟨fields, -, h⟩ := Result.bind_eq_ok.1 h
    obtain ⟨intent, hintent, h⟩ := Result.bind_eq_ok.1 h
    rw [Result.ite_error_eq_ok] at h
    obtain ⟨hcanonical, h⟩ := h
    obtain rfl := Except.ok.inj h
    rw [not_or, not_not] at hcanonical
    obtain ⟨hpos, hbytes⟩ := hcanonical
    unfold decodeFields at hintent
    split at hintent
    · rw [Result.ite_error_eq_ok] at hintent
      obtain ⟨-, hintent⟩ := hintent
      obtain ⟨rowId, hrow, hintent⟩ := Result.bind_eq_ok.1 hintent
      obtain ⟨op, hop, hintent⟩ := Result.bind_eq_ok.1 hintent
      obtain ⟨scope, -, hintent⟩ := Result.bind_eq_ok.1 hintent
      obtain ⟨kind, -, hintent⟩ := Result.bind_eq_ok.1 hintent
      obtain ⟨subject, hsubject, hintent⟩ := Result.bind_eq_ok.1 hintent
      obtain ⟨parent, hparent, hintent⟩ := Result.bind_eq_ok.1 hintent
      cases hintent
      refine ⟨id, value, rfl, by rw [hbytes]; exact htext, hrow, by omega, (operation_eq_ok hop).2,
        (operation_eq_ok hsubject).2, decodeParent_eq_ok hparent⟩
    · exact nomatch hintent
  · exact nomatch h

/-- The bytes of an intent carry all of it but its row. -/
theorem eq_of_bytes {i j : Intent} (h : i.bytes = j.bytes) (hrow : i.rowId = j.rowId) : i = j := by
  have hfields : i.fields = j.fields := encodeFrames_injective h
  unfold fields at hfields
  simp only [List.cons.injEq, and_true] at hfields
  obtain ⟨-, hop, hscope, hkind, hsubject, hparent, hrequest, hactor⟩ := hfields
  have hsame : i.kind = j.kind := by
    have hparse := congrArg Kind.parse hkind
    rw [Kind.parse_text, Kind.parse_text] at hparse
    exact Except.ok.inj hparse
  have hsamescope : i.scope = j.scope := by
    cases hi : i.scope
    cases hj : j.scope
    rw [hi, hj] at hscope
    simpa using hscope
  have hsameparent : i.parent = j.parent := by
    cases hi : i.parent with
    | none =>
      cases hj : j.parent with
      | none => rfl
      | some q =>
        rw [hi, hj] at hparent
        exact absurd hparent.symm q.valid.1
    | some p =>
      cases hj : j.parent with
      | none =>
        rw [hi, hj] at hparent
        exact absurd hparent p.valid.1
      | some q =>
        rw [hi, hj] at hparent
        rw [OperationId.ext_text hparent]
  cases i
  cases j
  simp only at hrow hsame hsamescope hsameparent hrequest hactor
  simp only [mk.injEq]
  exact ⟨hrow, OperationId.ext_text hop, hsamescope, hsame, OperationId.ext_text hsubject, hsameparent, hrequest,
    hactor⟩

end Intent

theorem intentOf_eq_some {r : OutboxRecord} {i : Intent} :
    intentOf r = some i ↔ Intent.decode (intentColumns r) = .ok i := by
  unfold intentOf
  cases Intent.decode (intentColumns r) <;> simp [Except.toOption]

theorem cancelValue_injective : Function.Injective cancelValue := by
  intro a b h
  have hread := Json.fromJson_toJson a.text
  unfold cancelValue at h
  rw [h, Json.fromJson_toJson] at hread
  exact OperationId.ext_text (Value.text.inj (Except.ok.inj hread)).symm

/-! ### The text of an append -/

/-- What follows the value in the text of an append. -/
def appendTail : String :=
  ",'count','0','0','0','gen-1','1','queued',NULL,'0'); SELECT last_insert_rowid(); SELECT changes();"

theorem intercalate_last (sep a b c : String) (front : List String) :
    ∃ head, String.intercalate sep (front ++ [a, b, c]) = head ++ (a ++ sep ++ b ++ sep ++ c) := by
  induction front with
  | nil =>
    refine ⟨"", ?_⟩
    rw [List.nil_append, String.intercalate_cons_cons, String.intercalate_cons_cons, String.intercalate_singleton]
    simp [String.append_assoc]
  | cons x front ih =>
    obtain ⟨head, hhead⟩ := ih
    obtain ⟨y, rest, hrest⟩ : ∃ y rest, front ++ [a, b, c] = y :: rest := by
      cases front <;> exact ⟨_, _, rfl⟩
    refine ⟨x ++ sep ++ head, ?_⟩
    rw [List.cons_append, hrest, String.intercalate_cons_cons, ← hrest, hhead]
    simp [String.append_assoc]

/-- The value stands at a fixed place from the end of the text of an append. -/
theorem text_append (condition : Condition) (expiry : Option Int64) (kind : String) (scope : TrustedScope)
    (value : String) : ∃ head, (guardedBatch condition.text condition.holds
      (apiLive expiry ++ [insertApi kind scope value])).text = head ++ "," ++ sqlQuote value ++ appendTail := by
  unfold Script.text guardedBatch
  rw [List.map_append, List.map_append, List.map_append]
  have hlast : [insertApi kind scope value].map Statement.text ++
      [selectLastInsertRowid OutboxTables, selectChanges OutboxTables].map Statement.text =
      [(insertApi kind scope value).text, "SELECT last_insert_rowid();", "SELECT changes();"] := rfl
  rw [List.append_assoc, List.append_assoc, hlast, ← List.append_assoc]
  obtain ⟨head, hhead⟩ := intercalate_last " " (insertApi kind scope value).text "SELECT last_insert_rowid();"
    "SELECT changes();" ((accessGuard condition.text condition.holds).map Statement.text ++
      (apiLive expiry).map Statement.text)
  refine ⟨head ++ insertApiText kind scope ++ "'", ?_⟩
  have htext : (insertApi kind scope value).text = insertApiText kind scope ++ "'," ++ sqlQuote value ++
      ",'count','0','0','0','gen-1','1','queued',NULL,'0');" := rfl
  have htail : appendTail = ",'count','0','0','0','gen-1','1','queued',NULL,'0');" ++ " " ++
      "SELECT last_insert_rowid();" ++ " " ++ "SELECT changes();" := rfl
  have hcomma : ("'," : String) = "'" ++ "," := rfl
  rw [hhead, htext, htail, hcomma]
  simp only [String.append_assoc]

/-- A receipt of the append of this row. -/
structure Journaled (receipt : ReceiptRow) (r : OutboxRecord) : Prop where
  operation : ticketOf r = some receipt.operation
  request : ∃ head, receipt.request = hexText (head ++ "," ++ sqlQuote r.valueJson ++ appendTail)
  response : receipt.response = encodeResponse [[Nat.repr r.id], ["1"]]

/-- A request of an append that meets a receipt of the same request meets the row of its own value. -/
theorem Journaled.value_eq {receipt : ReceiptRow} {head value : String} {r : OutboxRecord} (h : Journaled receipt r)
    (hrequest : receipt.request = hexText (head ++ "," ++ sqlQuote value ++ appendTail)) : r.valueJson = value := by
  obtain ⟨head', hhead⟩ := h.request
  rw [hhead] at hrequest
  have htexts := hexText_injective hrequest
  have hlists := congrArg String.toList htexts
  rw [String.toList_append, String.toList_append (t := appendTail)] at hlists
  exact sqlQuote_last_inj (String.toList_injective (List.append_cancel_right hlists))

/-! ### The invariant -/

/-- The database as coordinators leave it. -/
structure Kept (db : Database OutboxTables) : Prop where
  ordered : Ordered db.tables
  written : ∀ r ∈ logOf isIntent db.tables, ∃ i, Intent.decode (intentColumns r) = .ok i ∧ r.entity = i.scope.text
  reachable : Reachable (journal db.tables)
  /-- Every row was appended under its ticket, which has its receipt. -/
  receipts : ∀ r ∈ logOf isApiRow db.tables, ∃ receipt ∈ db.receipts, ticketOf r = some receipt.operation
  distinct : ((logOf isApiRow db.tables).map ticketOf).Nodup
  journaled : ∀ receipt ∈ db.receipts, isApiTicket receipt.operation = true →
    ∃ r ∈ logOf isApiRow db.tables, Journaled receipt r

theorem logOf_isIntent (tables : OutboxTables) : logOf isIntent tables = (logOf isApiRow tables).filter isIntent := by
  unfold logOf
  rw [List.filter_filter]
  refine List.filter_congr fun r _ => ?_
  unfold isIntent isApiRow
  by_cases hr : r.operation = eventText <;> simp [hr]

theorem logOf_isCancel (tables : OutboxTables) : logOf isCancel tables = (logOf isApiRow tables).filter isCancel := by
  unfold logOf
  rw [List.filter_filter]
  refine List.filter_congr fun r _ => ?_
  unfold isCancel isApiRow
  by_cases hr : r.operation = cancelText <;> simp [hr]

theorem mem_journal {tables : OutboxTables} {i : Intent} :
    i ∈ journal tables ↔ ∃ r ∈ logOf isIntent tables, Intent.decode (intentColumns r) = .ok i := by
  unfold journal
  rw [List.mem_filterMap]
  simp only [intentOf_eq_some]

/-- The rows of a scope are the intent rows of its entity. -/
theorem logOf_isIntentOf (scope : TrustedScope) (tables : OutboxTables) :
    logOf (isIntentOf scope) tables = (logOf isIntent tables).filter fun r => r.entity = scope.text := by
  unfold logOf
  rw [List.filter_filter]
  refine List.filter_congr fun r _ => ?_
  unfold isIntentOf isIntent
  rw [Bool.and_comm]

section Reads

variable {scope : TrustedScope}

/-- Rows that read back, of distinct operations, join to the intents of the scope. -/
theorem joinIntents_columns {rows : List OutboxRecord}
    (hrows : ∀ r ∈ rows, ∃ i, Intent.decode (intentColumns r) = .ok i ∧ r.entity = i.scope.text)
    (hnodup : ((rows.filterMap intentOf).map Intent.operation).Nodup) {seen : List OperationId}
    (hseen : ∀ i ∈ rows.filterMap intentOf, i.operation ∉ seen) :
    joinIntents scope seen ((rows.filter fun r => r.entity = scope.text).map intentColumns) =
      .ok (ofScope scope (rows.filterMap intentOf)) := by
  induction rows generalizing seen with
  | nil => rfl
  | cons r rows ih =>
    obtain ⟨i, hdecode, hentity⟩ := hrows r List.mem_cons_self
    have hsome := intentOf_eq_some.2 hdecode
    rw [List.filterMap_cons_some hsome] at hnodup hseen ⊢
    rw [List.map_cons, List.nodup_cons] at hnodup
    have htail : ∀ r ∈ rows, ∃ i, Intent.decode (intentColumns r) = .ok i ∧ r.entity = i.scope.text :=
      fun r hr => hrows r (List.mem_cons_of_mem _ hr)
    by_cases hscope : i.scope = scope
    · have hin : (decide (r.entity = scope.text)) = true := by
        rw [hentity, hscope]
        simp
      have hfresh : ¬(i.scope ≠ scope ∨ i.operation ∈ seen) := by
        rintro (hne | hmem)
        · exact hne hscope
        · exact hseen i List.mem_cons_self hmem
      have hrest : ∀ j ∈ rows.filterMap intentOf, j.operation ∉ i.operation :: seen := by
        intro j hj hmem
        rcases List.mem_cons.1 hmem with heq | hmem
        · exact hnodup.1 (heq ▸ List.mem_map_of_mem hj)
        · exact hseen j (List.mem_cons_of_mem _ hj) hmem
      have hkeep : ofScope scope (i :: rows.filterMap intentOf) = i :: ofScope scope (rows.filterMap intentOf) := by
        unfold ofScope
        rw [List.filter_cons_of_pos (by simpa using hscope)]
      have hfilter : (r :: rows).filter (fun r => decide (r.entity = scope.text)) =
          r :: rows.filter fun r => decide (r.entity = scope.text) := List.filter_cons_of_pos hin
      rw [hfilter, List.map_cons, joinIntents, hdecode, Result.ok_bind, if_neg hfresh,
        ih htail hnodup.2 hrest, Result.ok_bind, hkeep]
    · have hout : ¬(decide (r.entity = scope.text)) = true := by
        rw [decide_eq_true_eq, hentity]
        intro hsame
        apply hscope
        cases hi : i.scope
        cases hs : scope
        rw [hi, hs] at hsame
        simpa using hsame
      have hdrop : ofScope scope (i :: rows.filterMap intentOf) = ofScope scope (rows.filterMap intentOf) := by
        unfold ofScope
        rw [List.filter_cons_of_neg (by simpa using hscope)]
      have hfilter : (r :: rows).filter (fun r => decide (r.entity = scope.text)) =
          rows.filter fun r => decide (r.entity = scope.text) := List.filter_cons_of_neg hout
      rw [hfilter, hdrop]
      exact ih htail hnodup.2 fun j hj => hseen j (List.mem_cons_of_mem _ hj)

/-- Every intent of a join was read from a row. -/
theorem mem_joinIntents {seen : List OperationId} {rows : Rows} {history : List Intent}
    (h : joinIntents scope seen rows = .ok history) : ∀ i ∈ history, i.scope = scope ∧ ∃ row, Intent.decode row = .ok i := by
  induction rows generalizing seen history with
  | nil =>
    cases h
    exact fun i hi => nomatch hi
  | cons row rows ih =>
    obtain ⟨first, hfirst, h⟩ := Result.bind_eq_ok.1 h
    rw [Result.ite_error_eq_ok, not_or, not_not] at h
    obtain ⟨⟨hscope, -⟩, h⟩ := h
    obtain ⟨rest, hrest, h⟩ := Result.bind_eq_ok.1 h
    cases h
    intro i hi
    rcases List.mem_cons.1 hi with rfl | hi
    · exact ⟨hscope, row, hfirst⟩
    · exact ih hrest i hi

namespace Kept

variable {db : Database OutboxTables} (h : Kept db)
include h

theorem sound : Sound (journal db.tables) := h.reachable.sound

/-- What a coordinator reads of its scope. -/
theorem joinIntents (scope : TrustedScope) :
    Api.joinIntents scope [] ((logOf (isIntentOf scope) db.tables).map intentColumns) =
      .ok (ofScope scope (journal db.tables)) := by
  rw [logOf_isIntentOf]
  exact joinIntents_columns h.written h.sound.operations fun i _ hmem => nomatch hmem

theorem length_ofScope (scope : TrustedScope) :
    (ofScope scope (journal db.tables)).length = (logOf (isIntentOf scope) db.tables).length := by
  have hgo : ∀ rows : List OutboxRecord,
      (∀ r ∈ rows, ∃ i, Intent.decode (intentColumns r) = .ok i ∧ r.entity = i.scope.text) →
      (ofScope scope (rows.filterMap intentOf)).length = (rows.filter fun r => r.entity = scope.text).length := by
    intro rows hrows
    induction rows with
    | nil => rfl
    | cons r rows ih =>
      obtain ⟨i, hdecode, hentity⟩ := hrows r List.mem_cons_self
      have hrest := ih fun r hr => hrows r (List.mem_cons_of_mem _ hr)
      have hsame : (decide (i.scope = scope)) = decide (r.entity = scope.text) := by
        rw [hentity]
        by_cases hscope : i.scope = scope
        · simp [hscope]
        · have hne : i.scope.text ≠ scope.text := by
            intro htext
            apply hscope
            cases hi : i.scope
            cases hs : scope
            rw [hi, hs] at htext
            simpa using htext
          simp [hscope, hne]
      rw [List.filterMap_cons_some (intentOf_eq_some.2 hdecode)]
      unfold ofScope at hrest ⊢
      rw [List.filter_cons, List.filter_cons, hsame]
      split
      · rw [List.length_cons, List.length_cons, hrest]
      · exact hrest
  rw [logOf_isIntentOf]
  exact hgo _ h.written

end Kept

end Reads

end Verdant.Api
