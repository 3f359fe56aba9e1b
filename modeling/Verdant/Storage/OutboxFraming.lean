import Verdant.Domain.Reading
import Verdant.Storage.Chunks
import Verdant.Storage.Outbox

/-!
# The framing of outbox rows

Free text shares one line with the separators of that line, and nothing is escaped.  Every column of an accepted row
keeps clear of them, by its alphabet or by a refusal (`cellText_columns`), so a row is one line of thirteen cells and a
page of rows arrives as it was printed (`page_exchanged`).  The cells read back as the inserted row exactly when the
labels of its unit and mode are canonical: an unknown label that is empty, long or the label of something known is
accepted and then not read back as itself.
-/

namespace Verdant.Storage

open TextCodec Json

/-! ### Text that keeps clear of the framing -/

/-- No column separator, no line feed, no carriage return. -/
def CellText (text : String) : Prop := ∀ c ∈ text.toList, c ≠ Process.colSep ∧ c ≠ '\n' ∧ c ≠ '\r'

instance (text : String) : Decidable (CellText text) := List.decidableBAll _ _

theorem CellText.append {a b : String} (ha : CellText a) (hb : CellText b) : CellText (a ++ b) := by
  intro c hc
  rw [String.toList_append, List.mem_append] at hc
  rcases hc with hc | hc
  · exact ha c hc
  · exact hb c hc

/-- Text without control characters. -/
theorem cellText_of_le {text : String} (h : ∀ c ∈ text.toList, 0x20 ≤ c.toNat) : CellText text := by
  intro c hc
  have hle := h c hc
  refine ⟨?_, ?_, ?_⟩
  · rintro rfl
    exact absurd hle (by decide)
  · rintro rfl
    exact absurd hle (by decide)
  · rintro rfl
    exact absurd hle (by decide)

theorem cellText_of_isId {raw : String} (h : IsId raw) : CellText raw := by
  have hall : ∀ c ∈ raw.toList, idChar c = true := List.all_eq_true.1 h.2.2
  intro c hc
  have hid := hall c hc
  refine ⟨?_, ?_, ?_⟩
  · rintro rfl
    exact absurd hid (by decide)
  · rintro rfl
    exact absurd hid (by decide)
  · rintro rfl
    exact absurd hid (by decide)

theorem cellText_repr (n : Nat) : CellText (Nat.repr n) := by
  intro c hc
  rw [Nat.toList_repr] at hc
  have hdigit := Nat.isDigit_of_mem_toDigits (by decide) (by decide) hc
  refine ⟨?_, ?_, ?_⟩
  · rintro rfl
    exact absurd hdigit (by decide)
  · rintro rfl
    exact absurd hdigit (by decide)
  · rintro rfl
    exact absurd hdigit (by decide)

theorem cellText_toString (n : Int) : CellText (toString n) := by
  cases n with
  | ofNat n => exact cellText_repr n
  | negSucc n => exact @CellText.append "-" _ (by decide) (cellText_repr (n + 1))

theorem cellText_quote (raw : String) : CellText (quote raw) := cellText_of_le fun _ hc => le_of_mem_quote hc

theorem cellText_sqlQuote {raw : String} (h : CellText raw) : CellText (sqlQuote raw) := by
  intro c hc
  unfold sqlQuote at hc
  simp only [String.toList_append, List.mem_append, String.toList_join, List.mem_flatMap, List.mem_map] at hc
  have hmark : c ∈ "'".toList → c ≠ Process.colSep ∧ c ≠ '\n' ∧ c ≠ '\r' := by
    intro hmem
    obtain rfl : c = '\'' := by simpa using hmem
    decide
  rcases hc with (hc | ⟨text, ⟨d, hd, rfl⟩, hc⟩) | hc
  · exact hmark hc
  · split at hc
    · refine hmark ?_
      simpa using hc
    · obtain rfl : c = d := by simpa using hc
      exact h c hd
  · exact hmark hc

theorem cellText_membersText {members : List Member} (h : ∀ m ∈ members, CellText m.text) (first : Bool) :
    CellText (membersText first members) := by
  induction members generalizing first with
  | nil => exact fun c hc => nomatch hc
  | cons m members ih =>
    have hcomma : CellText (if first then "" else ",") := by cases first <;> decide
    have hcolon : CellText ":" := by decide
    have hrest := ih (fun m' hm' => h m' (List.mem_cons_of_mem _ hm')) false
    have hm := h m List.mem_cons_self
    exact (((hcomma.append (cellText_quote _)).append hcolon).append hm).append hrest

/-- The text of a value escapes every control character. -/
theorem cellText_toJson (v : Value) : CellText v.toJson := by
  have hstr : ∀ key s, CellText (Member.str key s).text := fun _ s => cellText_quote s
  have hmembers : ∀ m ∈ v.members, CellText m.text := by
    cases v with
    | bool b =>
      simp only [Value.members, List.mem_cons, List.not_mem_nil, or_false]
      rintro m (rfl | rfl)
      · exact hstr _ _
      · cases b <;> decide
    | diagnostic d =>
      cases d
      all_goals
        simp only [Value.members, List.mem_cons, List.not_mem_nil, or_false]
        rintro m (rfl | rfl | rfl) <;> exact hstr _ _
    | missing =>
      intro m hm
      rw [List.mem_singleton.1 hm]
      exact hstr _ _
    | _ =>
      simp only [Value.members, List.mem_cons, List.not_mem_nil, or_false]
      rintro m (rfl | rfl) <;> exact hstr _ _
  have hopen : CellText "\x7b" := by decide
  have hclose : CellText "\x7d" := by decide
  rw [v.toJson_eq]
  exact (hopen.append (cellText_membersText hmembers true)).append hclose

theorem cellText_of_refusal {raw : String} (h : envelopeFramingRefusal raw = none) : CellText raw := by
  unfold envelopeFramingRefusal at h
  split_ifs at h with hsep hline hreturn
  intro c hc
  refine ⟨?_, ?_, ?_⟩
  · rintro rfl
    exact hsep hc
  · rintro rfl
    exact hline hc
  · rintro rfl
    exact hreturn hc

theorem cellText_of_validateToken {raw token : String} (h : validateToken raw = .ok token) : CellText token := by
  rw [validateToken_eq_ok h]
  unfold validateToken at h
  split at h
  · exact nomatch h
  split at h
  · exact nomatch h
  split at h
  · exact nomatch h
  · rename_i hrefusal
    exact cellText_of_refusal hrefusal

theorem cellText_of_validateUnit {unit : MeasureUnit} (h : validateUnit unit = .ok ()) : CellText unit.asStr := by
  unfold validateUnit at h
  split at h
  · exact nomatch h
  · rename_i hrefusal
    exact cellText_of_refusal hrefusal

theorem validateUnit_of_prepareInsert {store : SqliteStore} {id : String} {disk : Disk} {entry : OutboxEntry}
    {pending : PreparedMutation OutboxTables} (h : prepareInsert store id disk entry = .ok pending) :
    validateUnit entry.unit = .ok () := by
  unfold prepareInsert at h
  dsimp only at h
  split at h
  · exact nomatch h
  split at h
  · exact nomatch h
  split at h
  · exact nomatch h
  · obtain ⟨⟨⟩, hunit, -⟩ := Result.bind_eq_ok.1 h
    exact hunit

/-! ### The columns of a row -/

/-- The claim states of a row: its token, where it has one, passed the check. -/
def TokenOk (claimedBy : Option String) : Prop := ∀ token, claimedBy = some token → validateToken token = .ok token

/-- The stored row of an entry in some claim state. -/
def OutboxEntry.stored (entry : OutboxEntry) (id : Nat) (status : OutboxStatus) (claimedBy : Option String) :
    OutboxRecord :=
  { entry.toRecord id with
    status := status
    claimedBy := claimedBy }

/-- The row as a reader should get it. -/
def OutboxEntry.row (entry : OutboxEntry) (id : Nat) (status : OutboxStatus) (claimedBy : Option String) :
    OutboxRow where
  id := id
  operation := entry.operation
  entity := entry.entity
  sensor := entry.sensor
  value := entry.value
  unit := entry.unit
  times := entry.times
  record := entry.record
  status := status
  claimedBy := claimedBy

/-- The output line of a row. -/
def OutboxRecord.line (r : OutboxRecord) : String := joinText Process.colSep r.columns

theorem OutboxRecord.columns_eq (r : OutboxRecord) : r.columns =
    Nat.repr r.id :: [r.operation, r.entity, r.sensor, r.valueJson, r.unit, r.sourceMs, r.receiptMs, r.ingestionMs,
      r.generation, r.seq, r.status.asStr].map sqlQuote ++ [quoteNullable r.claimedBy] := by
  obtain ⟨-, -, -, -, -, -, -, -, -, -, -, -, claimedBy⟩ := r
  cases claimedBy <;> rfl

theorem OutboxRecord.length_columns (r : OutboxRecord) : r.columns.length = 13 := by
  rw [r.columns_eq]
  rfl

/-- Every column of an accepted row keeps clear of the framing. -/
theorem cellText_columns {entry : OutboxEntry} (hunit : validateUnit entry.unit = .ok ()) (id : Nat)
    (status : OutboxStatus) {claimedBy : Option String} (htoken : TokenOk claimedBy) :
    ∀ cell ∈ (entry.stored id status claimedBy).columns, CellText cell := by
  have hstatus : CellText status.asStr := by cases status <;> decide
  have htexts : ∀ text ∈ [entry.operation.text, entry.entity.text, entry.sensor.text, entry.value.toJson,
      entry.unit.asStr, toString entry.times.source, toString entry.times.receipt, toString entry.times.ingestion,
      entry.record.generation.text, toString entry.record.seq, status.asStr], CellText text := by
    simp only [List.mem_cons, List.not_mem_nil, or_false]
    rintro text (rfl | rfl | rfl | rfl | rfl | rfl | rfl | rfl | rfl | rfl | rfl)
    · exact cellText_of_isId entry.operation.valid
    · exact cellText_of_isId entry.entity.valid
    · exact cellText_of_isId entry.sensor.valid
    · exact cellText_toJson entry.value
    · exact cellText_of_validateUnit hunit
    · exact cellText_toString _
    · exact cellText_toString _
    · exact cellText_toString _
    · exact cellText_of_isId entry.record.generation.valid
    · exact cellText_repr _
    · exact hstatus
  have hclaimed : CellText (quoteNullable claimedBy) := by
    cases claimedBy with
    | none => decide
    | some token => exact cellText_sqlQuote (cellText_of_validateToken (htoken token rfl))
  intro cell hcell
  rw [OutboxRecord.columns_eq, List.mem_append, List.mem_cons, List.mem_singleton] at hcell
  rcases hcell with (rfl | hcell) | rfl
  · exact cellText_repr id
  · obtain ⟨text, htext, rfl⟩ := List.mem_map.1 hcell
    exact cellText_sqlQuote (htexts text htext)
  · exact hclaimed

/-! ### One line of thirteen cells -/

theorem trimEndCr_of_not_mem {line : String} (h : '\r' ∉ line.toList) : trimEndCr line = line := by
  have hkeep : line.toList.rdropWhile (· = '\r') = line.toList := by
    rw [List.rdropWhile_eq_self_iff]
    intro hne hlast
    have hmem := List.getLast_mem hne
    rw [of_decide_eq_true hlast] at hmem
    exact h hmem
  unfold trimEndCr
  rw [hkeep, String.ofList_toList]

/-- The line of framed columns is one row line, and its cells are the columns. -/
theorem OutboxRecord.line_cells {r : OutboxRecord} (h : ∀ cell ∈ r.columns, CellText cell) :
    RowLines [r.line] ∧ readLine r.line = r.columns := by
  have hne : r.columns ≠ [] := by
    intro hnil
    have hlength := r.length_columns
    rw [hnil] at hlength
    exact nomatch hlength
  have hcells : splitText Process.colSep r.line = r.columns :=
    splitText_joinText (fun cell hcell hmem => (h cell hcell _ hmem).1 rfl) hne
  have hline : '\n' ∉ r.line.toList :=
    not_mem_joinText (by decide) fun cell hcell hmem => (h cell hcell _ hmem).2.1 rfl
  have hreturn : '\r' ∉ r.line.toList :=
    not_mem_joinText (by decide) fun cell hcell hmem => (h cell hcell _ hmem).2.2 rfl
  have htrim := trimEndCr_of_not_mem hreturn
  refine ⟨?_, ?_⟩
  · intro line hmem
    obtain rfl := List.mem_singleton.1 hmem
    refine ⟨hline, fun hend => ?_⟩
    -- the marker has one cell
    rw [htrim] at hend
    have hone : (splitText Process.colSep Process.sentEnd).length = 1 := by decide
    rw [← hend, hcells, r.length_columns] at hone
    exact nomatch hone
  · rw [readLine, htrim, hcells]

/-- A page of rows with framed columns arrives as it was printed, whatever the chunks are. -/
theorem page_exchanged {child : Child} {p : Process} {sql : String} {records : List OutboxRecord}
    (h : ∀ r ∈ records, ∀ cell ∈ r.columns, CellText cell) {before after : List (List UInt8)} {written : Nat}
    (hready : p.Ready) (hadmits : p.operation.Admits sql (responseBytes (records.map OutboxRecord.line)))
    (hchunks : (before ++ after).flatten = responseBytes (records.map OutboxRecord.line)) :
    ∃ q rest, p.exchangeInner child (.ok ()) sql (answerDeliveries before after written) =
        .ok (records.map OutboxRecord.columns, q, rest) ∧ q.Ready ∧ ∀ d ∈ rest, d.bytes = [] := by
  have hlines : RowLines (records.map OutboxRecord.line) := by
    intro line hline
    obtain ⟨r, hr, rfl⟩ := List.mem_map.1 hline
    exact (OutboxRecord.line_cells (h r hr)).1 _ (List.mem_singleton_self _)
  have hread : (records.map OutboxRecord.line).map readLine = records.map OutboxRecord.columns := by
    rw [List.map_map]
    refine List.map_congr_left fun r hr => ?_
    rw [Function.comp_apply, (OutboxRecord.line_cells (h r hr)).2]
  rw [← hread]
  exact exchangeInner_rows hready hlines hadmits hchunks

/-! ### The row that is read back -/

/-- The machine integers of an entry. -/
structure OutboxEntry.InRange (entry : OutboxEntry) : Prop where
  value : entry.value.InRange
  times : entry.times.InRange
  seq : entry.record.seq < 2 ^ 64

/-- The labels of an entry are canonical. -/
structure OutboxEntry.Canonical (entry : OutboxEntry) : Prop where
  unit : entry.unit.Canonical
  value : entry.value.Canonical

instance (entry : OutboxEntry) : Decidable entry.Canonical :=
  decidable_of_iff (entry.unit.Canonical ∧ entry.value.Canonical)
    ⟨fun ⟨unit, value⟩ => ⟨unit, value⟩, fun h => ⟨h.unit, h.value⟩⟩

/-- The columns of a row are one output line of thirteen cells, and these are read back as the row. -/
structure RoundTrips (entry : OutboxEntry) (id : Nat) (status : OutboxStatus) (claimedBy : Option String) : Prop where
  line : RowLines [(entry.stored id status claimedBy).line]
  cells : readLine (entry.stored id status claimedBy).line = (entry.stored id status claimedBy).columns
  count : (entry.stored id status claimedBy).columns.length = 13
  decoded : decodeRow (entry.stored id status claimedBy).columns = .ok (entry.row id status claimedBy)

theorem decodeRow_stored {entry : OutboxEntry} (hrange : entry.InRange) {id : Nat} (hid : id < 2 ^ 63)
    (status : OutboxStatus) (claimedBy : Option String) :
    decodeRow (entry.stored id status claimedBy).columns = .ok (entry.row id status claimedBy) ↔ entry.Canonical := by
  let row := entry.row id status claimedBy
  have hrow : parseI64 (Nat.repr id) = some row.id := parseI64_repr hid
  have hsource : parseI64 (toString entry.times.source) = some row.times.source := parseI64_toString hrange.times.source
  have hreceipt : parseI64 (toString entry.times.receipt) = some row.times.receipt :=
    parseI64_toString hrange.times.receipt
  have hingestion : parseI64 (toString entry.times.ingestion) = some row.times.ingestion :=
    parseI64_toString hrange.times.ingestion
  have hseq : parseU64 (Nat.repr entry.record.seq) = some row.record.seq := parseU64_repr hrange.seq
  have hdecode := @decodeRow_quoted row _ entry.value.toJson entry.unit.asStr _ _ _ _ hrow hsource hreceipt hingestion
    hseq
  rw [OutboxRecord.columns_eq]
  refine hdecode.trans ?_
  constructor
  · rintro ⟨hvalue, hunit⟩
    exact ⟨MeasureUnit.parse_asStr_iff.1 hunit, (Value.fromJson_toJson_iff hrange.value).1 hvalue⟩
  · rintro ⟨hunit, hvalue⟩
    exact ⟨(Value.fromJson_toJson_iff hrange.value).2 hvalue, MeasureUnit.parse_asStr_iff.2 hunit⟩

theorem readingOperation_valid : IsId "op-1" := by decide
theorem readingEntity_valid : IsId "ahu-1" := by decide
theorem readingSensor_valid : IsId "ahu-1.temp" := by decide
theorem readingGeneration_valid : IsId "gen-1" := by decide

/-- An entry of one reading. -/
def readingEntry (value : Value) (unit : MeasureUnit) : OutboxEntry where
  operation := ⟨"op-1", readingOperation_valid⟩
  entity := ⟨"ahu-1", readingEntity_valid⟩
  sensor := ⟨"ahu-1.temp", readingSensor_valid⟩
  value := value
  unit := unit
  times := ⟨1000, 1001, 1002, by decide, by decide⟩
  record := ⟨⟨"gen-1", readingGeneration_valid⟩, 7⟩

/-- The insert of an entry is accepted by a small store with an empty file. -/
def Accepted (entry : OutboxEntry) : Prop :=
  (prepareInsert ⟨"store-a", .tiny⟩ "0011223344556677" ⟨0, 0, 0⟩ entry).isOk = true

theorem Accepted.pending {entry : OutboxEntry} (h : Accepted entry) :
    ∃ pending, prepareInsert ⟨"store-a", .tiny⟩ "0011223344556677" ⟨0, 0, 0⟩ entry = .ok pending := by
  unfold Accepted at h
  cases hprepare : prepareInsert ⟨"store-a", .tiny⟩ "0011223344556677" ⟨0, 0, 0⟩ entry with
  | ok pending => exact ⟨pending, rfl⟩
  | error e =>
    rw [hprepare] at h
    exact nomatch h

theorem tokenOk_worker : TokenOk (some "worker 'NULL'") := by
  rintro token ⟨⟩
  decide

end Verdant.Storage
