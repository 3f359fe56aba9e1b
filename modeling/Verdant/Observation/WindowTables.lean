import Verdant.Observation.Projection
import Verdant.Storage.Client
import Verdant.Storage.Guarded

/-!
# The observation tables

Rows, pins and gaps of the bounded window, with the statements its owner writes.  The window's state is not a table: it
is the response of the receipt `obw:state`, and every mutation leaves a receipt `obw:ticket:<revision>` of its own.
Columns of `observations` that only the `current` view reads are left out, and so is the hexadecimal and JSON framing in
which `load` moves its cells.
-/

namespace Verdant.Observation

open Storage TextCodec

/-! ### Tables -/

/-- One row of `observations`: scope, producer, generation and sequence are the primary key. -/
structure ObservationRow where
  scope : String
  producer : String
  generation : String
  seq : Nat
  valueJson : String
  deriving DecidableEq, Repr

/-- One row of `pins`; the identity of its record is a foreign key. -/
structure PinRow where
  pinId : String
  scope : String
  producer : String
  generation : String
  seq : Nat
  expiryMs : Int
  admitSeq : Nat
  deriving DecidableEq, Repr

/-- One row of `gaps`: scope, producer and first sequence are the primary key. -/
structure GapRow where
  scope : String
  producer : String
  fromSeq : Nat
  toSeq : Nat
  reason : String
  deriving DecidableEq, Repr

structure WindowTables where
  observations : List ObservationRow
  pins : List PinRow
  gaps : List GapRow
  deriving DecidableEq, Repr

def WindowTables.empty : WindowTables := ⟨[], [], []⟩

/-! ### Images -/

structure Pin where
  id : String
  generation : String
  seq : Nat
  expiryMs : Int
  admitSeq : Nat
  deriving DecidableEq, Repr

structure Gap where
  first : Nat
  last : Nat
  reason : String
  deriving DecidableEq, Repr

/-- One snapshot: the state text, the row texts, pins and gaps. -/
structure Image where
  state : Option String
  rows : List String
  pins : List Pin
  gaps : List Gap
  deriving DecidableEq, Repr

def PinRow.pin (r : PinRow) : Pin := ⟨r.pinId, r.generation, r.seq, r.expiryMs, r.admitSeq⟩

def GapRow.gap (r : GapRow) : Gap := ⟨r.fromSeq, r.toSeq, r.reason⟩

def stateOperation : String := "obw:state"
def stateRequest : String := "obw-state-v1"

/-- The response of the receipt that is the window's state. -/
def stateText (receipts : List ReceiptRow) : Option String :=
  (receipts.find? fun r => r.operation = stateOperation ∧ r.request = stateRequest).map ReceiptRow.response

def imageOf (db : Database WindowTables) : Image where
  state := stateText db.receipts
  rows := db.tables.observations.map ObservationRow.valueJson
  pins := db.tables.pins.map PinRow.pin
  gaps := db.tables.gaps.map GapRow.gap

/-- The rows of the snapshot, each led by its discriminant. -/
def imageRows (db : Database WindowTables) : Rows :=
  (stateText db.receipts).toList.map (fun raw => ["state", raw]) ++
    db.tables.observations.map (fun r => ["row", r.valueJson]) ++
    db.tables.pins.map (fun r =>
      ["pin", r.pinId, r.generation, Nat.repr r.seq, toString r.expiryMs, Nat.repr r.admitSeq]) ++
    db.tables.gaps.map (fun r => ["gap", Nat.repr r.fromSeq, Nat.repr r.toSeq, r.reason])

/-- One `SELECT` over the four parts. -/
def loadSql : Query WindowTables where
  text := "SELECT 'state',hex(response) FROM storage_receipts WHERE operation='obw:state' AND " ++
    "request='obw-state-v1' UNION ALL SELECT 'row',hex(value_json) FROM observations UNION ALL SELECT 'pin'," ++
    "hex(json_object('id',pin_id,'generation',generation,'seq',CAST(seq AS TEXT),'expiry'," ++
    "CAST(expiry_ms AS TEXT),'admit',CAST(admit_seq AS TEXT))) FROM pins UNION ALL SELECT 'gap',hex(json_object(" ++
    "'from',CAST(from_seq AS TEXT),'to',CAST(to_seq AS TEXT),'reason',reason)) FROM gaps;"
  rows _ db := .ok (imageRows db)

def fieldNumber (what raw : String) : Except StorageError Nat :=
  match parseU64 raw with
  | some n => .ok n
  | none => .error (invalid what)

def fieldSigned (what raw : String) : Except StorageError Int :=
  match parseI64 raw with
  | some n => .ok n
  | none => .error (invalid what)

/-- One row of the snapshot read into the image. -/
def addRow (image : Image) : List String → Except StorageError Image
  | ["state", raw] =>
    if image.state = none then .ok { image with state := some raw }
    else .error (invalid "projection discriminant")
  | ["row", raw] => .ok { image with rows := image.rows ++ [raw] }
  | ["pin", id, generation, seq, expiry, admitted] => do
    let seq ← fieldNumber "seq" seq
    let expiry ← fieldSigned "expiry" expiry
    let admitted ← fieldNumber "admit" admitted
    .ok { image with pins := image.pins ++ [⟨id, generation, seq, expiry, admitted⟩] }
  | ["gap", first, last, reason] => do
    let first ← fieldNumber "from" first
    let last ← fieldNumber "to" last
    .ok { image with gaps := image.gaps ++ [⟨first, last, reason⟩] }
  | _ => .error (invalid "projection row shape")

def boundsRefusal : StorageError := invalid "projection exceeds fixture bounds"

def decodeImage (rows : Rows) : Except StorageError Image := do
  let image ← rows.foldlM addRow ⟨none, [], [], []⟩
  if 32 < image.rows.length ∨ 8 < image.pins.length ∨ 64 < image.gaps.length then .error boundsRefusal
  else .ok image

def load : Call WindowTables (Except StorageError Image) := do
  match ← Call.read loadSql with
  | .ok rows => return decodeImage rows
  | .error e => return .error e

theorem fieldNumber_repr {what : String} {n m : Nat} (h : fieldNumber what (Nat.repr n) = .ok m) : m = n := by
  unfold fieldNumber at h
  split at h
  · rename_i k hk
    cases h
    have hparse : parseU64 (Nat.repr n) = (some n).filter fun n => n < 2 ^ 64 := by simp [parseU64]
    rw [hparse] at hk
    exact (Option.some.inj (Option.filter_eq_some_iff.1 hk).1).symm
  · cases h

theorem fieldSigned_toString {what : String} {i j : Int} (h : fieldSigned what (toString i) = .ok j) : j = i := by
  unfold fieldSigned at h
  split at h
  · rename_i k hk
    cases h
    have hparse : parseI64 (toString i) = (some i).filter fun n => -2 ^ 63 ≤ n ∧ n < 2 ^ 63 := by
      rw [parseI64, parseInt_toString]
    rw [hparse] at hk
    exact (Option.some.inj (Option.filter_eq_some_iff.1 hk).1).symm
  · cases h

section Decode

variable {image out : Image}

theorem addRows_state {state : Option String} (hnone : image.state = none)
    (h : (state.toList.map fun raw => ["state", raw]).foldlM addRow image = .ok out) :
    out = { image with state := state } := by
  cases state with
  | none =>
    cases h
    rw [← hnone]
  | some raw =>
    simp only [Option.toList_some, List.map_cons, List.map_nil, List.foldlM_cons, List.foldlM_nil, addRow, hnone,
      if_true] at h
    exact (Except.ok.inj h).symm

theorem addRows_rows {rows : List ObservationRow}
    (h : (rows.map fun r => ["row", r.valueJson]).foldlM addRow image = .ok out) :
    out = { image with rows := image.rows ++ rows.map ObservationRow.valueJson } := by
  induction rows generalizing image with
  | nil =>
    cases h
    simp
  | cons r rows ih =>
    rw [List.map_cons, List.foldlM_cons, Result.bind_eq_ok] at h
    obtain ⟨next, hnext, hrest⟩ := h
    cases hnext
    rw [ih hrest]
    simp

theorem addRows_pins {pins : List PinRow}
    (h : (pins.map fun r =>
      ["pin", r.pinId, r.generation, Nat.repr r.seq, toString r.expiryMs, Nat.repr r.admitSeq]).foldlM addRow image =
        .ok out) : out = { image with pins := image.pins ++ pins.map PinRow.pin } := by
  induction pins generalizing image with
  | nil =>
    cases h
    simp
  | cons r pins ih =>
    rw [List.map_cons, List.foldlM_cons, Result.bind_eq_ok] at h
    obtain ⟨next, hnext, hrest⟩ := h
    obtain ⟨seq, hseq, hnext⟩ := Result.bind_eq_ok.1 hnext
    obtain ⟨expiry, hexpiry, hnext⟩ := Result.bind_eq_ok.1 hnext
    obtain ⟨admitted, hadmitted, hnext⟩ := Result.bind_eq_ok.1 hnext
    obtain rfl := fieldNumber_repr hseq
    obtain rfl := fieldSigned_toString hexpiry
    obtain rfl := fieldNumber_repr hadmitted
    cases hnext
    rw [ih hrest]
    simp [PinRow.pin]

theorem addRows_gaps {gaps : List GapRow}
    (h : (gaps.map fun r => ["gap", Nat.repr r.fromSeq, Nat.repr r.toSeq, r.reason]).foldlM addRow image = .ok out) :
    out = { image with gaps := image.gaps ++ gaps.map GapRow.gap } := by
  induction gaps generalizing image with
  | nil =>
    cases h
    simp
  | cons r gaps ih =>
    rw [List.map_cons, List.foldlM_cons, Result.bind_eq_ok] at h
    obtain ⟨next, hnext, hrest⟩ := h
    obtain ⟨first, hfirst, hnext⟩ := Result.bind_eq_ok.1 hnext
    obtain ⟨last, hlast, hnext⟩ := Result.bind_eq_ok.1 hnext
    obtain rfl := fieldNumber_repr hfirst
    obtain rfl := fieldNumber_repr hlast
    cases hnext
    rw [ih hrest]
    simp [GapRow.gap]

/-- A snapshot that is read is the image of the database. -/
theorem decodeImage_rows {db : Database WindowTables} (h : decodeImage (imageRows db) = .ok image) :
    image = imageOf db := by
  unfold decodeImage imageRows at h
  obtain ⟨out, hout, h⟩ := Result.bind_eq_ok.1 h
  obtain ⟨-, h⟩ := Result.ite_error_eq_ok.1 h
  cases h
  rw [List.foldlM_append, Result.bind_eq_ok] at hout
  obtain ⟨c, hc, hgaps⟩ := hout
  rw [List.foldlM_append, Result.bind_eq_ok] at hc
  obtain ⟨b, hb, hpins⟩ := hc
  rw [List.foldlM_append, Result.bind_eq_ok] at hb
  obtain ⟨a, hstate, hrows⟩ := hb
  rw [addRows_gaps hgaps, addRows_pins hpins, addRows_rows hrows, addRows_state rfl hstate]
  simp [imageOf]

end Decode

/-- What a read of the snapshot answers. -/
theorem load_answer {m : Moment} {db : Database WindowTables} {rows : Rows}
    (h : execScript m loadSql db = .ok rows) : rows = imageRows db := by
  unfold execScript at h
  split at h
  · exact nomatch h
  · exact (Except.ok.inj h).symm

/-! ### Statements -/

def createPayload : Statement WindowTables where
  text := "CREATE TEMP TABLE obw_payload(data TEXT);"
  exec s := .ok (s, [])

def deletePin (id : String) : Statement WindowTables :=
  .onTables s!"DELETE FROM pins WHERE pin_id={sqlQuote id};" fun s => .ok {
    tables := { s.tables with pins := s.tables.pins.filter fun r => r.pinId ≠ id }
    lastInsertRowid := s.lastInsertRowid
    changes := (s.tables.pins.filter fun r => r.pinId = id).length
    rows := [] }

/-- The pin names this record. -/
def PinRow.refersTo (pin : PinRow) (r : ObservationRow) : Bool :=
  pin.scope = r.scope ∧ pin.producer = r.producer ∧ pin.generation = r.generation ∧ pin.seq = r.seq

def ObservationRow.isAt (scope producer : String) (seq : Nat) (r : ObservationRow) : Bool :=
  r.scope = scope ∧ r.producer = producer ∧ r.seq = seq

def deleteObservation (scope producer : String) (seq : Nat) : Statement WindowTables :=
  .onTables
    (s!"DELETE FROM observations WHERE scope={sqlQuote scope} AND producer={sqlQuote producer} AND " ++
      s!"seq={seq};")
    fun s =>
      let dropped := s.tables.observations.filter (ObservationRow.isAt scope producer seq)
      if dropped.any fun r => s.tables.pins.any fun pin => pin.refersTo r then
        .error "FOREIGN KEY constraint failed"
      else .ok {
        tables := { s.tables with
          observations := s.tables.observations.filter fun r => !r.isAt scope producer seq }
        lastInsertRowid := s.lastInsertRowid
        changes := dropped.length
        rows := [] }

/-- The columns `json_extract` takes from a payload. -/
def payloadRow (scope producer raw : String) : Except StorageError ObservationRow := do
  let fields ← object raw
  let generation ← text fields "generation"
  let seq ← number fields "seq"
  .ok ⟨scope, producer, generation, seq, raw⟩

def ObservationRow.sameKey (a b : ObservationRow) : Bool :=
  a.scope = b.scope ∧ a.producer = b.producer ∧ a.generation = b.generation ∧ a.seq = b.seq

/-- Writes one payload: a record with its identity is replaced in place. -/
def upsertObservation (scope producer raw : String) (revision : Nat) : Statement WindowTables :=
  .onTables
    (s!"DELETE FROM obw_payload; INSERT INTO obw_payload VALUES({sqlQuote raw}); INSERT INTO observations(scope," ++
      "producer,generation,seq,binding_key,value_json,unit,source_ms,receipt_ms,ingestion_ms,receipt_mark," ++
      s!"incarnation,suitability,created) SELECT {sqlQuote scope},{sqlQuote producer}," ++
      "json_extract(data,'$.generation'),CAST(json_extract(data,'$.seq') AS INTEGER),json_extract(data,'$.key')," ++
      "data,json_extract(data,'$.unit'),CAST(json_extract(data,'$.source') AS INTEGER)," ++
      "CAST(json_extract(data,'$.receipt') AS INTEGER),CAST(json_extract(data,'$.ingestion') AS INTEGER)," ++
      "json_extract(data,'$.mark'),json_extract(data,'$.incarnation'),json_extract(data,'$.suitability')," ++
      s!"{revision} FROM obw_payload WHERE 1 ON CONFLICT(scope,producer,generation,seq) DO UPDATE SET " ++
      "value_json=excluded.value_json;")
    fun s =>
      match payloadRow scope producer raw with
      | .error _ => .error "malformed JSON"
      | .ok row =>
        if s.tables.observations.any fun r => r.sameKey row then .ok {
          tables := { s.tables with
            observations := s.tables.observations.map fun r =>
              if r.sameKey row then { r with valueJson := raw } else r }
          lastInsertRowid := s.lastInsertRowid
          changes := 1
          rows := [] }
        else if s.tables.observations.any (ObservationRow.isAt scope producer row.seq) then
          .error ("UNIQUE constraint failed: observations.scope, observations.producer, observations.seq")
        else .ok {
          tables := { s.tables with observations := s.tables.observations ++ [row] }
          lastInsertRowid := s.tables.observations.length + 1
          changes := 1
          rows := [] }

def insertPin (scope producer : String) (pin : Pin) : Statement WindowTables :=
  .onTables
    (s!"INSERT INTO pins VALUES({sqlQuote pin.id},{sqlQuote scope},{sqlQuote producer}," ++
      s!"{sqlQuote pin.generation},{pin.seq},{pin.expiryMs},{pin.admitSeq});")
    fun s =>
      let row : PinRow := ⟨pin.id, scope, producer, pin.generation, pin.seq, pin.expiryMs, pin.admitSeq⟩
      if s.tables.pins.any fun r => r.pinId = pin.id then .error "UNIQUE constraint failed: pins.pin_id"
      else if !s.tables.observations.any row.refersTo then .error "FOREIGN KEY constraint failed"
      else .ok {
        tables := { s.tables with pins := s.tables.pins ++ [row] }
        lastInsertRowid := s.tables.pins.length + 1
        changes := 1
        rows := [] }

def GapRow.ofWindow (scope producer : String) (r : GapRow) : Bool := r.scope = scope ∧ r.producer = producer

def deleteGaps (scope producer : String) : Statement WindowTables :=
  .onTables s!"DELETE FROM gaps WHERE scope={sqlQuote scope} AND producer={sqlQuote producer};" fun s => .ok {
    tables := { s.tables with gaps := s.tables.gaps.filter fun r => !r.ofWindow scope producer }
    lastInsertRowid := s.lastInsertRowid
    changes := (s.tables.gaps.filter (GapRow.ofWindow scope producer)).length
    rows := [] }

def insertGap (scope producer : String) (gap : Gap) : Statement WindowTables :=
  .onTables
    (s!"INSERT INTO gaps VALUES({sqlQuote scope},{sqlQuote producer},{gap.first},{gap.last}," ++
      s!"{sqlQuote gap.reason});")
    fun s =>
      let row : GapRow := ⟨scope, producer, gap.first, gap.last, gap.reason⟩
      if gap.last < gap.first then .error "CHECK constraint failed: to_seq >= from_seq"
      else if gap.reason ≠ "window-evicted" then .error "CHECK constraint failed: reason = 'window-evicted'"
      else if s.tables.gaps.any fun r => r.ofWindow scope producer && r.fromSeq = gap.first then
        .error "UNIQUE constraint failed: gaps.scope, gaps.producer, gaps.from_seq"
      else .ok {
        tables := { s.tables with gaps := s.tables.gaps ++ [row] }
        lastInsertRowid := s.tables.gaps.length + 1
        changes := 1
        rows := [] }

def ticketPrefix : String := "obw:ticket:"

/-- The number `CAST(substr(operation,12) AS INTEGER)` reads where `GLOB 'obw:ticket:[0-9]*'` matches. -/
def ticketNumber (operation : String) : Option Nat :=
  if ticketPrefix.toList.isPrefixOf operation.toList then
    let digits := (operation.toList.drop ticketPrefix.toList.length).takeWhile Char.isDigit
    if digits = [] then none else parseDigits digits
  else none

/-- The receipt is one the pruning pattern deletes. -/
def Prunes (bound : Nat) (r : ReceiptRow) : Bool := (ticketNumber r.operation).any fun n => n ≤ bound

def pruneTickets (bound : Nat) : Statement WindowTables where
  text := "DELETE FROM storage_receipts WHERE operation GLOB 'obw:ticket:[0-9]*' AND " ++
    s!"CAST(substr(operation,12) AS INTEGER)<={bound};"
  exec s := .ok ({ s with
    receipts := s.receipts.filter fun r => !Prunes bound r
    changes := (s.receipts.filter (Prunes bound)).length }, [])

/-- `ON CONFLICT(operation) DO UPDATE SET response=excluded.response`. -/
def upsertStateRow (raw : String) (receipts : List ReceiptRow) : List ReceiptRow :=
  if receipts.any fun r => r.operation = stateOperation then
    receipts.map fun r => if r.operation = stateOperation then { r with response := raw } else r
  else receipts ++ [⟨stateOperation, stateRequest, raw⟩]

def upsertState (raw : String) : Statement WindowTables where
  text := "INSERT INTO storage_receipts(operation,request,response) VALUES('obw:state','obw-state-v1'," ++
    s!"{sqlQuote raw}) ON CONFLICT(operation) DO UPDATE SET response=excluded.response;"
  exec s := .ok ({ s with receipts := upsertStateRow raw s.receipts, changes := 1 }, [])

def insertResult : Statement WindowTables where
  text := "CREATE TEMP TABLE obw_result(id INTEGER PRIMARY KEY); INSERT INTO obw_result VALUES(1);"
  exec s := .ok ({ s with lastInsertRowid := 1, changes := 1 }, [])

end Verdant.Observation
