import Verdant.Access.GateRuns

/-!
# Progress of a gate alone

A gate call that nothing disturbs does what its `Commit` says: on a quiet host with room for the rows, the batch built
from a read of the database is committed, and its rows are the end of the admission log.
-/

namespace Verdant.Access

open TextCodec Storage Prog

/-- The tables have ids left for `n` more rows and marks. -/
structure Room (tables : OutboxTables) (n : Nat) : Prop where
  ids : tables.lastId + n < 2 ^ 63
  marks : tables.derivedMarks.length + n < 2 ^ 63

/-- The counters a batch of inserts answers with. -/
def Counted (s : Session OutboxTables) : Prop := 0 < s.lastInsertRowid ∧ s.lastInsertRowid < 2 ^ 63 ∧ s.changes = 1

theorem insertAdmission_runs (row : NewRow) {s : Session OutboxTables} (h : s.tables.lastId + 1 < 2 ^ 63) :
    ∃ t, (insertAdmission row).exec s = .ok (t, []) ∧ t.receipts = s.receipts ∧
      t.tables.lastId = s.tables.lastId + 1 ∧ t.tables.derivedMarks = s.tables.derivedMarks := by
  refine ⟨{ s with
    tables := { s.tables with
      outbox := s.tables.outbox ++ [row.record (s.tables.lastId + 1)]
      lastId := s.tables.lastId + 1 }
    lastInsertRowid := s.tables.lastId + 1
    changes := 1 }, ?_, rfl, rfl, rfl⟩
  unfold insertAdmission insertRow Statement.onTables
  simp only [if_pos h, if_true, Result.ok_bind]

theorem markAdmission_runs (entity : String) {s : Session OutboxTables} (hid : s.lastInsertRowid < 2 ^ 63)
    (hpos : 0 < s.lastInsertRowid) (h : s.tables.derivedMarks.length + 1 < 2 ^ 63) :
    ∃ t, (markAdmission entity).exec s = .ok (t, []) ∧ t.receipts = s.receipts ∧ t.tables.lastId = s.tables.lastId ∧
      t.tables.derivedMarks.length ≤ s.tables.derivedMarks.length + 1 ∧ Counted t := by
  unfold markAdmission markEntity markDirty Statement.onTables
  simp only
  by_cases hmarked : (s.tables.derivedMarks.any fun m => m.entity = entity) = true
  · simp only [if_pos hmarked, Result.ok_bind]
    exact ⟨_, rfl, rfl, rfl, by simp, hpos, hid, rfl⟩
  · simp only [if_neg hmarked, Result.ok_bind]
    exact ⟨_, rfl, rfl, rfl, by simp, by simp, h, rfl⟩

/-- With room for its rows a batch runs through. -/
theorem admissionScript_runs {count index payload total : Nat} {records : List AdmissionRecord}
    {script : Script OutboxTables} (h : admissionScript count index payload records = .ok (script, total))
    {s : Session OutboxTables} (hroom : Room s.tables records.length) :
    ∃ t, script.run s = .ok (t, []) ∧ t.receipts = s.receipts ∧ (records ≠ [] → Counted t) ∧
      ∀ n, Room s.tables (records.length + n) → Room t.tables n := by
  induction records generalizing index payload script s with
  | nil =>
    cases h
    refine ⟨s, rfl, rfl, fun h => absurd rfl h, fun n hn => ?_⟩
    rwa [List.length_nil, Nat.zero_add] at hn
  | cons record records ih =>
    unfold admissionScript at h
    obtain ⟨_, -, h⟩ := Result.bind_eq_ok.1 h
    obtain ⟨_, -, h⟩ := Result.bind_eq_ok.1 h
    simp only at h
    split at h
    · cases h
    obtain ⟨⟨rest, size⟩, hrest, h⟩ := Result.bind_eq_ok.1 h
    cases h
    have hids := hroom.ids
    have hmarks := hroom.marks
    rw [List.length_cons] at hids hmarks
    obtain ⟨u, hinsert, hreceipts, hlast, hsame⟩ := insertAdmission_runs (admissionRow (count + index + 1) record)
      (s := s) (by omega)
    obtain ⟨-, -, -, hcases⟩ := insertRow_exec hinsert
    obtain ⟨-, -, hrowid, -⟩ := hcases.resolve_right (by rintro ⟨hfalse, -⟩; cases hfalse)
    obtain ⟨v, hmark, hkept, hlast', hgrown, hcounted⟩ := markAdmission_runs record.entity (s := u.tick)
      (by rw [Session.tick_lastInsertRowid, hrowid]; omega) (by rw [Session.tick_lastInsertRowid, hrowid]; omega)
      (by rw [Session.tick_tables, hsame]; omega)
    rw [Session.tick_tables, hsame] at hgrown
    rw [Session.tick_tables, hlast] at hlast'
    have hroom' : Room v.tick.tables records.length := by
      constructor
      · rw [Session.tick_tables, hlast']
        omega
      · rw [Session.tick_tables]
        omega
    obtain ⟨t, hrun, hreceipts', hmore, hleft⟩ := ih hrest hroom'
    refine ⟨t, ?_, hreceipts'.trans (hkept.trans hreceipts), fun _ => ?_, fun n hn => hleft n ?_⟩
    · rw [Script.run_cons_ok]
      refine ⟨u, [], [], hinsert, ?_, rfl⟩
      rw [Script.run_cons_ok]
      exact ⟨v, [], [], hmark, hrun, rfl⟩
    · cases records with
      | nil =>
        cases hrest
        cases hrun
        exact hcounted
      | cons record records => exact hmore (by simp)
    · have hnids := hn.ids
      have hnmarks := hn.marks
      rw [List.length_cons] at hnids hnmarks
      constructor
      · rw [Session.tick_tables, hlast']
        omega
      · rw [Session.tick_tables]
        omega

theorem liveGuard_runs (expires : Option Int64) {s : Session OutboxTables}
    (h : ∀ expiry ∈ expires, (s.clock 1).toInt < expiry.toInt) :
    ∃ t, (liveGuard expires).run s = .ok (t, []) ∧ t.toDatabase = s.toDatabase := by
  cases expires with
  | none => exact ⟨s, rfl, rfl⟩
  | some expiry =>
    have hlive : decide (s.tick.now < expiry.toInt) = true := decide_eq_true (h expiry rfl)
    refine ⟨{ s.tick with lastInsertRowid := 1, changes := 1 }.tick, ?_, rfl⟩
    unfold liveGuard
    rw [Script.run_cons_ok]
    refine ⟨s, [], [], rfl, ?_, rfl⟩
    rw [Script.run_cons_ok]
    refine ⟨{ s.tick with lastInsertRowid := 1, changes := 1 }, [], [], ?_, rfl, rfl⟩
    exact if_pos hlive

/-- What a batch needs of its store: a fresh identity and the space for its rows. -/
structure Fits (store : SqliteStore) (db : Database OutboxTables) (operation : OperationId) (payload : Nat) : Prop where
  fresh : findReceipt db.receipts operation.text = none
  value : payload ≤ store.bounds.maxValueBytes
  space : saturatingAdd 0 payload ≤ store.bounds.maxDbBytes

/-- A batch built from a read of the database commits its rows. -/
theorem run_commit (gate : AccessGate) {db : Database OutboxTables} (hdb : Kept db) {state : State}
    (hholds : state.guard.holds db.tables = true) {rows : List Admission} (hne : rows ≠ []) {expires : Option Int64}
    {who : Option Credential} {script : Script OutboxTables} {payload : Nat}
    (hscript : admissionScript state.count 0 0 (rows.map Admission.toRecord) = .ok (script, payload))
    (hroom : Room db.tables rows.length) {m m' : Moment} {rest : List Moment} {operation : OperationId}
    (hid : OperationId.parse m.id = .ok operation) (hhost : m'.host.Quiet) (hfits : Fits gate.store db operation payload)
    (hlive : ∀ expiry ∈ expires, guardReading m' < expiry.toInt)
    (hcommit : Commit (guardReading m') (admissions db.tables) who rows) :
    ∃ db', (gate.batch state (rows.map Admission.toRecord) expires >>= gate.submit).run.run StoreOp.exec
        (m :: m' :: rest) db = (db', some (.ok (), rest)) ∧
      admissions db'.tables = admissions db.tables ++ rows ∧ Kept db' ∧
      (∀ n, Room db.tables (rows.length + n) → Room db'.tables n) ∧
      db'.receipts.map ReceiptRow.operation = db.receipts.map ReceiptRow.operation ++ [operation.text] := by
  have hpending : prepareGuardedBatch gate.store m.id state.guard.text (fun s => state.guard.holds s.tables)
      (liveGuard expires ++ script) payload = .ok ⟨operation, gate.store.identity, guardedBatch state.guard.text
        (fun s => state.guard.holds s.tables) (liveGuard expires ++ script), .insert, payload, false⟩ := by
    unfold prepareGuardedBatch PreparedMutation.new
    rw [hid]
    rfl
  -- the body: the liveness guard, then the rows
  obtain ⟨w, hguard, hwdb⟩ := liveGuard_runs expires
    (s := { db.begin m'.host.clock with lastInsertRowid := 1, changes := 1, clock := fun n => m'.host.clock (n + 2) }) hlive
  have hwtables : w.tables = db.tables := congrArg Database.tables hwdb
  obtain ⟨v, hrun, hreceipts, hcounted, hleft⟩ := admissionScript_runs hscript (s := w)
    (by rw [hwtables, List.length_map]; exact hroom)
  have hwreceipts : w.receipts = db.receipts := congrArg Database.receipts hwdb
  obtain ⟨-, new, happended, hcolumns⟩ := admissionScript_run hscript hrun
  obtain ⟨hpos, hlast, hchanges⟩ := hcounted (by simpa using hne)
  have hbody : (guardedBatch state.guard.text (fun s => state.guard.holds s.tables)
      (liveGuard expires ++ script)).run (db.begin m'.host.clock) =
        .ok (v.tick.tick, [[Nat.repr v.lastInsertRowid], [Nat.repr v.changes]]) :=
    run_guardedBatch_of hholds (Script.run_append_ok.2 ⟨w, [], [], hguard, hrun, rfl⟩)
  have hvalid : validateRows .insert [[Nat.repr v.lastInsertRowid], [Nat.repr v.changes]] = .ok () := by
    rw [validateRows_insert, hchanges]
    exact ⟨_, _, rfl, parseI64_repr hlast, by omega⟩
  have hsubmit := submit_quiet gate.store ⟨operation, gate.store.identity, guardedBatch state.guard.text
    (fun s => state.guard.holds s.tables) (liveGuard expires ++ script), .insert, payload, false⟩ hhost
    rfl rfl hfits.fresh hfits.value hfits.space hbody (hreceipts.trans hwreceipts) hvalid
  rw [hwtables] at happended
  have hnew : new.map NewRow.columns = rows.map Admission.columns := by
    rw [hcolumns, List.map_map]
    rfl
  obtain ⟨hadded, hadmitted⟩ := appended_commit happended hdb.admitted hnew hcommit
  refine ⟨(Storage.submit gate.store ⟨operation, gate.store.identity, guardedBatch state.guard.text
    (fun s => state.guard.holds s.tables) (liveGuard expires ++ script), .insert, payload, false⟩ m'.host db).1, ?_, ?_,
    ⟨?_, ?_⟩, ?_, ?_⟩
  · have hbatch : (gate.batch state (rows.map Admission.toRecord) expires).run.run StoreOp.exec (m :: m' :: rest) db =
        (db, some (.ok ⟨operation, gate.store.identity, guardedBatch state.guard.text
          (fun s => state.guard.holds s.tables) (liveGuard expires ++ script), .insert, payload, false⟩,
          m' :: rest)) := by
      unfold AccessGate.batch
      rw [run_try_bind, hscript]
      have hcheck : (check (.ok (script, payload)) : AccessCall _).run.run StoreOp.exec (m :: m' :: rest) db =
          (db, some (.ok (script, payload), m :: m' :: rest)) := rfl
      rw [hcheck]
      simp only
      rw [run_try_bind]
      have hdraw : (liftM (Call.draw : Call OutboxTables String) : AccessCall String).run.run StoreOp.exec
          (m :: m' :: rest) db = (db, some (.ok m.id, m' :: rest)) := rfl
      rw [hdraw]
      simp only
      rw [hpending]
      rfl
    rw [run_try_bind, hbatch]
    simp only
    unfold AccessGate.submit
    rw [run_try_bind]
    have hstep : ∀ pending : PreparedMutation OutboxTables,
        (liftM (Call.submit gate.store pending) : AccessCall MutationOutcome).run.run StoreOp.exec (m' :: rest) db =
          ((Storage.submit gate.store pending m'.host db).1,
            some (.ok (Storage.submit gate.store pending m'.host db).2, rest)) := fun _ => rfl
    rw [hstep, hsubmit]
    rfl
  · rw [hsubmit]
    exact hadded
  · rw [hsubmit]
    exact happended.ordered hdb.ordered
  · rw [hsubmit]
    exact hadmitted
  · intro n hn
    rw [hsubmit]
    refine hleft n ?_
    rw [hwtables, List.length_map]
    exact hn
  · have hkept : v.tick.tick.receipts = db.receipts := hreceipts.trans hwreceipts
    rw [hsubmit, List.map_append, hkept]
    rfl

/-! ### Sizes -/

theorem size_encodeBootstrap_le (row : BootstrapRow) (hgeneration : row.generation < 10 ^ 10) :
    (encodeBootstrap row).utf8ByteSize ≤
      3 * (row.user.text.utf8ByteSize + row.issuer.text.utf8ByteSize + row.reason.utf8ByteSize) + 100 := by
  have hall := size_descriptor_le [
    ("v", "2"), ("kind", "bootstrap"), ("user", pctEncode row.user.text), ("issuer", pctEncode row.issuer.text),
    ("reason", pctEncode row.reason), ("generation", Nat.repr row.generation)]
  have huser := size_pctEncode_le row.user.text
  have hissuer := size_pctEncode_le row.issuer.text
  have hreason := size_pctEncode_le row.reason
  have hrepr := utf8ByteSize_repr_le (by decide) hgeneration
  have hwords : ("v" : String).utf8ByteSize = 1 ∧ ("2" : String).utf8ByteSize = 1 ∧ ("kind" : String).utf8ByteSize = 4 ∧
      ("bootstrap" : String).utf8ByteSize = 9 ∧ ("user" : String).utf8ByteSize = 4 ∧
      ("issuer" : String).utf8ByteSize = 6 ∧ ("reason" : String).utf8ByteSize = 6 ∧
      ("generation" : String).utf8ByteSize = 10 := by decide
  simp only [List.map_cons, List.map_nil, List.sum_cons, List.sum_nil] at hall
  unfold encodeBootstrap
  omega

theorem size_adminText_le (policy : CapabilityPolicy) : (adminText policy).utf8ByteSize ≤ 4 := by
  unfold adminText
  cases policy.adminCeiling with
  | none => decide
  | some level =>
    have hlt := level.toNat_lt
    exact utf8ByteSize_repr_le (by decide) (by omega)

theorem size_expiresText_le (policy : CapabilityPolicy) : (expiresText policy).utf8ByteSize ≤ 21 := by
  unfold expiresText
  cases policy.expiresAtMs with
  | none => decide
  | some expiry =>
    have hlow := expiry.le_toInt
    have hhigh := expiry.toInt_lt
    simp only
    cases hint : expiry.toInt with
    | ofNat n =>
      rw [hint, Int.ofNat_eq_natCast] at hhigh
      have htext : toString (Int.ofNat n) = Nat.repr n := rfl
      rw [htext]
      exact utf8ByteSize_repr_le (by decide) (by omega)
    | negSucc n =>
      rw [hint] at hlow
      have htext : toString (Int.negSucc n) = "-" ++ Nat.repr (n + 1) := rfl
      have hsign : ("-" : String).utf8ByteSize = 1 := by decide
      have hrepr : (Nat.repr (n + 1)).utf8ByteSize ≤ 20 := utf8ByteSize_repr_le (by decide) (by omega)
      rw [htext, String.utf8ByteSize_append, hsign]
      omega

theorem size_scopesText_le (policy : CapabilityPolicy) : (scopesText policy).utf8ByteSize ≤ 16 * 129 := by
  have hlen : policy.scopes.length ≤ 16 := by
    cases hadmin : policy.adminCeiling with
    | none =>
      rw [policy.entry hadmin]
      decide
    | some level => exact (policy.admin level hadmin).2.1
  have hsep : (',' : Char).utf8Size = 1 := by decide
  have hsum : ∀ scopes : List TrustedScope,
      ((scopes.map TrustedScope.text).map fun f => f.utf8ByteSize + (',' : Char).utf8Size).sum ≤ scopes.length * 129 := by
    intro scopes
    induction scopes with
    | nil => simp
    | cons scope scopes ih =>
      have hscope : scope.text.utf8ByteSize ≤ 128 := scope.valid.2.1
      rw [List.map_cons, List.map_cons, List.sum_cons, List.length_cons, hsep]
      rw [hsep] at ih
      omega
  have hjoin := utf8ByteSize_joinText_le ',' (policy.scopes.map TrustedScope.text)
  have hall := hsum policy.scopes
  unfold scopesText
  omega

theorem size_encodeIssue_le (row : IssueRow) (hfp : row.keyFp.utf8ByteSize ≤ 64) :
    (encodeIssue row).utf8ByteSize ≤ 3 * (row.reason.utf8ByteSize + row.label.utf8ByteSize) + 10000 := by
  have hall := size_descriptor_le [
    ("v", "2"), ("kind", "issue"), ("cap", pctEncode row.cap.text), ("scope", pctEncode row.scope.text),
    ("ceiling", Nat.repr row.ceiling.toNat), ("role", pctEncode (RoleKind.asStr row.role)),
    ("key", pctEncode row.keyId.text), ("keyfp", pctEncode row.keyFp), ("issuer", pctEncode row.issuer.text),
    ("capgen", Nat.repr row.capgen.toNat), ("user", pctEncode row.user.text), ("reason", pctEncode row.reason),
    ("label", pctEncode row.label), ("admin", adminText row.policy), ("scopes", pctEncode (scopesText row.policy)),
    ("expires", expiresText row.policy)]
  have hcap := size_pctEncode_le row.cap.text
  have hcapId : row.cap.text.utf8ByteSize ≤ 128 := row.cap.valid.2.1
  have hscope := size_pctEncode_le row.scope.text
  have hscopeId : row.scope.text.utf8ByteSize ≤ 128 := row.scope.valid.2.1
  have hceiling : (Nat.repr row.ceiling.toNat).utf8ByteSize ≤ 3 := by
    have hlt := row.ceiling.toNat_lt
    exact utf8ByteSize_repr_le (by decide) (by omega)
  have hrole := size_pctEncode_le (RoleKind.asStr row.role)
  have hroleText : (RoleKind.asStr row.role).utf8ByteSize ≤ 9 := by cases row.role <;> decide
  have hkey := size_pctEncode_le row.keyId.text
  have hkeyId : row.keyId.text.utf8ByteSize ≤ 128 := row.keyId.valid.2.1
  have hkeyfp := size_pctEncode_le row.keyFp
  have hissuer := size_pctEncode_le row.issuer.text
  have hissuerId : row.issuer.text.utf8ByteSize ≤ 128 := row.issuer.valid.2.1
  have hcapgen : (Nat.repr row.capgen.toNat).utf8ByteSize ≤ 10 := by
    have hlt := row.capgen.toNat_lt
    exact utf8ByteSize_repr_le (by decide) (by omega)
  have huser := size_pctEncode_le row.user.text
  have huserId : row.user.text.utf8ByteSize ≤ 128 := row.user.valid.2.1
  have hreason := size_pctEncode_le row.reason
  have hlabel := size_pctEncode_le row.label
  have hadmin := size_adminText_le row.policy
  have hscopes := size_pctEncode_le (scopesText row.policy)
  have hscopesText := size_scopesText_le row.policy
  have hexpires := size_expiresText_le row.policy
  have hwords : ("v" : String).utf8ByteSize = 1 ∧ ("2" : String).utf8ByteSize = 1 ∧ ("kind" : String).utf8ByteSize = 4 ∧
      ("issue" : String).utf8ByteSize = 5 ∧ ("cap" : String).utf8ByteSize = 3 ∧ ("scope" : String).utf8ByteSize = 5 ∧
      ("ceiling" : String).utf8ByteSize = 7 ∧ ("role" : String).utf8ByteSize = 4 ∧ ("key" : String).utf8ByteSize = 3 ∧
      ("keyfp" : String).utf8ByteSize = 5 ∧ ("issuer" : String).utf8ByteSize = 6 ∧
      ("capgen" : String).utf8ByteSize = 6 ∧ ("user" : String).utf8ByteSize = 4 ∧
      ("reason" : String).utf8ByteSize = 6 ∧ ("label" : String).utf8ByteSize = 5 ∧
      ("admin" : String).utf8ByteSize = 5 ∧ ("scopes" : String).utf8ByteSize = 6 ∧
      ("expires" : String).utf8ByteSize = 7 := by decide
  simp only [List.map_cons, List.map_nil, List.sum_cons, List.sum_nil] at hall
  unfold encodeIssue
  omega

theorem size_encodeRevoke_le (row : RevokeRow) :
    (encodeRevoke row).utf8ByteSize ≤ 3 * row.reason.utf8ByteSize + 1300 := by
  have hall := size_descriptor_le [
    ("v", "2"), ("kind", "revoke"), ("cap", pctEncode row.cap.text), ("key", pctEncode row.keyId.text),
    ("capgen", Nat.repr row.capgen.toNat), ("issuer", pctEncode row.issuer.text), ("reason", pctEncode row.reason)]
  have hcap := size_pctEncode_le row.cap.text
  have hcapId : row.cap.text.utf8ByteSize ≤ 128 := row.cap.valid.2.1
  have hkey := size_pctEncode_le row.keyId.text
  have hkeyId : row.keyId.text.utf8ByteSize ≤ 128 := row.keyId.valid.2.1
  have hcapgen : (Nat.repr row.capgen.toNat).utf8ByteSize ≤ 10 := by
    have hlt := row.capgen.toNat_lt
    exact utf8ByteSize_repr_le (by decide) (by omega)
  have hissuer := size_pctEncode_le row.issuer.text
  have hissuerId : row.issuer.text.utf8ByteSize ≤ 128 := row.issuer.valid.2.1
  have hreason := size_pctEncode_le row.reason
  have hwords : ("v" : String).utf8ByteSize = 1 ∧ ("2" : String).utf8ByteSize = 1 ∧ ("kind" : String).utf8ByteSize = 4 ∧
      ("revoke" : String).utf8ByteSize = 6 ∧ ("cap" : String).utf8ByteSize = 3 ∧ ("key" : String).utf8ByteSize = 3 ∧
      ("capgen" : String).utf8ByteSize = 6 ∧ ("issuer" : String).utf8ByteSize = 6 ∧
      ("reason" : String).utf8ByteSize = 6 := by decide
  simp only [List.map_cons, List.map_nil, List.sum_cons, List.sum_nil] at hall
  unfold encodeRevoke
  omega

theorem isId_operation (row : Admission) : IsId row.operation := by
  have hall : IsId opBootstrapText ∧ IsId opIssueText ∧ IsId opRevokeText := by decide
  cases row with
  | bootstrap row => exact hall.1
  | issue row => exact hall.2.1
  | revoke row => exact hall.2.2

/-- The bytes a batch of rows may put into its payload. -/
def payloadBound (rows : List Admission) : Nat := (rows.map fun row => 6 * row.encode.utf8ByteSize + 40).sum

/-- Rows whose texts are not too long make a batch. -/
theorem admissionScript_of_bound (count index payload : Nat) (rows : List Admission)
    (h : payload + payloadBound rows < 2 ^ 64) :
    ∃ script total, admissionScript count index payload (rows.map Admission.toRecord) = .ok (script, total) ∧
      total ≤ payload + payloadBound rows := by
  induction rows generalizing index payload with
  | nil => exact ⟨[], payload, rfl, Nat.le_add_right _ _⟩
  | cons row rows ih =>
    have hcons : payloadBound (row :: rows) = 6 * row.encode.utf8ByteSize + 40 + payloadBound rows := by
      unfold payloadBound
      rw [List.map_cons, List.sum_cons]
    rw [hcons] at h ⊢
    have hsize := Json.size_toJson_le row.encode
    obtain ⟨script, total, hrest, htotal⟩ := ih (index + 1)
      (payload + (Value.text row.encode).toJson.utf8ByteSize) (by omega)
    have hoperation : OperationId.parse row.operation = .ok ⟨row.operation, isId_operation row⟩ :=
      parseId_of_isId (isId_operation row)
    have hanchor : IsId row.anchor := by
      cases row with
      | bootstrap row => exact row.user.valid
      | issue row => exact row.cap.valid
      | revoke row => exact row.cap.valid
    have hentity : InstalledId.parse row.anchor = .ok ⟨row.anchor, hanchor⟩ := parseId_of_isId hanchor
    refine ⟨insertAdmission (admissionRow (count + index + 1) (Admission.toRecord row)) ::
      markAdmission row.anchor :: script, total, ?_, by omega⟩
    rw [List.map_cons]
    unfold admissionScript
    have hop : (Admission.toRecord row).operation = row.operation := rfl
    have hent : (Admission.toRecord row).entity = row.anchor := rfl
    have hvalue : (admissionRow (count + index + 1) (Admission.toRecord row)).valueJson =
        (Value.text row.encode).toJson := rfl
    rw [hop, hent, hoperation, hentity]
    simp only [Except.mapError, Result.ok_bind, hvalue]
    rw [if_neg (by omega), hrest]
    rfl

/-! ### Calls alone -/

/-- What a call that submits needs: a first read that does not fail, an identity no receipt has, and a host on which
nothing fails. -/
structure Undisturbed (db : Database OutboxTables) (look draw submit : Moment) : Prop where
  read : look.read = none
  fresh : ∃ operation, OperationId.parse draw.id = .ok operation ∧ findReceipt db.receipts operation.text = none
  host : submit.host.Quiet

/-- A store whose bounds take the rows. -/
structure Holds (store : SqliteStore) (log rows : List Admission) : Prop where
  replay : log.length ≤ store.bounds.maxReplayRows
  value : payloadBound rows ≤ store.bounds.maxValueBytes
  space : payloadBound rows ≤ store.bounds.maxDbBytes
  range : payloadBound rows < 2 ^ 64

/-- The batch of a call alone commits. -/
theorem commit_alone (gate : AccessGate) {db : Database OutboxTables} (hdb : Kept db) {state : State}
    (hholds : state.guard.holds db.tables = true) {rows : List Admission} (hne : rows ≠ []) (expires : Option Int64)
    {who : Option Credential} (hfits : Holds gate.store (admissions db.tables) rows) (hroom : Room db.tables rows.length)
    {look draw submit : Moment} (hquiet : Undisturbed db look draw submit) (rest : List Moment)
    (hlive : ∀ expiry ∈ expires, guardReading submit < expiry.toInt)
    (hcommit : Commit (guardReading submit) (admissions db.tables) who rows) :
    ∃ db', (gate.batch state (rows.map Admission.toRecord) expires >>= gate.submit).run.run StoreOp.exec
        (draw :: submit :: rest) db = (db', some (.ok (), rest)) ∧
      admissions db'.tables = admissions db.tables ++ rows ∧ Kept db' ∧
      (∀ n, Room db.tables (rows.length + n) → Room db'.tables n) ∧
      ∃ operation, OperationId.parse draw.id = .ok operation ∧
        db'.receipts.map ReceiptRow.operation = db.receipts.map ReceiptRow.operation ++ [operation.text] := by
  have hrange := hfits.range
  obtain ⟨script, total, hscript, htotal⟩ := admissionScript_of_bound state.count 0 0 rows (by omega)
  obtain ⟨operation, hid, hfresh⟩ := hquiet.fresh
  have hvalue := hfits.value
  have hspace := hfits.space
  have hfit : Fits gate.store db operation total := by
    refine ⟨hfresh, by omega, ?_⟩
    unfold saturatingAdd
    omega
  obtain ⟨db', hrun, hadded, hkept, hleft, hreceipts⟩ := run_commit gate hdb hholds hne hscript hroom hid hquiet.host hfit
    hlive hcommit
  exact ⟨db', hrun, hadded, hkept, hleft, operation, hid, hreceipts⟩

/-- A bootstrap that finds no admission row and goes on alone commits. -/
theorem bootstrap_alone (gate : AccessGate) {db : Database OutboxTables} (hdb : Kept db)
    (hempty : admissions db.tables = []) {pid uniq : Nat} {reason : Reason} {reviewer publisher : Credential}
    (hreviewer : AccessGate.bootstrapCredential pid uniq reviewerCap reviewerKeyText = .ok reviewer)
    (hpublisher : AccessGate.bootstrapCredential pid uniq publisherCap publisherKeyText = .ok publisher)
    {rows : List Admission} (hrows : gate.bootstrapRows reviewer publisher reason = .ok rows)
    (hfits : Holds gate.store [] rows) (hroom : Room db.tables rows.length) {look draw submit : Moment}
    (hquiet : Undisturbed db look draw submit) (rest : List Moment) :
    ∃ db', (gate.bootstrap pid uniq reason).run.run StoreOp.exec (look :: draw :: submit :: rest) db =
        (db', some (.ok ⟨reviewer, publisher⟩, rest)) ∧
      admissions db'.tables = rows ∧ Kept db' ∧ (∀ n, Room db.tables (rows.length + n) → Room db'.tables n) ∧
      ∃ operation, OperationId.parse draw.id = .ok operation ∧
        db'.receipts.map ReceiptRow.operation = db.receipts.map ReceiptRow.operation ++ [operation.text] := by
  have hbound : (admissions db.tables).length ≤ gate.store.bounds.maxReplayRows := by
    rw [hempty]
    exact hfits.replay
  obtain ⟨state, hread, hreads, hholds⟩ := run_read_of_kept hdb hbound hquiet.read (draw :: submit :: rest)
  have hcount : ¬ state.count ≠ 0 := by
    rw [hreads.count, hempty]
    simp
  have hcommit : Commit (guardReading submit) (admissions db.tables) none rows := by
    rw [hempty]
    exact .bootstrap gate rfl (bootstrapCredential_capability hreviewer) (bootstrapCredential_capability hpublisher)
      hrows
  have hne : rows ≠ [] := by
    obtain ⟨scopeA, label, label', policy, -, -, rfl⟩ := bootstrapRows_eq_ok hrows
    exact List.cons_ne_nil _ _
  rw [← hempty] at hfits
  obtain ⟨db', hrun, hadded, hkept, hleft, hreceipts⟩ := commit_alone gate hdb hholds hne none hfits hroom
    hquiet rest (fun expiry h => nomatch h) hcommit
  obtain ⟨pending, u, more, hbatch, hsubmit⟩ := run_try_ok.1 hrun
  refine ⟨db', ?_, ?_, hkept, hleft, hreceipts⟩
  · unfold AccessGate.bootstrap
    refine run_try_ok.2 ⟨state, db, draw :: submit :: rest, hread, ?_⟩
    rw [if_neg hcount, hreviewer, hpublisher, check_bind_ok, check_bind_ok, hrows, check_bind_ok]
    refine run_try_ok.2 ⟨pending, u, more, hbatch, ?_⟩
    exact run_try_ok.2 ⟨(), db', rest, run_mapErr_ok hsubmit _, rfl⟩
  · rw [hadded, hempty, List.nil_append]

theorem run_checked_ok {state : State} {cred : Credential} {scope : Option TrustedScope} {rotating : Bool}
    {row : IssueRow} (hmatch : state.matching cred scope rotating = .ok row) {m : Moment} {now : Nat}
    (hwall : m.wall = some now) (hrange : now < 2 ^ 63) (hlive : row.policy.LiveAt now) (rest : List Moment)
    (db : Database OutboxTables) :
    (state.checked cred scope rotating).run.run StoreOp.exec (m :: rest) db = (db, some (.ok row, rest)) := by
  have hnow : nowMs.run.run StoreOp.exec (m :: rest) db = (db, some (.ok (now : Int), rest)) := by
    unfold nowMs
    refine run_try_ok.2 ⟨some now, db, rest, ?_, ?_⟩
    · rw [← hwall]
      rfl
    · rw [nowOf_eq_ok.2 ⟨now, rfl, hrange, rfl⟩]
      rfl
  unfold State.checked
  rw [hmatch, check_bind_ok]
  refine run_try_ok.2 ⟨(now : Int), db, rest, hnow, ?_⟩
  rw [CapabilityPolicy.requireLive_eq_ok.2 hlive, check_bind_ok]
  rfl

/-- A rotation of an accepted credential that goes on alone commits. -/
theorem rotate_alone (gate : AccessGate) {db : Database OutboxTables} (hdb : Kept db) {current : Credential}
    {row : IssueRow} (haccepted : Accepted (admissions db.tables) current row) (newKeyId : KeyId)
    (newKey : SyntheticKey) (reason : Reason) {next : UInt32} (hnext : AccessGate.nextGeneration row = .ok next)
    (hfresh : ∀ r ∈ issuesOf (admissions db.tables), r.cap = row.cap → r.keyId ≠ newKeyId)
    (hfits : Holds gate.store (admissions db.tables) [.revoke (gate.revokeRow row reason),
      .issue (row.successor next newKeyId newKey reason)])
    (hroom : Room db.tables 2) {look draw submit : Moment} (hquiet : Undisturbed db look draw submit) (check : Moment)
    {now : Nat} (hwall : check.wall = some now) (hrange : now < 2 ^ 63) (hlive : row.policy.LiveAt now)
    (hguard : row.policy.LiveAt (guardReading submit)) (rest : List Moment) :
    ∃ db', (gate.rotate current newKeyId newKey reason).run.run StoreOp.exec (look :: check :: draw :: submit :: rest)
        db = (db', some (.ok ⟨current.capability, newKeyId, newKey⟩, rest)) ∧
      admissions db'.tables = admissions db.tables ++ [.revoke (gate.revokeRow row reason),
        .issue (row.successor next newKeyId newKey reason)] ∧ Kept db' := by
  obtain ⟨state, hread, hreads, hholds⟩ :=
    run_read_of_kept hdb hfits.replay hquiet.read (check :: draw :: submit :: rest)
  have hsound := hdb.admitted.sound
  have hmatch : state.matching current none true = .ok row :=
    (matching_eq_ok hsound hreads).2 ⟨haccepted, fun s hs => nomatch hs⟩
  have hunused : ¬ (state.issues.any fun r => r.cap = row.cap && r.keyId = newKeyId) = true := by
    rw [List.any_eq_true, hreads.issues]
    rintro ⟨r, hr, hsame⟩
    simp only [Bool.and_eq_true, decide_eq_true_eq] at hsame
    exact hfresh r hr hsame.1 hsame.2
  obtain ⟨db', hrun, hadded, hkept, -, -⟩ := commit_alone gate hdb hholds (List.cons_ne_nil _ _) _ hfits hroom hquiet
    rest hguard (Commit.rotate gate haccepted hguard hnext hfresh)
  obtain ⟨pending, u, more, hbatch, hsubmit⟩ := run_try_ok.1 hrun
  refine ⟨db', ?_, hadded, hkept⟩
  unfold AccessGate.rotate
  refine run_try_ok.2 ⟨state, db, check :: draw :: submit :: rest, hread, ?_⟩
  refine run_try_ok.2 ⟨row, db, draw :: submit :: rest, run_checked_ok hmatch hwall hrange hlive _ db, ?_⟩
  rw [hnext, check_bind_ok, if_neg hunused]
  refine run_try_ok.2 ⟨pending, u, more, hbatch, ?_⟩
  exact run_try_ok.2 ⟨(), db', rest, hsubmit, rfl⟩
end Verdant.Access
