import Verdant.Access.Snapshot

/-!
# Gates under interference

Any number of gate handles and of other owners work on one database.  Every submit of a gate either leaves the admission
log or adds the rows of one `Commit` to it: the guard counts the rows the batch was computed from, and under
`accessLaw` a log of the same length is the same log.  A call that succeeds for a credential has read a log that accepts
it.
-/

namespace Verdant.Access

open TextCodec Storage Prog

/-! ### The law -/

/-- The ids are in order and the admission log is as gates leave it. -/
structure Kept (db : Database OutboxTables) : Prop where
  ordered : Ordered db.tables
  admitted : Admitted db.tables

def accessLaw : Law (Database OutboxTables) :=
  .keeping Kept (fun s t => history s.tables <+: history t.tables)
    RowsGrow.refl @RowsGrow.trans

theorem admissions_grows {s t : OutboxTables} (h : history s <+: history t) : admissions s <+: admissions t :=
  (logOf_grows h).filterMap admissionOf

/-- The wall reading of the liveness guard of a batch. -/
def guardReading (m : Moment) : Int := (m.host.clock 3).toInt

/-- What an operation of a call under a credential does to the admission log: nothing, or one commit. -/
def Settled (who : Option Credential) (op : StoreOp OutboxTables) (m : Moment) (db : Database OutboxTables) : Prop :=
  admissions (op.exec m db).1.tables = admissions db.tables ∨
    ∃ rows, Commit (guardReading m) (admissions db.tables) who rows ∧
      admissions (op.exec m db).1.tables = admissions db.tables ++ rows

theorem settled_of_eq {who : Option Credential} {op : StoreOp OutboxTables} {m : Moment} {db : Database OutboxTables}
    (h : (op.exec m db).1 = db) : Settled who op m db := .inl (by rw [h])

/-! ### Batches -/

def NewRow.columns (row : NewRow) : String × String × String := (row.operation, row.entity, row.valueJson)

theorem recordColumns_numbered (last : Nat) (rows : List NewRow) :
    (numbered last rows).map recordColumns = rows.map NewRow.columns := by
  induction rows generalizing last with
  | nil => rfl
  | cons row rows ih =>
    rw [numbered, List.map_cons, List.map_cons, ih]
    rfl

/-- The statements of a batch append its rows. -/
theorem admissionScript_run {count index payload total : Nat} {records : List AdmissionRecord}
    {script : Script OutboxTables} (h : admissionScript count index payload records = .ok (script, total))
    {s t : Session OutboxTables} {out : Rows} (hrun : script.run s = .ok (t, out)) :
    t.receipts = s.receipts ∧ ∃ rows, Appended s.tables t.tables rows ∧
      rows.map NewRow.columns = records.map fun r => (r.operation, r.entity, (Value.text r.descriptor).toJson) := by
  induction records generalizing index payload script s t out with
  | nil =>
    cases h
    cases hrun
    exact ⟨rfl, [], .refl _, rfl⟩
  | cons record records ih =>
    unfold admissionScript at h
    obtain ⟨_, -, h⟩ := Result.bind_eq_ok.1 h
    obtain ⟨_, -, h⟩ := Result.bind_eq_ok.1 h
    simp only at h
    split at h
    · exact nomatch h
    obtain ⟨⟨rest, size⟩, hrest, h⟩ := Result.bind_eq_ok.1 h
    cases h
    obtain ⟨u, first, more, hinsert, hmore, rfl⟩ := Script.run_cons_ok.1 hrun
    obtain ⟨v, second, last, hmark, hlast, rfl⟩ := Script.run_cons_ok.1 hmore
    obtain ⟨-, hreceipts, -, hcases⟩ := insertRow_exec hinsert
    obtain ⟨-, happended, -, -⟩ := hcases.resolve_right fun hfalse => nomatch hfalse.1
    obtain ⟨-, hmarked, -, hnothing⟩ := markEntity_exec hmark
    obtain ⟨hkept, rows, hrows, hcolumns⟩ := ih hrest hlast
    refine ⟨hkept.trans (hmarked.trans hreceipts), _, (happended.trans hnothing).trans hrows, ?_⟩
    rw [List.append_nil, List.singleton_append, List.map_cons, List.map_cons, hcolumns]
    rfl

/-- The liveness guard leaves the database and reads the clock before the expiry. -/
theorem liveGuard_run {expires : Option Int64} {s t : Session OutboxTables} {out : Rows}
    (h : (liveGuard expires).run s = .ok (t, out)) :
    t.toDatabase = s.toDatabase ∧ ∀ expiry ∈ expires, (s.clock 1).toInt < expiry.toInt := by
  cases expires with
  | none =>
    cases h
    exact ⟨rfl, fun expiry hexpiry => nomatch hexpiry⟩
  | some expiry =>
    unfold liveGuard at h
    obtain ⟨u, first, more, hcreate, hmore, rfl⟩ := Script.run_cons_ok.1 h
    obtain ⟨rfl, -⟩ := createGuard_exec hcreate
    obtain ⟨v, second, last, hinsert, hlast, rfl⟩ := Script.run_cons_ok.1 hmore
    obtain ⟨hholds, rfl, -⟩ := insertGuard_exec hinsert
    cases hlast
    refine ⟨rfl, ?_⟩
    rintro e ⟨⟩
    simpa [Session.now, Session.tick] using hholds

/-- The batch a gate built from a snapshot: the rows, in the order of the log, under the snapshot's guard. -/
structure Built (state : State) (rows : List Admission) (expires : Option Int64)
    (pending : PreparedMutation OutboxTables) : Prop where
  body : ∃ script total, admissionScript state.count 0 0 (rows.map Admission.toRecord) = .ok (script, total) ∧
    pending.body = guardedBatch state.guard.text (fun s => state.guard.holds s.tables) (liveGuard expires ++ script)

/-- The snapshot of a log: its rows by kind, under a guard that counts them. -/
structure Snapshot (state : State) (tables : OutboxTables) : Prop where
  reads : state.Reads (admissions tables)
  guards : ∀ t, state.guard.holds t = true → countIs isAdmission (logOf isAdmission tables).length t = true

theorem isAdmission_operation (row : Admission) : likePrefix "access-" row.operation = true := by
  have hall : likePrefix "access-" opBootstrapText = true ∧ likePrefix "access-" opIssueText = true ∧
      likePrefix "access-" opRevokeText = true := by decide
  cases row with
  | bootstrap row => exact hall.1
  | issue row => exact hall.2.1
  | revoke row => exact hall.2.2

/-- Rows written as admissions are all added to the log. -/
theorem logOf_appended {s t : OutboxTables} {rows : List NewRow} {added : List Admission} (h : Appended s t rows)
    (hrows : rows.map NewRow.columns = added.map Admission.columns) :
    logOf isAdmission t = logOf isAdmission s ++ numbered s.lastId rows := by
  have hcolumns : (numbered s.lastId rows).map recordColumns = added.map Admission.columns := by
    rw [recordColumns_numbered, hrows]
  have hmine : (numbered s.lastId rows).filter isAdmission = numbered s.lastId rows := by
    rw [List.filter_eq_self]
    intro r hr
    have hmem := List.mem_map_of_mem (f := recordColumns) hr
    rw [hcolumns] at hmem
    obtain ⟨row, -, hrow⟩ := List.mem_map.1 hmem
    have hoperation : r.operation = row.operation := (congrArg Prod.fst hrow).symm
    unfold isAdmission
    rw [hoperation]
    exact isAdmission_operation row
  rw [h.logOf_eq, hmine]

/-- Rows of a commit, appended to a log it is a commit of. -/
theorem appended_commit {s t : OutboxTables} {rows : List NewRow} {added : List Admission} {now : Int}
    {who : Option Credential} (h : Appended s t rows) (hs : Admitted s) (hrows : rows.map NewRow.columns = added.map Admission.columns)
    (hcommit : Commit now (admissions s) who added) : admissions t = admissions s ++ added ∧ Admitted t := by
  have hwf := hcommit.wellFormed hs.sound.wellFormed
  have hcolumns : (numbered s.lastId rows).map recordColumns = added.map Admission.columns := by
    rw [recordColumns_numbered, hrows]
  have hlog := logOf_appended h hrows
  have hadded : admissions t = admissions s ++ added := by
    unfold admissions
    rw [hlog, List.filterMap_append, filterMap_admissionOf hwf hcolumns]
  refine ⟨hadded, ⟨?_, ?_⟩⟩
  · rw [hlog, hadded, List.map_append, List.map_append, hs.written, hcolumns]
  · rw [hadded]
    exact hs.reachable.commit hcommit

/-- A submit of a batch leaves the database, or commits its rows to the log it was built from. -/
theorem submit_built {who : Option Credential} {state : State} {rows : List Admission} {expires : Option Int64}
    {pending : PreparedMutation OutboxTables} (hbuilt : Built state rows expires pending)
    {s t : Database OutboxTables} (hsnapshot : Snapshot state s.tables) (hst : history s.tables <+: history t.tables)
    (ht : Kept t)
    (hcommit : ∀ now, (∀ expiry ∈ expires, now < expiry.toInt) → Commit now (admissions s.tables) who rows)
    (store : SqliteStore) (m : Moment) :
    Settled who (.submit store pending) m t ∧ accessLaw.rel t (StoreOp.exec (.submit store pending) m t).1 := by
  obtain ⟨script, total, hscript, hbody⟩ := hbuilt.body
  have hexec : StoreOp.exec (.submit store pending) m t = Storage.submit store pending m.host t := rfl
  have hcases := submit_guarded store hbody m.host t
  rcases hcases with hsame | ⟨u, v, inner, out, hholds, hdb, hclock, hrun, -, -, -, -, hnext⟩
  · refine ⟨settled_of_eq hsame, ?_⟩
    rw [hexec, hsame]
    exact accessLaw.refl t
  -- the guard counted the rows of the log the batch was built from
  have hcount := hsnapshot.guards _ hholds
  unfold countIs at hcount
  rw [decide_eq_true_eq] at hcount
  have hlog : logOf isAdmission t.tables = logOf isAdmission s.tables := logOf_eq_of_length hst hcount
  have hsame : admissions t.tables = admissions s.tables := by
    unfold admissions
    rw [hlog]
  obtain ⟨w, first, more, hlive, hrows, -⟩ := Script.run_append_ok.1 hrun
  obtain ⟨hwdb, hunexpired⟩ := liveGuard_run hlive
  obtain ⟨-, new, happended, hcolumns⟩ := admissionScript_run hscript hrows
  have hwt : w.tables = t.tables := by
    have htables := congrArg Database.tables (hwdb.trans hdb)
    exact htables
  rw [hwt] at happended
  have hnew : new.map NewRow.columns = rows.map Admission.columns := by
    rw [hcolumns, List.map_map]
    rfl
  have hreading : ∀ expiry ∈ expires, guardReading m < expiry.toInt := by
    intro expiry hexpiry
    have hlt := hunexpired expiry hexpiry
    rw [hclock] at hlt
    exact hlt
  have hstep := hcommit _ hreading
  rw [← hsame] at hstep
  obtain ⟨hadded, hadmitted⟩ := appended_commit happended ht.admitted hnew hstep
  have hafter : (StoreOp.exec (.submit store pending) m t).1.tables = v.tables := by rw [hexec, hnext]
  have hgrows : history t.tables <+: history (StoreOp.exec (.submit store pending) m t).1.tables := by
    rw [hafter]
    exact happended.grows
  refine ⟨.inr ⟨rows, hstep, ?_⟩, fun _ => ⟨⟨?_, ?_⟩, hgrows⟩⟩
  · rw [hafter, hadded]
  · rw [hafter]
    exact happended.ordered ht.ordered
  · rw [hafter]
    exact hadmitted

/-! ### Calls under the law -/

section Calls

variable {who : Option Credential} {E : Moment → Prop} {s : Database OutboxTables}

/-- Nothing is promised of an error. -/
abbrev Whenever {α : Type} (P : Database OutboxTables → α → Prop) :
    Database OutboxTables → Except AccessError α → Prop :=
  onResult (fun _ _ => True) P

theorem keeps_read (store : SqliteStore) (hs : Kept s) :
    Keeps StoreOp.exec accessLaw E (Settled who)
      (Whenever fun u state => ∃ t, accessLaw.rel s t ∧ accessLaw.rel t u ∧ Snapshot state t.tables) s
      (State.read store).run := by
  unfold State.read
  refine Keeps.tryBind (P := fun u rows => ∃ t, accessLaw.rel s t ∧ accessLaw.rel t u ∧
    rows = ((logOf isAdmission t.tables).take (store.bounds.maxReplayRows + 1)).map admissionColumns) ?_ ?_
  · refine Keeps.mapErr (F := fun _ _ => True) ?_ fun _ _ _ _ => trivial
    refine keeps_look (fun _ _ => rfl) (fun _ _ _ => settled_of_eq rfl) fun t hst m _ u htu => ?_
    have hanswer : (StoreOp.exec (.read (selectAdmissions (store.bounds.maxReplayRows + 1))) m t).2 =
        execScript m (selectAdmissions (store.bounds.maxReplayRows + 1)) t := rfl
    rw [hanswer]
    unfold execScript
    cases m.read with
    | some fault => exact trivial
    | none => exact ⟨t, hst, htu, rfl⟩
  · intro t rows hst hrows
    obtain ⟨v, hsv, hvt, rfl⟩ := hrows t (accessLaw.refl t)
    refine keeps_check fun u htu => ?_
    have hv := (hsv hs).1
    cases hstate : State.ofRows store.bounds
        (((logOf isAdmission v.tables).take (store.bounds.maxReplayRows + 1)).map admissionColumns) with
    | error e => exact trivial
    | ok state =>
      have hbound : (logOf isAdmission v.tables).length ≤ store.bounds.maxReplayRows := by
        unfold State.ofRows at hstate
        rw [List.length_map, List.length_take] at hstate
        split at hstate
        · exact nomatch hstate
        · omega
      rw [List.take_of_length_le (by omega)] at hstate
      obtain ⟨state', hstate', hreads, -, hguards⟩ := ofRows_columns hv.ordered hv.admitted hbound
      obtain rfl : state = state' := Except.ok.inj (hstate.symm.trans hstate')
      exact ⟨v, hsv, accessLaw.trans hvt htu, hreads, hguards⟩

theorem keeps_nowMs : Keeps StoreOp.exec accessLaw E (Settled who) (Whenever fun _ _ => True) s nowMs.run := by
  unfold nowMs
  refine Keeps.liftBind (P := fun _ _ => True) ?_ fun t wall _ _ => keeps_check fun u _ => ?_
  · exact keeps_look (fun _ _ => rfl) (fun _ _ _ => settled_of_eq rfl) fun _ _ _ _ _ _ => trivial
  · cases nowOf wall <;> exact trivial

theorem keeps_checked {log : List Admission} (hlog : Sound log) {state : State} (hstate : state.Reads log)
    (cred : Credential) (scope : Option TrustedScope) (rotating : Bool) :
    Keeps StoreOp.exec accessLaw E (Settled who) (Whenever fun _ row => Accepted log cred row) s
      (state.checked cred scope rotating).run := by
  unfold State.checked
  refine Keeps.checkBind (fun _ _ _ _ => trivial) fun row hrow => ?_
  obtain ⟨haccepted, -⟩ := (matching_eq_ok hlog hstate).1 hrow
  refine Keeps.tryBind keeps_nowMs fun t now _ _ => ?_
  refine Keeps.checkBind (fun _ _ _ _ => trivial) fun _ _ => ?_
  exact keeps_done fun _ _ => haccepted

theorem keeps_batch (gate : AccessGate) (state : State) (rows : List Admission) (expires : Option Int64) :
    Keeps StoreOp.exec accessLaw E (Settled who) (Whenever fun _ pending => Built state rows expires pending) s
      (gate.batch state (rows.map Admission.toRecord) expires).run := by
  unfold AccessGate.batch
  refine Keeps.checkBind (fun _ _ _ _ => trivial) fun ⟨script, total⟩ hscript => ?_
  refine Keeps.liftBind (P := fun _ _ => True) ?_ fun t id _ _ => keeps_check fun u _ => ?_
  · exact keeps_look (fun _ _ => rfl) (fun _ _ _ => settled_of_eq rfl) fun _ _ _ _ _ _ => trivial
  · cases hpending : prepareGuardedBatch gate.store id state.guard.text (fun s => state.guard.holds s.tables)
        (liveGuard expires ++ script) total with
    | error e => exact trivial
    | ok pending =>
      obtain ⟨-, heq⟩ := prepareGuardedBatch_eq_ok hpending
      refine ⟨script, total, hscript, ?_⟩
      rw [heq]

/-- A submit of a batch built from the snapshot of an earlier log. -/
theorem keeps_submit (gate : AccessGate) {state : State} {rows : List Admission} {expires : Option Int64}
    {pending : PreparedMutation OutboxTables} (hbuilt : Built state rows expires pending) {r : Database OutboxTables}
    (hr : Kept r) (hsnapshot : Snapshot state r.tables) (hrs : accessLaw.rel r s)
    (hcommit : ∀ now, (∀ expiry ∈ expires, now < expiry.toInt) → Commit now (admissions r.tables) who rows) :
    Keeps StoreOp.exec accessLaw E (Settled who) (Whenever fun _ _ => True) s (gate.submit pending).run := by
  unfold AccessGate.submit
  refine Keeps.liftBind (P := fun _ _ => True) ?_ fun t outcome _ _ => keeps_check fun u _ => ?_
  · refine keeps_issue fun t hst m _ => ?_
    obtain ⟨ht, hgrows⟩ := accessLaw.trans hrs hst hr
    obtain ⟨hsettled, hlaw⟩ := submit_built hbuilt hsnapshot hgrows ht hcommit gate.store m
    exact ⟨hsettled, hlaw, fun _ _ => trivial⟩
  · cases AccessGate.submitResult outcome <;> exact trivial

theorem keeps_throw {α : Type} {P : Database OutboxTables → α → Prop} (e : AccessError) :
    Keeps StoreOp.exec accessLaw E (Settled who) (Whenever P) s (throw e : AccessCall α).run :=
  keeps_done fun _ _ => trivial

/-- The call read a log that accepts the credential. -/
def Authorized (s : Database OutboxTables) (cred : Credential) : Prop :=
  ∃ t row, accessLaw.rel s t ∧ Accepted (admissions t.tables) cred row

/-- A read and a check in front of what depends on them. -/
theorem keeps_snapshot {α : Type} (store : SqliteStore) (hs : Kept s) {P : Database OutboxTables → α → Prop}
    {f : State → AccessCall α}
    (hf : ∀ t state r, accessLaw.rel s t → Kept r → accessLaw.rel s r → accessLaw.rel r t → Snapshot state r.tables →
      Keeps StoreOp.exec accessLaw E (Settled who) (Whenever P) t (f state).run) :
    Keeps StoreOp.exec accessLaw E (Settled who) (Whenever P) s (State.read store >>= f).run := by
  refine Keeps.tryBind (keeps_read store hs) fun t state hst hstate => ?_
  obtain ⟨r, hsr, hrt, hsnapshot⟩ := hstate t (accessLaw.refl t)
  exact hf t state r hst (hsr hs).1 hsr hrt hsnapshot

theorem bootstrapCredential_capability {pid uniq : Nat} {cap : CapabilityName} {keyId : String} {cred : Credential}
    (h : AccessGate.bootstrapCredential pid uniq cap keyId = .ok cred) : cred.capability = cap := by
  unfold AccessGate.bootstrapCredential at h
  obtain ⟨_, -, h⟩ := Result.bind_eq_ok.1 h
  obtain ⟨_, -, h⟩ := Result.bind_eq_ok.1 h
  cases h
  rfl

theorem keeps_bootstrap (gate : AccessGate) (pid uniq : Nat) (reason : Reason) (hs : Kept s) :
    Keeps StoreOp.exec accessLaw E (Settled none) (Whenever fun _ _ => True) s (gate.bootstrap pid uniq reason).run := by
  unfold AccessGate.bootstrap
  refine keeps_snapshot gate.store hs fun t state r _ hr _ hrt hsnapshot => ?_
  by_cases hcount : state.count ≠ 0
  · rw [if_pos hcount]
    exact keeps_throw _
  rw [if_neg hcount]
  refine Keeps.checkBind (fun _ _ _ _ => trivial) fun reviewer hreviewer => ?_
  refine Keeps.checkBind (fun _ _ _ _ => trivial) fun publisher hpublisher => ?_
  refine Keeps.checkBind (fun _ _ _ _ => trivial) fun rows hrows => ?_
  refine Keeps.tryBind (keeps_batch gate state rows none) fun u pending htu hpending => ?_
  have hempty : admissions r.tables = [] := by
    rw [← List.length_eq_zero_iff, ← hsnapshot.reads.count]
    exact not_not.1 hcount
  refine Keeps.tryBind (P := fun _ _ => True) (Keeps.mapErr (F := fun _ _ => True) ?_ fun _ _ _ _ => trivial)
    fun _ _ _ _ => keeps_done fun _ _ => trivial
  refine keeps_submit gate (hpending u (accessLaw.refl u)) hr hsnapshot (accessLaw.trans hrt htu) fun now _ => ?_
  exact .bootstrap gate hempty (bootstrapCredential_capability hreviewer) (bootstrapCredential_capability hpublisher)
    hrows

theorem earliest_lt {a b : Option Int64} {now : Int} (h : ∀ expiry ∈ earliest a b, now < expiry.toInt) :
    (∀ expiry ∈ a, now < expiry.toInt) ∧ ∀ expiry ∈ b, now < expiry.toInt := by
  cases a with
  | none =>
    cases b with
    | none => exact ⟨fun _ he => (nomatch he), fun _ he => nomatch he⟩
    | some b => exact ⟨fun _ he => (nomatch he), h⟩
  | some a =>
    cases b with
    | none => exact ⟨h, fun _ he => nomatch he⟩
    | some b =>
      have hmin := h (min a b) rfl
      have hboth : now < a.toInt ∧ now < b.toInt := by
        rcases Int64.le_total a b with hle | hle
        · have hm : min a b = a := by
            show (if a ≤ b then a else b) = a
            rw [if_pos hle]
          rw [hm] at hmin
          have := Int64.le_iff_toInt_le.1 hle
          omega
        · by_cases hle' : a ≤ b
          · have hm : min a b = a := by
              show (if a ≤ b then a else b) = a
              rw [if_pos hle']
            rw [hm] at hmin
            have := Int64.le_iff_toInt_le.1 hle'
            omega
          · have hm : min a b = b := by
              show (if a ≤ b then a else b) = b
              rw [if_neg hle']
            rw [hm] at hmin
            have := Int64.le_iff_toInt_le.1 hle
            omega
      exact ⟨by rintro e ⟨⟩; exact hboth.1, by rintro e ⟨⟩; exact hboth.2⟩

theorem keeps_issueWithPolicy (gate : AccessGate) (capability : CapabilityName) (scope : TrustedScope)
    (ceiling : UInt8) (role : RoleKind) (keyId : KeyId) (key : SyntheticKey) (administrator : Credential)
    (reason : Reason) (label : DisplayLabel) (policy : CapabilityPolicy) (hs : Kept s) :
    Keeps StoreOp.exec accessLaw E (Settled (some administrator)) (Whenever fun _ _ => Authorized s administrator) s
      (gate.issueWithPolicy capability scope ceiling role keyId key administrator reason label policy).run := by
  unfold AccessGate.issueWithPolicy
  refine keeps_snapshot gate.store hs fun t state r _ hr hsr hrt hsnapshot => ?_
  refine Keeps.tryBind (keeps_checked hr.admitted.sound hsnapshot.reads _ _ _) fun t₁ admin ht₁ hadmin => ?_
  have haccepted := hadmin t₁ (accessLaw.refl t₁)
  refine Keeps.checkBind (fun _ _ _ _ => trivial) fun bound hbound => ?_
  refine Keeps.checkBind (fun _ _ _ _ => trivial) fun _ hauthorize => ?_
  refine Keeps.tryBind keeps_nowMs fun t₂ now ht₂ _ => ?_
  refine Keeps.checkBind (fun _ _ _ _ => trivial) fun _ _ => ?_
  by_cases hused : (state.issues.any fun row => row.cap = capability) = true
  · rw [if_pos hused]
    exact keeps_throw _
  rw [if_neg hused]
  refine Keeps.tryBind (keeps_batch gate state [.issue (gate.issueRow ⟨capability, keyId, key⟩ scope ceiling role reason
    label policy)] _) fun t₃ pending ht₃ hpending => ?_
  refine Keeps.tryBind (P := fun _ _ => True) ?_ fun _ _ _ _ => keeps_done fun _ _ => ⟨r, admin, hsr, haccepted⟩
  have hr₃ := accessLaw.trans hrt (accessLaw.trans ht₁ (accessLaw.trans ht₂ ht₃))
  refine keeps_submit gate (hpending t₃ (accessLaw.refl t₃)) hr hsnapshot hr₃ fun now hexpires => ?_
  obtain ⟨hadminLive, hpolicyLive⟩ := earliest_lt hexpires
  have hnew : bound.scope = scope ∧ bound.level = ceiling := by
    unfold CredentialCeiling.new at hbound
    split at hbound
    · cases hbound
      exact ⟨rfl, rfl⟩
    · exact nomatch hbound
  obtain ⟨rfl, rfl⟩ := hnew
  refine Commit.issue gate haccepted hadminLive (CapabilityPolicy.bounds_of_authorize hauthorize) hpolicyLive ?_
  intro row hrow hcap
  refine hused ?_
  rw [List.any_eq_true, hsnapshot.reads.issues]
  exact ⟨row, hrow, by simpa using hcap⟩

theorem keeps_rotate (gate : AccessGate) (current : Credential) (newKeyId : KeyId) (newKey : SyntheticKey)
    (reason : Reason) (hs : Kept s) :
    Keeps StoreOp.exec accessLaw E (Settled (some current)) (Whenever fun _ _ => Authorized s current) s
      (gate.rotate current newKeyId newKey reason).run := by
  unfold AccessGate.rotate
  refine keeps_snapshot gate.store hs fun t state r _ hr hsr hrt hsnapshot => ?_
  refine Keeps.tryBind (keeps_checked hr.admitted.sound hsnapshot.reads _ _ _) fun t₁ row ht₁ hrow => ?_
  have haccepted := hrow t₁ (accessLaw.refl t₁)
  refine Keeps.checkBind (fun _ _ _ _ => trivial) fun next hnext => ?_
  by_cases hused : (state.issues.any fun r => r.cap = row.cap && r.keyId = newKeyId) = true
  · rw [if_pos hused]
    exact keeps_throw _
  rw [if_neg hused]
  refine Keeps.tryBind (keeps_batch gate state [.revoke (gate.revokeRow row reason),
    .issue (row.successor next newKeyId newKey reason)] _) fun t₃ pending ht₃ hpending => ?_
  refine Keeps.tryBind (P := fun _ _ => True) ?_ fun _ _ _ _ => keeps_done fun _ _ => ⟨r, row, hsr, haccepted⟩
  have hr₃ := accessLaw.trans hrt (accessLaw.trans ht₁ ht₃)
  refine keeps_submit gate (hpending t₃ (accessLaw.refl t₃)) hr hsnapshot hr₃ fun now hexpires => ?_
  refine Commit.rotate gate haccepted hexpires hnext ?_
  intro other hother hcap hkey
  refine hused ?_
  rw [List.any_eq_true, hsnapshot.reads.issues]
  exact ⟨other, hother, by simp [hcap, hkey]⟩

theorem keeps_revoke (gate : AccessGate) (current : Credential) (reason : Reason) (hs : Kept s) :
    Keeps StoreOp.exec accessLaw E (Settled (some current)) (Whenever fun _ _ => Authorized s current) s
      (gate.revoke current reason).run := by
  unfold AccessGate.revoke
  refine keeps_snapshot gate.store hs fun t state r _ hr hsr hrt hsnapshot => ?_
  refine Keeps.tryBind (keeps_checked hr.admitted.sound hsnapshot.reads _ _ _) fun t₁ row ht₁ hrow => ?_
  have haccepted := hrow t₁ (accessLaw.refl t₁)
  refine Keeps.tryBind (keeps_batch gate state [.revoke (gate.revokeRow row reason)] _) fun t₃ pending ht₃ hpending => ?_
  have hr₃ := accessLaw.trans hrt (accessLaw.trans ht₁ ht₃)
  refine Keeps.mono (keeps_submit gate (hpending t₃ (accessLaw.refl t₃)) hr hsnapshot hr₃ fun now hexpires => ?_) ?_
  · exact Commit.revoke gate haccepted hexpires
  · intro u answer _ _
    cases answer with
    | error e => exact trivial
    | ok _ => exact ⟨r, row, hsr, haccepted⟩

theorem keeps_authenticate (gate : AccessGate) (credential : Option Credential) (scope : TrustedScope) (hs : Kept s) :
    Keeps StoreOp.exec accessLaw E (Settled who) (Whenever fun _ _ => ∃ cred ∈ credential, Authorized s cred) s
      (gate.authenticate credential scope).run := by
  unfold AccessGate.authenticate
  cases credential with
  | none => exact keeps_throw _
  | some credential =>
    refine keeps_snapshot gate.store hs fun t state r _ hr hsr hrt hsnapshot => ?_
    refine Keeps.tryBind (keeps_checked hr.admitted.sound hsnapshot.reads _ _ _) fun t₁ row ht₁ hrow => ?_
    have haccepted := hrow t₁ (accessLaw.refl t₁)
    refine keeps_check fun u _ => ?_
    cases ActorContext.fromChecked row with
    | error e => exact trivial
    | ok actor => exact ⟨credential, rfl, r, row, hsr, haccepted⟩

theorem keeps_enter (gate : AccessGate) (credential : Option Credential) (scope : TrustedScope) (required : RoleKind)
    (hs : Kept s) :
    Keeps StoreOp.exec accessLaw E (Settled who) (Whenever fun _ _ => ∃ cred ∈ credential, Authorized s cred) s
      (gate.enter credential scope required).run := by
  unfold AccessGate.enter
  refine Keeps.tryBind (keeps_authenticate gate credential scope hs) fun t actor _ hactor => ?_
  refine Keeps.checkBind (fun _ _ _ _ => trivial) fun _ _ => ?_
  exact keeps_done fun u _ => hactor t (accessLaw.refl t)

end Calls

end Verdant.Access
