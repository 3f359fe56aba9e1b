import Verdant.Binding.Replaying
import Verdant.Library.Leads
import Verdant.Seal.Store

/-!
# The seal rows under interference

Any number of seal stores and of other owners work on one database.  Every batch of a store counts the seal rows of the
history it was decided on, and under `sealLaw` a history of the same length is the same history, so a submit leaves the seal
rows or adds one row to them, for an event that may be appended to their ledger.  A commit that is returned was read in the
ledger, and the ledger only grows.
-/

namespace Verdant.Seal

open TextCodec Storage Access Binding Prog

/-! ### The ledger of the rows -/

def eventOf (r : OutboxRecord) : Option (Int × SealEvent) :=
  match History.rowText (sqlQuote r.valueJson) >>= readEvent r.operation with
  | .ok event => some (r.id, event)
  | .error _ => none

def ledgerOf (tables : OutboxTables) : SealLog := (logOf isSeal tables).filterMap eventOf

theorem eventOf_rowOf {seq : Nat} {r : OutboxRecord} {rowId : Int} {event : SealEvent} (h : RowOf seq r rowId event)
    (hread : event.Readable) : eventOf r = some (rowId, event) := by
  have hevent : History.rowText (sqlQuote r.valueJson) >>= readEvent r.operation = .ok event := by
    rw [h.value, rowText_toJson, Result.ok_bind, h.operation]
    exact readEvent_text hread
  unfold eventOf
  rw [hevent, h.rowId]

/-- What was recorded is the ledger of the rows. -/
theorem Recorded.filterMap_eq {sha : Sha256} {rows : List OutboxRecord} {log : SealLog} (h : Recorded sha rows log) :
    rows.filterMap eventOf = log := by
  induction h with
  | nil => rfl
  | @snoc rows log r rowId event _ _ happend hrow ih =>
    have hlast : [r].filterMap eventOf = [(rowId, event)] :=
      List.filterMap_cons_some (eventOf_rowOf hrow happend.readable)
    rw [List.filterMap_append, ih, hlast]

theorem isSeal_event (event : SealEvent) {r : OutboxRecord} (h : r.operation = event.operation) : isSeal r = true := by
  unfold isSeal
  rw [h, Bool.or_eq_true, decide_eq_true_eq, decide_eq_true_eq]
  cases event with
  | publish identity manifest => exact .inl rfl
  | release identity => exact .inr rfl

/-! ### The law -/

/-- What the seal rows of a database keep. -/
structure Kept (sha : Sha256) (db : Database OutboxTables) : Prop where
  ordered : Ordered db.tables
  recorded : Recorded sha (logOf isSeal db.tables) (ledgerOf db.tables)

def sealLaw (sha : Sha256) : Law (Database OutboxTables) := .keeping (Kept sha) BothGrow BothGrow.refl @BothGrow.trans

/-- What an operation does to the seal rows: nothing, or it records one event. -/
def Settled (sha : Sha256) (op : StoreOp OutboxTables) (m : Moment) (db : Database OutboxTables) : Prop :=
  logOf isSeal (op.exec m db).1.tables = logOf isSeal db.tables ∨
    ∃ r rowId event, logOf isSeal (op.exec m db).1.tables = logOf isSeal db.tables ++ [r] ∧
      ledgerOf (op.exec m db).1.tables = ledgerOf db.tables ++ [(rowId, event)] ∧ Appends sha (ledgerOf db.tables) event

theorem settled_noSubmit {sha : Sha256} {op : StoreOp OutboxTables} (h : NoSubmit op) (m : Moment)
    (db : Database OutboxTables) : Settled sha op m db := .inl (by rw [h.exec])

theorem ledgerOf_grows {s t : Database OutboxTables} (h : history s.tables <+: history t.tables) :
    ledgerOf s.tables <+: ledgerOf t.tables := (logOf_grows h).filterMap _

/-- The ledger has one entry a row. -/
theorem Kept.length_ledger {sha : Sha256} {db : Database OutboxTables} (h : Kept sha db) :
    (logOf isSeal db.tables).length = (ledgerOf db.tables).length := h.recorded.length_eq

theorem Kept.ids {sha : Sha256} {db : Database OutboxTables} (h : Kept sha db) :
    ∀ r ∈ logOf isSeal db.tables, r.id < 2 ^ 63 := fun _ hr => (h.ordered.id_pos (List.mem_filter.1 hr).1).2

/-- The history of a database. -/
def historyAt (db : Database OutboxTables) : History := historyOf (logOf isSeal db.tables).length (ledgerOf db.tables)

theorem Kept.ofRows {sha : Sha256} {db : Database OutboxTables} (h : Kept sha db) :
    History.ofRows sha (((logOf isSeal db.tables).take (maxHistory + 1)).map sealColumns) = .ok (historyAt db) := by
  have hlength : (logOf isSeal db.tables).length ≤ maxHistory := by
    rw [h.length_ledger]
    exact h.recorded.length_le
  rw [List.take_of_length_le (Nat.le_succ_of_le hlength)]
  exact ofRows_recorded h.recorded h.ids

/-! ### Recording a row -/

theorem sealLive_run {expiry : Option Int64} {s t : Session OutboxTables} {out : Rows}
    (h : (sealLive expiry).run s = .ok (t, out)) : t.toDatabase = s.toDatabase := by
  cases expiry with
  | none =>
    cases h
    rfl
  | some expiry =>
    unfold sealLive at h
    obtain ⟨a, first, rest, hcreate, hrest, -⟩ := Script.run_cons_ok.1 h
    cases hcreate
    obtain ⟨b, second, more, hinsert, hnil, -⟩ := Script.run_cons_ok.1 hrest
    obtain ⟨-, rfl, -⟩ := insertGuard_exec hinsert
    cases hnil
    rfl

theorem sealBody_run {seq : Nat} {event : SealEvent} {expiry : Option Int64} {s t : Session OutboxTables} {out : Rows}
    (h : (sealBody seq event expiry).run s = .ok (t, out)) :
    t.receipts = s.receipts ∧ Appended s.tables t.tables [sealRow seq event] := by
  unfold sealBody at h
  obtain ⟨u, first, rest, hlive, hinsert, -⟩ := Script.run_append_ok.1 h
  have hus := sealLive_run hlive
  obtain ⟨v, one, more, hrow, hnil, -⟩ := Script.run_cons_ok.1 hinsert
  obtain ⟨-, hreceipts, -, hcases⟩ := insertRow_exec hrow
  cases hnil
  rw [← congrArg Database.tables hus, ← congrArg Database.receipts hus]
  refine ⟨hreceipts, ?_⟩
  rcases hcases with ⟨-, happended, -, -⟩ | ⟨hfalse, -⟩
  · exact happended
  · cases hfalse

/-- An alias writes no row. -/
theorem aliasBody_run {rowId : Int} {expiry : Option Int64} {s t : Session OutboxTables} {out : Rows}
    (h : (aliasBody rowId expiry).run s = .ok (t, out)) :
    t.receipts = s.receipts ∧ Appended s.tables t.tables [] := by
  unfold aliasBody at h
  obtain ⟨u, first, rest, hlive, halias, -⟩ := Script.run_append_ok.1 h
  have hus := sealLive_run hlive
  obtain ⟨v, one, more, hcreate, hrest, -⟩ := Script.run_cons_ok.1 halias
  cases hcreate
  obtain ⟨w, two, last, hinsert, hnil, -⟩ := Script.run_cons_ok.1 hrest
  cases hinsert
  cases hnil
  rw [← congrArg Database.tables hus, ← congrArg Database.receipts hus]
  exact ⟨rfl, .refl _⟩

/-- A batch that counts the history and writes the row of an event, or none. -/
structure Prepared (count : Nat) (event : Option SealEvent) (pending : PreparedMutation OutboxTables) : Prop where
  body : ∃ condition : Guard, ∃ expiry rowId,
    (∀ tables, condition.holds tables = true → countIs isSeal count tables = true) ∧
      pending.body = guardedBatch condition.text (fun s => condition.holds s.tables)
        (match event with
          | some event => sealBody (count + 1) event expiry
          | none => aliasBody rowId expiry)

theorem rowOf_sealRow (seq : Nat) (event : SealEvent) (id : Nat) : RowOf seq ((sealRow seq event).record id) id event where
  rowId := rfl
  operation := rfl
  seq := rfl
  value := rfl

/-- A submit of another owner leaves the seal rows. -/
theorem submit_other {sha : Sha256} {pending : PreparedMutation OutboxTables} (own : OtherOwner isSeal pending)
    {t : Database OutboxTables} (ht : Kept sha t) (store : SqliteStore) (m : Moment) :
    Settled sha (.submit store pending) m t ∧ (sealLaw sha).rel t (StoreOp.exec (.submit store pending) m t).1 := by
  obtain ⟨hordered, hgrows, hreceipts, hlog⟩ := own.submit store m.host ht.ordered
  have hledger : ledgerOf (Storage.submit store pending m.host t).1.tables = ledgerOf t.tables := by
    unfold ledgerOf
    rw [hlog]
  refine ⟨.inl hlog, fun _ => ⟨⟨hordered, ?_⟩, hgrows, hreceipts⟩⟩
  show Recorded sha (logOf isSeal (Storage.submit store pending m.host t).1.tables)
    (ledgerOf (Storage.submit store pending m.host t).1.tables)
  rw [hlog, hledger]
  exact ht.recorded

/-- An alias is the mutation of another owner, as far as the seal rows go. -/
theorem submit_alias {sha : Sha256} {count : Nat} {pending : PreparedMutation OutboxTables}
    (hpending : Prepared count none pending) {t : Database OutboxTables} (ht : Kept sha t) (store : SqliteStore)
    (m : Moment) :
    Settled sha (.submit store pending) m t ∧ (sealLaw sha).rel t (StoreOp.exec (.submit store pending) m t).1 := by
  obtain ⟨condition, expiry, rowId, -, hbody⟩ := hpending.body
  have hown : OtherOwner isSeal pending := .of_guarded hbody fun u v inner hrun => by
    obtain ⟨hreceipts, happended⟩ := aliasBody_run hrun
    exact ⟨hreceipts, [], happended, fun row hrow => absurd hrow List.not_mem_nil⟩
  exact submit_other hown ht store m

/-- A submit of a row leaves the seal rows, or records its event in the history it was decided on. -/
theorem submit_event {sha : Sha256} {event : SealEvent} {pending : PreparedMutation OutboxTables}
    {s t : Database OutboxTables} (hpending : Prepared (logOf isSeal s.tables).length (some event) pending)
    (happends : Appends sha (ledgerOf s.tables) event) (hroom : (ledgerOf s.tables).length < maxHistory)
    (hst : history s.tables <+: history t.tables) (ht : Kept sha t) (store : SqliteStore) (m : Moment) :
    Settled sha (.submit store pending) m t ∧ (sealLaw sha).rel t (StoreOp.exec (.submit store pending) m t).1 := by
  obtain ⟨condition, expiry, rowId, hcounts, hbody⟩ := hpending.body
  have hexec : StoreOp.exec (.submit store pending) m t = Storage.submit store pending m.host t := rfl
  rcases submit_guarded store hbody m.host t with hsame | ⟨u, v, inner, out, hholds, hdb, -, hrun, -, -, -, -, hnext⟩
  · refine ⟨.inl (by rw [hexec, hsame]), ?_⟩
    rw [hexec, hsame]
    exact (sealLaw sha).refl t
  -- the guard counted the rows of the history the event was decided on
  have hcount := hcounts _ hholds
  unfold countIs at hcount
  rw [decide_eq_true_eq] at hcount
  have hlog : logOf isSeal t.tables = logOf isSeal s.tables := logOf_eq_of_length hst hcount
  have hledger : ledgerOf t.tables = ledgerOf s.tables := by
    unfold ledgerOf
    rw [hlog]
  have hlength : (logOf isSeal s.tables).length = (ledgerOf t.tables).length := by
    rw [← hlog]
    exact ht.length_ledger
  rw [← hledger] at happends hroom
  rw [hlength] at hrun
  obtain ⟨hreceipts, happended⟩ := sealBody_run hrun
  rw [congrArg Database.tables hdb] at happended
  have hrow : RowOf ((ledgerOf t.tables).length + 1)
      ((sealRow ((ledgerOf t.tables).length + 1) event).record (t.tables.lastId + 1)) (t.tables.lastId + 1 : Nat) event :=
    rowOf_sealRow _ _ _
  generalize hr : (sealRow ((ledgerOf t.tables).length + 1) event).record (t.tables.lastId + 1) = r at hrow
  have hlast : (numbered t.tables.lastId [sealRow ((ledgerOf t.tables).length + 1) event]).filter isSeal = [r] := by
    unfold numbered numbered
    rw [hr, List.filter_cons, if_pos (isSeal_event event hrow.operation), List.filter_nil]
  have hafter : (StoreOp.exec (.submit store pending) m t).1.tables = v.tables := by rw [hexec, hnext]
  have hgrown : logOf isSeal (StoreOp.exec (.submit store pending) m t).1.tables = logOf isSeal t.tables ++ [r] := by
    rw [hafter, happended.logOf_eq, hlast]
  have hentries : ledgerOf (StoreOp.exec (.submit store pending) m t).1.tables =
      ledgerOf t.tables ++ [(((t.tables.lastId + 1 : Nat) : Int), event)] := by
    unfold ledgerOf
    rw [hgrown, List.filterMap_append, List.filterMap_cons_some (eventOf_rowOf hrow happends.readable)]
    rfl
  refine ⟨.inr ⟨r, _, event, hgrown, hentries, happends⟩, fun _ => ⟨⟨?_, ?_⟩, ?_, ?_⟩⟩
  · rw [hafter]
    exact happended.ordered ht.ordered
  · rw [hgrown, hentries]
    exact .snoc ht.recorded hroom happends hrow
  · rw [hafter]
    exact happended.grows
  · rw [hexec, hnext]
    show t.receipts <+: v.receipts ++ _
    rw [hreceipts, congrArg Database.receipts hdb]
    exact List.prefix_append _ _

/-! ### The calls -/

section Calls

variable {sha : Sha256} {E : Moment → Prop} {s : Database OutboxTables}

/-- Nothing is promised of an error. -/
abbrev Promised {ε α : Type} (P : Database OutboxTables → α → Prop) : Database OutboxTables → Except ε α → Prop :=
  onResult (fun _ _ => True) P

/-- The call keeps the law of the seals, and promises `P` of its value. -/
abbrev Obeys {ε α : Type} (sha : Sha256) (E : Moment → Prop) (P : Database OutboxTables → α → Prop)
    (s : Database OutboxTables) (call : Prog.Try (StoreOp.Answer (ρ := OutboxTables)) ε α) : Prop :=
  Keeps StoreOp.exec (sealLaw sha) E (Settled sha) (Promised P) s call.run

theorem obeys_noSubmit {op : StoreOp OutboxTables} (hop : NoSubmit op) (m : Moment) (t : Database OutboxTables) :
    Settled sha op m t ∧ (sealLaw sha).rel t (StoreOp.exec op m t).1 := by
  refine ⟨settled_noSubmit hop m t, ?_⟩
  rw [hop.exec]
  exact (sealLaw sha).refl t

theorem obeys_silent {ε α : Type} {x : Prog.Try (StoreOp.Answer (ρ := OutboxTables)) ε α} (h : x.run.Issues NoSubmit) :
    Obeys sha E (fun _ _ => True) s x := by
  have hkeeps : Keeps StoreOp.exec (sealLaw sha) E (Settled sha) (fun _ _ => True) s x.run :=
    Issues.keeps h fun op m t _ hop _ => obeys_noSubmit hop m t
  refine hkeeps.mono fun t r _ _ => ?_
  cases r <;> exact trivial

/-- A look that changes nothing. -/
theorem keeps_quietly {op : StoreOp OutboxTables} (h : NoSubmit op) :
    Keeps StoreOp.exec (sealLaw sha) E (Settled sha) (fun _ _ => True) s (issue op) :=
  keeps_look (fun m t => h.exec m t) (fun m t _ => settled_noSubmit h m t) fun _ _ _ _ _ _ => trivial

theorem obeys_throw {α : Type} {P : Database OutboxTables → α → Prop} (e : SealError) :
    Obeys sha E P s (throw e : SealCall α) := keeps_done fun _ _ => trivial

/-- A read answers with the history of a database on the way. -/
theorem obeys_readHistory (hs : Kept sha s) :
    Obeys sha E (fun u history => ∃ t, (sealLaw sha).rel s t ∧ (sealLaw sha).rel t u ∧ history = historyAt t) s
      (readHistory sha) := by
  unfold readHistory
  refine Keeps.tryBind (P := fun u rows => ∃ t, (sealLaw sha).rel s t ∧ (sealLaw sha).rel t u ∧
    rows = ((logOf isSeal t.tables).take (maxHistory + 1)).map sealColumns) ?_ ?_
  · refine Keeps.mapErr (F := fun _ _ => True) ?_ fun _ _ _ _ => trivial
    refine keeps_look (fun _ _ => rfl) (fun _ _ _ => .inl rfl) fun t hst m _ u htu => ?_
    have hanswer : (StoreOp.exec (.read selectSeals) m t).2 = execScript m selectSeals t := rfl
    rw [hanswer]
    unfold execScript
    cases m.read with
    | some fault => exact trivial
    | none => exact ⟨t, hst, htu, rfl⟩
  · intro t rows hst hrows
    obtain ⟨v, hsv, hvt, rfl⟩ := hrows t ((sealLaw sha).refl t)
    refine keeps_check fun u htu => ?_
    rw [(hsv hs).1.ofRows]
    exact ⟨v, hsv, (sealLaw sha).trans hvt htu, rfl⟩

/-- The row of a commit is in the database, with the bytes of its manifest. -/
def Vouched (db : Database OutboxTables) (commit : SealCommit) : Prop :=
  (commit.rowId, SealEvent.publish commit.identity commit.manifest) ∈ ledgerOf db.tables

theorem Vouched.grows {s t : Database OutboxTables} {commit : SealCommit} (h : Vouched s commit)
    (hst : history s.tables <+: history t.tables) : Vouched t commit := (ledgerOf_grows hst).subset h

theorem vouched_get {db : Database OutboxTables} {identity : Digest} {commit : SealCommit}
    (h : (historyAt db).get identity = some commit) : commit.identity = identity ∧ Vouched db commit := by
  obtain ⟨hidentity, -, hmem⟩ := get_eq_some h
  refine ⟨hidentity, ?_⟩
  unfold Vouched
  rw [hidentity]
  exact hmem

theorem commitOf_eq_ok {history : History} {rowId : Int} {identity : Digest} {commit : SealCommit}
    (h : SealStore.commitOf history rowId identity = .ok commit) :
    history.get identity = some commit ∧ commit.rowId = rowId := by
  unfold SealStore.commitOf at h
  split at h
  · rename_i found hfound
    obtain ⟨hget, hrow⟩ := Option.filter_eq_some_iff.1 hfound
    rw [← Except.ok.inj h]
    exact ⟨hget, of_decide_eq_true hrow⟩
  · cases h

/-- A commit is vouched for, and of the identity that was asked for. -/
abbrev VouchedAs (identity : Digest) (db : Database OutboxTables) (commit : SealCommit) : Prop :=
  commit.identity = identity ∧ Vouched db commit

theorem obeys_readCommit (rowId : Int) (identity : Digest) (hs : Kept sha s) :
    Obeys sha E (VouchedAs identity) s (SealStore.readCommit sha rowId identity) := by
  unfold SealStore.readCommit
  refine Keeps.tryBind (obeys_readHistory hs) fun t history hst hhistory => ?_
  obtain ⟨v, hsv, hvt, rfl⟩ := hhistory t ((sealLaw sha).refl t)
  refine keeps_check fun u htu => ?_
  cases hcommit : SealStore.commitOf (historyAt v) rowId identity with
  | error e => exact trivial
  | ok commit =>
    obtain ⟨hidentity, hvouched⟩ := vouched_get (commitOf_eq_ok hcommit).1
    exact ⟨hidentity, hvouched.grows ((sealLaw sha).trans hvt htu (hsv hs).1).2.1⟩

variable (self : SealStore)

theorem obeys_prepare (count : Nat) (event : Option SealEvent) (operation : OperationId) {condition : Guard}
    {body : Script OutboxTables} (payload : Nat)
    (hcounts : ∀ tables, condition.holds tables = true → countIs isSeal count tables = true)
    (hbody : ∃ expiry rowId, body = match event with
      | some event => sealBody (count + 1) event expiry
      | none => aliasBody rowId expiry) :
    Obeys sha E (fun _ pending => Prepared count event pending) s (self.prepare operation condition body payload) := by
  unfold SealStore.prepare
  refine Keeps.liftBind (P := fun _ _ => True) (keeps_quietly trivial) fun t id _ _ => ?_
  refine Keeps.checkBind (fun _ _ _ _ => trivial) fun pending hpending => ?_
  obtain ⟨-, heq⟩ := prepareGuardedBatch_eq_ok (Result.mapError_eq_ok.1 hpending)
  obtain ⟨expiry, rowId, rfl⟩ := hbody
  refine keeps_done fun _ _ => ⟨condition, expiry, rowId, hcounts, ?_⟩
  show pending.body = _
  rw [heq]

/-- A dispatch of what every submit settles. -/
theorem keeps_dispatch {pending : PreparedMutation OutboxTables}
    (hsubmit : ∀ t, (sealLaw sha).rel s t → ∀ m, Settled sha (.submit self.store pending) m t ∧
      (sealLaw sha).rel t (StoreOp.exec (.submit self.store pending) m t).1) :
    Keeps StoreOp.exec (sealLaw sha) E (Settled sha) (fun _ _ => True) s (self.dispatch pending) := by
  unfold SealStore.dispatch
  refine Keeps.bind (P := fun _ _ => True) ?_ fun t first _ _ => ?_
  · refine keeps_issue fun t hst m _ => ?_
    obtain ⟨hsettled, hlaw⟩ := hsubmit t hst m
    exact ⟨hsettled, hlaw, fun _ _ => trivial⟩
  · cases first with
    | unknown operation detail =>
      exact Keeps.bind (P := fun _ _ => True) (keeps_quietly trivial) fun _ _ _ _ => keeps_done fun _ _ => trivial
    | committed | notCommitted | conflict => exact keeps_done fun _ _ => trivial

theorem obeys_settle {pending : PreparedMutation OutboxTables} (identity : Digest) (hs : Kept sha s)
    (hsubmit : ∀ t, (sealLaw sha).rel s t → ∀ m, Settled sha (.submit self.store pending) m t ∧
      (sealLaw sha).rel t (StoreOp.exec (.submit self.store pending) m t).1) :
    Obeys sha E (VouchedAs identity) s (self.settle sha pending identity) := by
  unfold SealStore.settle
  refine Keeps.liftBind (keeps_dispatch self hsubmit) fun t answer hst _ => ?_
  obtain ⟨outcome, reconciled⟩ := answer
  refine Keeps.checkBind (fun _ _ _ _ => trivial) fun rowId _ => ?_
  refine Keeps.tryBind (obeys_readCommit rowId identity (hst hs).1) fun u commit _ hcommit => ?_
  exact keeps_done fun v huv => hcommit v huv

theorem obeys_reconcileInner (operation : OperationId) (identity : Digest) (hs : Kept sha s) :
    Obeys sha E (fun u answer => ∀ commit ∈ answer, VouchedAs identity u commit) s
      (self.reconcileInner sha operation identity) := by
  unfold SealStore.reconcileInner
  refine Keeps.liftBind (P := fun _ _ => True) (keeps_quietly trivial) fun t outcome hst _ => ?_
  by_cases habsent : absent outcome = true
  · rw [if_pos habsent]
    refine keeps_done fun _ _ => ?_
    rintro commit ⟨⟩
  · rw [if_neg habsent]
    refine Keeps.checkBind (fun _ _ _ _ => trivial) fun rowId _ => ?_
    refine Keeps.tryBind (obeys_readCommit rowId identity (hst hs).1) fun u commit _ hcommit => ?_
    refine keeps_done fun v huv => ?_
    rintro answer ⟨⟩
    exact hcommit v huv

/-! ### Sealing and releasing -/

variable {r : Database OutboxTables}

theorem obeys_sealAlias {existing : SealCommit} (authority : Authority) (references : Guard) (operation : OperationId)
    (manifest : Manifest) (identity : Digest) (hs : Kept sha s) :
    Obeys sha E (VouchedAs identity) s
      (self.sealAlias sha (historyAt r) existing authority references operation manifest identity) := by
  unfold SealStore.sealAlias
  refine Keeps.checkBind (fun _ _ _ _ => trivial) fun _ _ => ?_
  refine Keeps.tryBind (obeys_prepare self (historyAt r).count none operation 0 (fun tables h => ?_)
    ⟨_, _, rfl⟩) fun t pending hst hpending => ?_
  · have hall : (authority.guard.holds tables && references.holds tables &&
        countIs isSeal (historyAt r).count tables) = true := h
    rw [Bool.and_eq_true] at hall
    exact hall.2
  · refine obeys_settle self identity (hst hs).1 fun u htu m => ?_
    exact submit_alias (hpending t ((sealLaw sha).refl t)) ((sealLaw sha).trans hst htu hs).1 self.store m

theorem rowBody_eq_ok {store : SqliteStore} {history : History} {event : SealEvent} {expiry : Option Int64}
    {body : Script OutboxTables} (h : rowBody store history event expiry = .ok body) :
    history.count < maxHistory ∧ (Value.text event.text).toJson.utf8ByteSize ≤ store.bounds.maxValueBytes ∧
      body = sealBody (history.count + 1) event expiry := by
  unfold rowBody at h
  obtain ⟨hroom, h⟩ := Result.ite_error_eq_ok.1 h
  obtain ⟨hbytes, h⟩ := Result.ite_error_eq_ok.1 h
  exact ⟨Nat.not_le.1 hroom, Nat.not_lt.1 hbytes, (Except.ok.inj h).symm⟩

/-- A row decided on the history of an earlier database, where its event may be appended. -/
theorem submit_decided {event : SealEvent} {pending : PreparedMutation OutboxTables}
    (hpending : Prepared (historyAt r).count (some event) pending) (happends : Appends sha (ledgerOf r.tables) event)
    (hroom : (historyAt r).count < maxHistory) (hr : Kept sha r) {t : Database OutboxTables} (hrt : (sealLaw sha).rel r t)
    (m : Moment) :
    Settled sha (.submit self.store pending) m t ∧
      (sealLaw sha).rel t (StoreOp.exec (.submit self.store pending) m t).1 := by
  have hcount : (historyAt r).count = (logOf isSeal r.tables).length := count_historyOf _ _
  rw [hcount] at hpending hroom
  rw [hr.length_ledger] at hroom
  exact submit_event hpending happends hroom (hrt hr).2.1 (hrt hr).1 self.store m

/-- What a fresh seal may append. -/
theorem appends_publish {identity : Digest} {manifest : Manifest} {build : Build} (hstaged : manifest.Staged build)
    (hnamed : manifest.identity sha = .ok identity) (hnone : (historyAt r).get identity = none)
    (hlive : (historyAt r).live.length < maxLiveSeals) :
    Appends sha (ledgerOf r.tables) (.publish identity manifest) := by
  refine .publish ⟨hstaged.small, Manifest.decode_canonicalBytes hstaged⟩ hnamed (fun hmem => ?_) ?_
  · have hsome : ((historyAt r).get identity).isSome = true := get_isSome.2 hmem
    rw [hnone] at hsome
    cases hsome
  · have hlength := congrArg List.length (live_historyOf (logOf isSeal r.tables).length (ledgerOf r.tables))
    rw [List.length_map] at hlength
    rw [← hlength]
    exact hlive

theorem verify_noSubmit (manifest : Manifest) (native : NativeHandle) :
    (manifest.verify native sha).run.Issues NoSubmit :=
  Issues.tryBind (closure_noSubmit sha manifest.scope manifest.roots) fun _ => issues_check

theorem stage_noSubmit (build : Build) (draft : Draft) (publisher : String) (native : NativeHandle) :
    (Manifest.stage build draft publisher native sha).run.Issues NoSubmit := by
  unfold Manifest.stage
  refine Issues.tryBind (closure_noSubmit sha draft.scope draft.roots) fun _ => ?_
  exact Issues.tryBind issues_check fun _ => issues_check

theorem obeys_sealFresh (later : NativeHandle) (registry : BindingRegistry) (authority : Authority) (references : Guard)
    (operation : OperationId) (draft : Draft) {manifest : Manifest} {identity : Digest} {build : Build}
    (hstaged : manifest.Staged build) (hnamed : manifest.identity sha = .ok identity) (hr : Kept sha r)
    (hrs : (sealLaw sha).rel r s) (hnone : (historyAt r).get identity = none) :
    Obeys sha E (VouchedAs identity) s
      (self.sealFresh sha later (historyAt r) registry authority references operation draft manifest identity) := by
  unfold SealStore.sealFresh
  refine Keeps.checkBind (fun _ _ _ _ => trivial) fun _ _ => ?_
  refine Keeps.checkBind (fun _ _ _ _ => trivial) fun _ hlive => ?_
  obtain ⟨hlive, -⟩ := Result.ite_error_eq_ok.1 hlive
  refine Keeps.checkBind (fun _ _ _ _ => trivial) fun body hbody => ?_
  obtain ⟨hroom, -, hbody⟩ := rowBody_eq_ok hbody
  refine Keeps.tryBind (obeys_prepare self (historyAt r).count (some (.publish identity manifest))
    operation _ (fun tables h => ?_) ⟨_, 0, hbody⟩) fun t pending hst hpending => ?_
  · have hall : (authority.guard.holds tables && references.holds tables && registry.guard.holds tables &&
        countIs isSeal (historyAt r).count tables) = true := h
    rw [Bool.and_eq_true] at hall
    exact hall.2
  have happends := appends_publish hstaged hnamed hnone (Nat.not_le.1 hlive)
  have hrt := (sealLaw sha).trans hrs hst
  refine Keeps.tryBind (obeys_settle self identity (hrt hr).1 fun u htu m => ?_) fun u commit htu hcommit => ?_
  · exact submit_decided self (hpending t ((sealLaw sha).refl t)) happends hroom hr ((sealLaw sha).trans hrt htu) m
  · refine Keeps.tryBind (obeys_silent (verify_noSubmit commit.manifest later)) fun v _ huv _ => ?_
    exact keeps_done fun w hvw => hcommit w ((sealLaw sha).trans huv hvw)

theorem obeys_sealStaged (later : NativeHandle) (registry : BindingRegistry) (authority : Authority) (references : Guard)
    (operation : OperationId) (draft : Draft) {manifest : Manifest} {build : Build} (hstaged : manifest.Staged build)
    (hs : Kept sha s) {staged : SealCall SealCommit}
    (hcall : self.sealStaged sha later registry authority references operation draft manifest = staged) :
    Obeys sha E (fun u commit => manifest.identity sha = .ok commit.identity ∧ Vouched u commit) s staged := by
  rw [← hcall]
  unfold SealStore.sealStaged
  generalize hnamed : manifest.identity sha = named
  refine Keeps.checkBind (fun _ _ _ _ => trivial) fun identity hok => ?_
  rw [hok] at hnamed
  have hanswer : ∀ {u : Database OutboxTables} {call : SealCall SealCommit}, Obeys sha E (VouchedAs identity) u call →
      Obeys sha E (fun u commit => named = .ok commit.identity ∧ Vouched u commit) u call := by
    intro u call h
    refine h.mono fun v answer _ hans => ?_
    have hnow := hans v ((sealLaw sha).refl v)
    cases answer with
    | error e => exact trivial
    | ok commit =>
      obtain ⟨hidentity, hvouched⟩ := hnow
      exact ⟨by rw [hidentity]; exact hok, hvouched⟩
  refine Keeps.tryBind (obeys_reconcileInner self operation identity hs) fun t found hst hfound => ?_
  cases found with
  | some commit => exact hanswer (keeps_done fun u htu => hfound u htu commit rfl)
  | none =>
    refine Keeps.tryBind (obeys_readHistory (hst hs).1) fun u history htu hhistory => ?_
    obtain ⟨r, htr, hru, rfl⟩ := hhistory u ((sealLaw sha).refl u)
    have hsr := (sealLaw sha).trans hst htr
    cases hget : (historyAt r).get identity with
    | some existing =>
      exact hanswer (obeys_sealAlias self authority references operation manifest identity
        ((sealLaw sha).trans hsr hru hs).1)
    | none =>
      exact hanswer (obeys_sealFresh self later registry authority references operation draft hstaged hnamed (hsr hs).1
        hru hget)

/-- What is staged reads back. -/
theorem obeys_stage (build : Build) (draft : Draft) (publisher : String) (native : NativeHandle) :
    Obeys sha E (fun _ answer => answer.1.Staged build) s (Manifest.stage build draft publisher native sha) := by
  have hkeeps : Keeps StoreOp.exec (sealLaw sha) E (Settled sha) _ s _ :=
    Issues.keepsYields (stage_noSubmit build draft publisher native)
      (Manifest.returns_stage build draft publisher native sha) fun op m t _ hop _ => obeys_noSubmit hop m t
  refine hkeeps.mono fun v answer _ hanswer => ?_
  cases answer with
  | error e => exact trivial
  | ok staged => exact hanswer v ((sealLaw sha).refl v) staged rfl

/-- A seal keeps the law, and the commit it returns is in the database. -/
theorem obeys_seal (build : Build) (later : NativeHandle) (operation : OperationId) (draft : Draft)
    (registry : BindingRegistry) (gate : AccessGate) (credential : Credential) (paths : CanonicalPaths) (hs : Kept sha s) :
    Obeys sha E (fun u answer => Vouched u answer.2) s
      (self.seal sha build later operation draft registry gate credential paths) := by
  unfold SealStore.seal
  generalize self.requireGuard = guarded, self.sameDatabase = same
  refine Keeps.checkBind (fun _ _ _ _ => trivial) fun _ _ => ?_
  refine Keeps.checkBind (fun _ _ _ _ => trivial) fun _ _ => ?_
  refine Keeps.tryBind (obeys_silent (Issues.mapErr registry.replay_noSubmit)) fun t registry' hst _ => ?_
  refine Keeps.tryBind (obeys_silent (Issues.mapErr (authority_noSubmit _ _ _ _ _))) fun u authority htu _ => ?_
  generalize descriptor (actorFields authority.report.actor) = publisher
  dsimp only
  refine Keeps.tryBind (obeys_stage build draft publisher self.native) fun v staged huv hstaged => ?_
  have hsv := (sealLaw sha).trans hst ((sealLaw sha).trans htu huv)
  generalize hcall : self.sealStaged sha later registry' authority staged.2 operation draft staged.1 = call
  refine Keeps.tryBind (obeys_sealStaged self later registry' authority staged.2 operation draft
    (hstaged v ((sealLaw sha).refl v)) (hsv hs).1 hcall) fun w commit _ hcommit => ?_
  exact keeps_done fun x hwx => (hcommit x hwx).2

theorem obeys_releaseHeld (authority : Authority) (operation : OperationId) {identity : Digest} (hr : Kept sha r)
    (hrs : (sealLaw sha).rel r s) (happends : Appends sha (ledgerOf r.tables) (.release identity)) :
    Obeys sha E (fun _ _ => True) s (self.releaseHeld (historyAt r) authority operation identity) := by
  unfold SealStore.releaseHeld
  refine Keeps.checkBind (fun _ _ _ _ => trivial) fun body hbody => ?_
  obtain ⟨hroom, -, hbody⟩ := rowBody_eq_ok hbody
  refine Keeps.tryBind (obeys_prepare self (historyAt r).count (some (.release identity))
    operation _ (fun tables h => ?_) ⟨_, 0, hbody⟩) fun t pending hst hpending => ?_
  · have hall : (authority.guard.holds tables && countIs isSeal (historyAt r).count tables) = true := h
    rw [Bool.and_eq_true] at hall
    exact hall.2
  have hrt := (sealLaw sha).trans hrs hst
  refine Keeps.liftBind (keeps_dispatch self fun u htu m => ?_) fun u answer _ _ => ?_
  · exact submit_decided self (hpending t ((sealLaw sha).refl t)) happends hroom hr ((sealLaw sha).trans hrt htu) m
  · exact Keeps.checkBind (fun _ _ _ _ => trivial) fun _ _ => keeps_done fun _ _ => trivial

theorem obeys_release (operation : OperationId) (identity : Digest) (gate : AccessGate) (credential : Credential)
    (paths : CanonicalPaths) (hs : Kept sha s) :
    Obeys sha E (fun _ _ => True) s (self.release sha operation identity gate credential paths) := by
  unfold SealStore.release
  generalize self.requireGuard = guarded, self.sameDatabase = same
  refine Keeps.checkBind (fun _ _ _ _ => trivial) fun _ _ => ?_
  refine Keeps.checkBind (fun _ _ _ _ => trivial) fun _ _ => ?_
  refine Keeps.tryBind (obeys_readHistory hs) fun t history _ hhistory => ?_
  obtain ⟨r, hsr, hrt, rfl⟩ := hhistory t ((sealLaw sha).refl t)
  cases hget : (historyAt r).get identity with
  | none => exact obeys_throw _
  | some commit =>
    refine Keeps.tryBind (obeys_silent (Issues.mapErr (authority_noSubmit _ _ _ _ _))) fun u authority htu _ => ?_
    by_cases hreleased : identity ∈ (historyAt r).released
    · rw [if_pos hreleased]
      exact keeps_done fun _ _ => trivial
    · rw [if_neg hreleased]
      refine obeys_releaseHeld self authority operation (hsr hs).1 ((sealLaw sha).trans hrt htu) ?_
      refine .release (get_isSome.1 (Option.isSome_iff_exists.2 ⟨commit, hget⟩)) fun hmem => hreleased ?_
      have hsame : (historyAt r).released = SealLog.released (ledgerOf r.tables) := released_historyOf _ _
      rw [hsame]
      exact hmem

end Calls

end Verdant.Seal
