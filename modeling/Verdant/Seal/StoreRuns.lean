import Verdant.Seal.StoreLaw

/-!
# Runs of seal stores

Every interleaving of seals, releases and reconciliations by any number of stores, and of other owners, on one database that
starts without a seal row.  The seal rows stay one numbered sequence whose ledger is sound (`Sound`), a released identity is
never live again, a commit that is returned has its row (`seals_sound`), and native bytes are pruned exactly while no seal is
live (`prune_iff`).
-/

namespace Verdant.Seal

open TextCodec Storage Access Binding Prog

/-! ### Requests -/

inductive SealAnswer where
  | commit (registry : BindingRegistry) (commit : SealCommit)
  | found (commit : Option SealCommit)
  | released
  | other (outcome : MutationOutcome)

/-- The row of a commit: its id, its kind and the bytes of its manifest. -/
def HasRow (tables : OutboxTables) (commit : SealCommit) : Prop :=
  ∃ r ∈ logOf isSeal tables, commit.rowId = r.id ∧ r.operation = opSealText ∧
    r.valueJson = (Value.text (SealEvent.publish commit.identity commit.manifest).text).toJson

def SealAnswer.HasRows (tables : OutboxTables) : SealAnswer → Prop
  | .commit _ made => HasRow tables made
  | .found answer => ∀ made ∈ answer, HasRow tables made
  | _ => True

/-- One call on the database: of a store handle in whatever state it is, or another owner's submit. -/
inductive SealRequest where
  | publish (self : SealStore) (build : Build) (later : NativeHandle) (operation : OperationId) (draft : Draft)
      (registry : BindingRegistry) (gate : AccessGate) (credential : Credential) (paths : CanonicalPaths)
  | release (self : SealStore) (operation : OperationId) (identity : Digest) (gate : AccessGate)
      (credential : Credential) (paths : CanonicalPaths)
  | reconcile (self : SealStore) (operation : OperationId) (identity : Digest)
  | other (store : SqliteStore) (pending : PreparedMutation OutboxTables) (own : OtherOwner isSeal pending)

/-- The row of a recorded event. -/
theorem Recorded.row_of_mem {sha : Sha256} {rows : List OutboxRecord} {log : SealLog} (h : Recorded sha rows log)
    {rowId : Int} {event : SealEvent} (hmem : (rowId, event) ∈ log) :
    ∃ r ∈ rows, ∃ seq, RowOf seq r rowId event := by
  induction h with
  | nil => exact absurd hmem List.not_mem_nil
  | @snoc rows log r last lastEvent _ _ _ hrow ih =>
    rcases List.mem_append.1 hmem with hmem | hmem
    · obtain ⟨x, hx, seq, hold⟩ := ih hmem
      exact ⟨x, List.mem_append_left _ hx, seq, hold⟩
    · cases List.mem_singleton.1 hmem
      exact ⟨r, List.mem_append_right _ (List.mem_singleton_self r), _, hrow⟩

theorem Vouched.hasRow {sha : Sha256} {db : Database OutboxTables} {commit : SealCommit} (hdb : Kept sha db)
    (h : Vouched db commit) : HasRow db.tables commit := by
  obtain ⟨r, hr, seq, hrow⟩ := hdb.recorded.row_of_mem h
  exact ⟨r, hr, hrow.rowId, hrow.operation, hrow.value⟩

/-- What holds of an answer once the database is kept. -/
def Answered (sha : Sha256) (db : Database OutboxTables) (answer : SealAnswer) : Prop :=
  Kept sha db → answer.HasRows db.tables

namespace SealRequest

def call (sha : Sha256) : SealRequest → Call OutboxTables (Except SealError SealAnswer)
  | .publish self build later operation draft registry gate credential paths => (do
      let answer ← self.seal sha build later operation draft registry gate credential paths
      return .commit answer.1 answer.2 : SealCall _).run
  | .release self operation identity gate credential paths => (do
      self.release sha operation identity gate credential paths
      return .released : SealCall _).run
  | .reconcile self operation identity => (do
      return .found (← self.reconcile sha operation identity) : SealCall _).run
  | .other store pending _ => do return .ok (.other (← Call.submit store pending))

variable {sha : Sha256} {E : Moment → Prop} {s : Database OutboxTables}

theorem keeps_other (store : SqliteStore) {pending : PreparedMutation OutboxTables} (own : OtherOwner isSeal pending)
    (hs : Kept sha s) :
    Keeps StoreOp.exec (sealLaw sha) E (Settled sha) (fun _ _ => True) s (Call.submit store pending) := by
  refine keeps_issue fun t hst m _ => ?_
  obtain ⟨hsettled, hlaw⟩ := submit_other own (hst hs).1 store m
  exact ⟨hsettled, hlaw, fun _ _ => trivial⟩

theorem obeys_reconcile (self : SealStore) (operation : OperationId) (identity : Digest) (hs : Kept sha s) :
    Obeys sha E (fun u answer => ∀ commit ∈ answer, VouchedAs identity u commit) s
      (self.reconcile sha operation identity) := by
  unfold SealStore.reconcile
  generalize self.requireGuard = guarded
  exact Keeps.checkBind (fun _ _ _ _ => trivial) fun _ _ => obeys_reconcileInner self operation identity hs

theorem keeps_call (r : SealRequest) (hs : Kept sha s) :
    Keeps StoreOp.exec (sealLaw sha) E (Settled sha) (Promised (Answered sha)) s (r.call sha) := by
  cases r with
  | publish self build later operation draft registry gate credential paths =>
    have hseal := obeys_seal (E := E) self build later operation draft registry gate credential paths hs
    refine Keeps.tryBind hseal fun t answer _ hanswer => keeps_done fun u htu hu => ?_
    exact (hanswer u htu).hasRow hu
  | release self operation identity gate credential paths =>
    have hrelease := obeys_release (E := E) self operation identity gate credential paths hs
    exact Keeps.tryBind hrelease fun _ _ _ _ => keeps_done fun _ _ _ => trivial
  | reconcile self operation identity =>
    have hreconcile := obeys_reconcile (E := E) self operation identity hs
    refine Keeps.tryBind hreconcile fun t answer _ hanswer => keeps_done fun u htu hu => ?_
    exact fun commit hcommit => ((hanswer u htu) commit hcommit).2.hasRow hu
  | other store pending own =>
    exact Keeps.bind (keeps_other store own hs) fun _ _ _ _ => keeps_done fun _ _ _ => trivial

end SealRequest

/-! ### Runs -/

abbrev SealTurn := Turn SealRequest Moment

/-- A database without a seal row. -/
structure Unsealed where
  db : Database OutboxTables
  ordered : Ordered db.tables
  empty : logOf isSeal db.tables = []

theorem Unsealed.kept (start : Unsealed) (sha : Sha256) : Kept sha start.db := by
  have hledger : ledgerOf start.db.tables = [] := by
    unfold ledgerOf
    rw [start.empty]
    rfl
  refine ⟨start.ordered, ?_⟩
  rw [start.empty, hledger]
  exact .nil

def sealRun (sha : Sha256) (start : Unsealed) (turns : List SealTurn) :
    Pool (StoreOp.Answer (ρ := OutboxTables)) (Database OutboxTables) (Except SealError SealAnswer) :=
  (Pool.idle start.db).played StoreOp.exec (fun _ r => r.call sha) turns

section Runs

variable {sha : Sha256}

theorem lawful_played {pool : Pool (StoreOp.Answer (ρ := OutboxTables)) (Database OutboxTables) (Except SealError SealAnswer)}
    (hpool : pool.Lawful StoreOp.exec (sealLaw sha) (fun _ => True) (Settled sha) (Promised (Answered sha)))
    (hkept : Kept sha pool.state) (turns : List SealTurn) :
    (sealLaw sha).rel pool.state (pool.played StoreOp.exec (fun _ r => r.call sha) turns).state ∧
      (pool.played StoreOp.exec (fun _ r => r.call sha) turns).Lawful StoreOp.exec (sealLaw sha) (fun _ => True)
        (Settled sha) (Promised (Answered sha)) := by
  have hserve : ∀ s (answers : List (Option (Except SealError SealAnswer))) r, .ask r ∈ turns →
      (sealLaw sha).rel pool.state s → (∀ a, some a ∈ answers → Promised (Answered sha) s a) →
      Keeps StoreOp.exec (sealLaw sha) (fun _ => True) (Settled sha) (Promised (Answered sha)) s
        ((fun _ (r : SealRequest) => r.call sha) answers r) :=
    fun s answers r _ hs _ => r.keeps_call (hs hkept).1
  obtain ⟨hrel, hlawful, -⟩ := Pool.keeps_asked hpool hserve fun _ _ _ _ => trivial
  exact ⟨hrel, hlawful⟩

theorem kept_run (start : Unsealed) (turns : List SealTurn) : Kept sha (sealRun sha start turns).state :=
  ((lawful_played (Pool.lawful_idle start.db) (start.kept sha) turns).1 (start.kept sha)).1

/-- The ledger of a run is the front of the ledger of every longer run. -/
theorem ledger_grows (start : Unsealed) (turns more : List SealTurn) :
    ledgerOf (sealRun sha start turns).state.tables <+: ledgerOf (sealRun sha start (turns ++ more)).state.tables := by
  have hlawful := (lawful_played (Pool.lawful_idle start.db) (start.kept sha) turns).2
  have hmore := (lawful_played hlawful (kept_run start turns) more).1 (kept_run start turns)
  unfold sealRun
  rw [Pool.played_append]
  exact ledgerOf_grows hmore.2.1

/-! ### Soundness -/

theorem Recorded.seqs {rows : List OutboxRecord} {log : SealLog} (h : Recorded sha rows log) :
    rows.map OutboxRecord.seq = (List.range rows.length).map fun i => Nat.repr (i + 1) := by
  induction h with
  | nil => rfl
  | @snoc rows log r rowId event h _ _ hrow ih =>
    rw [List.map_append, ih, List.length_append, List.length_singleton, List.range_succ, List.map_append]
    have hlast : [r].map OutboxRecord.seq = [rows.length].map fun i => Nat.repr (i + 1) := by
      rw [List.map_singleton, List.map_singleton, hrow.seq, h.length_eq]
    rw [hlast]

/-- A release stands behind the seal it ends. -/
theorem Recorded.sealed_before {rows : List OutboxRecord} {log : SealLog} (h : Recorded sha rows log) {front back : SealLog}
    {rowId : Int} {identity : Digest} (hlog : log = front ++ (rowId, .release identity) :: back) :
    identity ∈ SealLog.published front := by
  induction h generalizing back with
  | nil => exact absurd hlog.symm (List.append_ne_nil_of_right_ne_nil front (List.cons_ne_nil _ _))
  | @snoc rows log r last event _ _ happend _ ih =>
    rcases List.eq_nil_or_concat back with rfl | ⟨back, x, rfl⟩
    · obtain ⟨rfl, hevent⟩ := List.append_inj' hlog rfl
      obtain ⟨-, rfl⟩ := Prod.mk.inj (List.singleton_inj.1 hevent)
      cases happend with
      | release hsealed _ => exact hsealed
    · rw [List.concat_eq_append, ← List.cons_append, ← List.append_assoc] at hlog
      exact ih (List.append_inj' hlog rfl).1

/-- What the seal rows of a database are. -/
structure Sound (sha : Sha256) (db : Database OutboxTables) : Prop where
  sequence : (logOf isSeal db.tables).map OutboxRecord.seq =
    (List.range (logOf isSeal db.tables).length).map fun i => Nat.repr (i + 1)
  bounded : (logOf isSeal db.tables).length ≤ maxHistory
  entries : (ledgerOf db.tables).length = (logOf isSeal db.tables).length
  once : (SealLog.published (ledgerOf db.tables)).Nodup
  releasedOnce : (SealLog.released (ledgerOf db.tables)).Nodup
  sealedBefore : ∀ front rowId identity back, ledgerOf db.tables = front ++ (rowId, .release identity) :: back →
    identity ∈ SealLog.published front
  custody : (SealLog.live (ledgerOf db.tables)).length ≤ maxLiveSeals
  reads : ∀ m : Moment, m.read = none →
    (readHistory sha).run.run StoreOp.exec [m] db = (db, some (.ok (historyAt db), []))

theorem readHistory_run {db : Database OutboxTables} (h : Kept sha db) {m : Moment} (hm : m.read = none) :
    (readHistory sha).run.run StoreOp.exec [m] db = (db, some (.ok (historyAt db), [])) := by
  have hexec : execScript m selectSeals db =
      .ok (((logOf isSeal db.tables).take (maxHistory + 1)).map sealColumns) := by
    unfold execScript
    rw [hm]
    rfl
  have hrows : (Prog.mapErr SealError.storage (Prog.attempt (Call.read selectSeals)) : SealCall Rows).run.run StoreOp.exec
      [m] db = (db, some ((execScript m selectSeals db).mapError SealError.storage, [])) := rfl
  unfold readHistory
  rw [Prog.run_try_bind, hrows, hexec]
  show (db, some (History.ofRows sha _, [])) = _
  rw [h.ofRows]

theorem Kept.sound {db : Database OutboxTables} (h : Kept sha db) : Sound sha db where
  sequence := h.recorded.seqs
  bounded := by
    rw [h.length_ledger]
    exact h.recorded.length_le
  entries := h.length_ledger.symm
  once := h.recorded.nodup_published
  releasedOnce := h.recorded.nodup_released
  sealedBefore _ _ _ _ hlog := h.recorded.sealed_before hlog
  custody := h.recorded.live_le
  reads _ hm := readHistory_run h hm

theorem released_grows {s t : SealLog} (h : s <+: t) : SealLog.released s ⊆ SealLog.released t :=
  (h.filterMap _).subset

/-- In every run the seal rows are sound, a released identity is never live again, and every commit that was answered has its
row with the bytes of its manifest. -/
theorem seals_sound (sha : Sha256) (start : Unsealed) (turns more : List SealTurn) :
    Sound sha (sealRun sha start turns).state ∧
      (∀ identity ∈ SealLog.released (ledgerOf (sealRun sha start turns).state.tables),
        identity ∉ SealLog.live (ledgerOf (sealRun sha start (turns ++ more)).state.tables)) ∧
      ∀ answer, some (.ok answer) ∈ (sealRun sha start turns).answers →
        answer.HasRows (sealRun sha start turns).state.tables := by
  have hkept : Kept sha (sealRun sha start turns).state := kept_run start turns
  refine ⟨hkept.sound, fun identity hreleased hlive => ?_, fun answer hanswer => ?_⟩
  · have hlater := released_grows (ledger_grows start turns more) hreleased
    exact (SealLog.mem_live.1 hlive).2 hlater
  · have hlawful := (lawful_played (Pool.lawful_idle start.db) (start.kept sha) turns).2
    have hanswered : Promised (Answered sha) (sealRun sha start turns).state (.ok answer) :=
      Pool.known_answers hlawful hanswer
    exact hanswered hkept

/-! ### Pruning -/

theorem live_historyAt {db : Database OutboxTables} :
    (historyAt db).live.map SealCommit.identity = SealLog.live (ledgerOf db.tables) := live_historyOf _ _

theorem readHistory_fails {db : Database OutboxTables} {m : Moment} {fault : ReadFault} (hm : m.read = some fault) :
    (readHistory sha).run.run StoreOp.exec [m] db = (db, some (.error (.storage fault.error), [])) := by
  have hexec : execScript m selectSeals db = .error fault.error := by
    unfold execScript
    rw [hm]
  have hrows : (Prog.mapErr SealError.storage (Prog.attempt (Call.read selectSeals)) : SealCall Rows).run.run StoreOp.exec
      [m] db = (db, some ((execScript m selectSeals db).mapError SealError.storage, [])) := rfl
  unfold readHistory
  rw [Prog.run_try_bind, hrows, hexec]
  rfl

/-- A prune pass whose sidecar stands answers by what its one read of the history answers. -/
theorem checkPrune_run {db : Database OutboxTables} {sidecar : Except SealError Artifact} {pair : String} {u : Unit}
    (hmarker : verifyMarker sidecar pair = .ok u) (m : Moment) {answer : Except SealError History}
    (hread : (readHistory sha).run.run StoreOp.exec [m] db = (db, some (answer, []))) :
    ∃ result, (checkPrune sha sidecar pair).run.run StoreOp.exec [m] db = (db, some (result, [])) ∧
      (result = .ok () ↔ ∃ history, answer = .ok history ∧ history.live = []) := by
  unfold checkPrune
  rw [hmarker]
  cases answer with
  | error e =>
    have hfails : (Prog.mapErr (fun e => (⟨[], [], some e⟩ : CustodyPlan)) (readHistory sha)).run.run StoreOp.exec [m] db =
        (db, some (.error ⟨[], [], some e⟩, [])) := by
      refine (run_bind StoreOp.exec (readHistory sha).run _ [m] db).trans ?_
      rw [hread]
      rfl
    refine ⟨.error ⟨[], [], some e⟩, ?_, ?_⟩
    · refine (Prog.run_try_bind StoreOp.exec (Prog.mapErr _ (readHistory sha)) _ [m] db).trans ?_
      rw [hfails]
    · constructor
      · intro h
        cases h
      · rintro ⟨history, h, -⟩
        cases h
  | ok history =>
    have hgives := run_mapErr_ok hread fun e => (⟨[], [], some e⟩ : CustodyPlan)
    by_cases hlive : history.live = []
    · refine ⟨.ok (), ?_, ?_⟩
      · refine (Prog.run_try_bind StoreOp.exec (Prog.mapErr _ (readHistory sha)) _ [m] db).trans ?_
        rw [hgives]
        simp only [if_pos hlive]
        rfl
      · exact ⟨fun _ => ⟨history, rfl, hlive⟩, fun _ => rfl⟩
    · refine ⟨.error ⟨sortDedup (history.live.map fun commit => commit.identity.text),
        sortDedup (history.live.flatMap fun commit =>
          commit.manifest.native.map fun ref => ref.generation.toNat), none⟩, ?_, ?_⟩
      · refine (Prog.run_try_bind StoreOp.exec (Prog.mapErr _ (readHistory sha)) _ [m] db).trans ?_
        rw [hgives]
        simp only [if_neg hlive]
        rfl
      · constructor
        · intro h
          cases h
        · rintro ⟨same, h, hnone⟩
          cases h
          exact absurd hnone hlive

/-- A prune pass of a run is allowed exactly where the sidecar stands, the history is read and no seal is live. -/
theorem prune_iff (sha : Sha256) (start : Unsealed) (turns : List SealTurn) (sidecar : Except SealError Artifact)
    (pair : String) (m : Moment) :
    ∃ result rest, (checkPrune sha sidecar pair).run.run StoreOp.exec [m] (sealRun sha start turns).state =
        ((sealRun sha start turns).state, some (result, rest)) ∧
      (result = .ok () ↔ verifyMarker sidecar pair = .ok () ∧ m.read = none ∧
        SealLog.live (ledgerOf (sealRun sha start turns).state.tables) = []) := by
  have hkept : Kept sha (sealRun sha start turns).state := kept_run start turns
  generalize (sealRun sha start turns).state = db at hkept
  cases hmarker : verifyMarker sidecar pair with
  | error e =>
    refine ⟨.error ⟨[], [], some e⟩, [m], ?_, ?_⟩
    · unfold checkPrune
      rw [hmarker]
      rfl
    · constructor
      · intro h
        cases h
      · rintro ⟨h, -, -⟩
        cases h
  | ok u =>
    cases hm : m.read with
    | some fault =>
      obtain ⟨result, hrun, hresult⟩ := checkPrune_run hmarker m (readHistory_fails hm)
      refine ⟨result, [], hrun, hresult.trans ?_⟩
      constructor
      · rintro ⟨history, h, -⟩
        cases h
      · rintro ⟨-, h, -⟩
        cases h
    | none =>
      obtain ⟨result, hrun, hresult⟩ := checkPrune_run hmarker m (readHistory_run hkept hm)
      refine ⟨result, [], hrun, hresult.trans ?_⟩
      have hnil : (historyAt db).live = [] ↔ SealLog.live (ledgerOf db.tables) = [] := by
        rw [← live_historyAt, List.map_eq_nil_iff]
      constructor
      · rintro ⟨history, h, hlive⟩
        cases h
        exact ⟨rfl, rfl, hnil.1 hlive⟩
      · rintro ⟨-, -, hlive⟩
        exact ⟨historyAt db, rfl, hnil.2 hlive⟩

end Runs

end Verdant.Seal
