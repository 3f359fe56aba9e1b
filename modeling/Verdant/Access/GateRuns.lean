import Verdant.Access.GateLaw

/-!
# The capability ledger

Every run of gates and other owners on one database that starts without an admission row: one bootstrap commits, the log
stays sound, reads within the bound are not refused, and a credential that is revoked or superseded when a call comes in
is refused by that call.
-/

namespace Verdant.Access

open TextCodec Storage Prog

/-! ### Requests -/

inductive GateAnswer where
  | bootstrapped (credentials : BootstrapCredentials)
  | issued (credential : Credential)
  | revoked
  | actor (actor : ActorContext)
  | entered (report : EnterReport)
  | other (outcome : MutationOutcome)

/-- One call on the database: of a gate handle, or another owner's submit. -/
inductive GateRequest where
  | bootstrap (gate : AccessGate) (pid uniq : Nat) (reason : Reason)
  | issue (gate : AccessGate) (capability : CapabilityName) (scope : TrustedScope) (ceiling : UInt8) (role : RoleKind)
      (keyId : KeyId) (key : SyntheticKey) (administrator : Credential) (reason : Reason) (label : DisplayLabel)
      (policy : CapabilityPolicy)
  | rotate (gate : AccessGate) (current : Credential) (newKeyId : KeyId) (newKey : SyntheticKey) (reason : Reason)
  | revoke (gate : AccessGate) (current : Credential) (reason : Reason)
  | authenticate (gate : AccessGate) (credential : Option Credential) (scope : TrustedScope)
  | enter (gate : AccessGate) (credential : Option Credential) (scope : TrustedScope) (required : RoleKind)
  | other (store : SqliteStore) (pending : PreparedMutation OutboxTables) (own : OtherOwner isAdmission pending)

namespace GateRequest

/-- The credential a request presents. -/
def presented : GateRequest → Option Credential
  | .bootstrap _ _ _ _ => none
  | .issue _ _ _ _ _ _ _ administrator _ _ _ => some administrator
  | .rotate _ current _ _ _ => some current
  | .revoke _ current _ => some current
  | .authenticate _ credential _ => credential
  | .enter _ credential _ _ => credential
  | .other _ _ _ => none

def call : GateRequest → Call OutboxTables (Except AccessError GateAnswer)
  | .bootstrap gate pid uniq reason => (do return .bootstrapped (← gate.bootstrap pid uniq reason) : AccessCall _).run
  | .issue gate capability scope ceiling role keyId key administrator reason label policy =>
    (do return .issued (← gate.issueWithPolicy capability scope ceiling role keyId key administrator reason label
      policy) : AccessCall _).run
  | .rotate gate current newKeyId newKey reason =>
    (do return .issued (← gate.rotate current newKeyId newKey reason) : AccessCall _).run
  | .revoke gate current reason => (do
      gate.revoke current reason
      return .revoked : AccessCall _).run
  | .authenticate gate credential scope => (do return .actor (← gate.authenticate credential scope) : AccessCall _).run
  | .enter gate credential scope required =>
    (do return .entered (← gate.enter credential scope required) : AccessCall _).run
  | .other store pending _ => do return .ok (.other (← Call.submit store pending))

/-- The answer is an error, unless the call read a log that accepts the presented credential. -/
def Answered (r : GateRequest) (s : Database OutboxTables) : Database OutboxTables → Except AccessError GateAnswer → Prop :=
  Whenever fun _ _ => ∀ cred ∈ r.presented, Authorized s cred

theorem keeps_other {E : Moment → Prop} {s : Database OutboxTables} {who : Option Credential} (store : SqliteStore)
    {pending : PreparedMutation OutboxTables} (own : OtherOwner isAdmission pending) (hs : Kept s) :
    Keeps StoreOp.exec accessLaw E (Settled who) (fun _ _ => True) s (Call.submit store pending) := by
  refine keeps_issue fun t hst m _ => ?_
  have ht := (hst hs).1
  obtain ⟨hordered, hgrows, -, hlog⟩ := own.submit store m.host ht.ordered
  have hsame : admissions (StoreOp.exec (.submit store pending) m t).1.tables = admissions t.tables :=
    congrArg (List.filterMap admissionOf) hlog
  refine ⟨.inl hsame, fun _ => ⟨⟨hordered, ⟨?_, ?_⟩⟩, hgrows⟩, fun _ _ => trivial⟩
  · rw [hsame]
    refine Eq.trans ?_ ht.admitted.written
    exact congrArg (List.map recordColumns) hlog
  · rw [hsame]
    exact ht.admitted.reachable

theorem keeps_call {E : Moment → Prop} {s : Database OutboxTables} (r : GateRequest) (hs : Kept s) :
    Keeps StoreOp.exec accessLaw E (Settled r.presented) (r.Answered s) s r.call := by
  cases r with
  | bootstrap gate pid uniq reason =>
    refine Keeps.tryBind (keeps_bootstrap gate pid uniq reason hs) fun _ _ _ _ => keeps_done fun _ _ => ?_
    exact fun cred h => nomatch h
  | issue gate capability scope ceiling role keyId key administrator reason label policy =>
    refine Keeps.tryBind (keeps_issueWithPolicy gate capability scope ceiling role keyId key administrator reason label
      policy hs) fun t _ _ h => keeps_done fun _ _ => ?_
    rintro cred ⟨⟩
    exact h t (accessLaw.refl t)
  | rotate gate current newKeyId newKey reason =>
    refine Keeps.tryBind (keeps_rotate gate current newKeyId newKey reason hs) fun t _ _ h => keeps_done fun _ _ => ?_
    rintro cred ⟨⟩
    exact h t (accessLaw.refl t)
  | revoke gate current reason =>
    refine Keeps.tryBind (keeps_revoke gate current reason hs) fun t _ _ h => keeps_done fun _ _ => ?_
    rintro cred ⟨⟩
    exact h t (accessLaw.refl t)
  | authenticate gate credential scope =>
    refine Keeps.tryBind (keeps_authenticate gate credential scope hs) fun t _ _ h => keeps_done fun _ _ => ?_
    obtain ⟨cred, hcred, hauthorized⟩ := h t (accessLaw.refl t)
    intro cred' hcred'
    obtain rfl := Option.mem_unique hcred hcred'
    exact hauthorized
  | enter gate credential scope required =>
    refine Keeps.tryBind (keeps_enter gate credential scope required hs) fun t _ _ h => keeps_done fun _ _ => ?_
    obtain ⟨cred, hcred, hauthorized⟩ := h t (accessLaw.refl t)
    intro cred' hcred'
    obtain rfl := Option.mem_unique hcred hcred'
    exact hauthorized
  | other store pending own =>
    refine Keeps.bind (keeps_other store own hs) fun _ _ _ _ => keeps_done fun _ _ => ?_
    exact fun cred h => nomatch h

end GateRequest

/-! ### Runs -/

abbrev GateTurn := Turn GateRequest Moment

/-- A database without an admission row. -/
structure EmptyLog where
  db : Database OutboxTables
  ordered : Ordered db.tables
  empty : logOf isAdmission db.tables = []

def EmptyLog.fresh : EmptyLog where
  db := ⟨OutboxTables.empty, []⟩
  ordered := ordered_empty
  empty := rfl

theorem EmptyLog.admissions_eq (start : EmptyLog) : admissions start.db.tables = [] := by
  unfold admissions
  rw [start.empty]
  rfl

theorem EmptyLog.kept (start : EmptyLog) : Kept start.db where
  ordered := start.ordered
  admitted := by
    refine ⟨?_, ?_⟩
    · rw [start.admissions_eq, start.empty]
      rfl
    · rw [start.admissions_eq]
      exact .empty

def gateRun (start : EmptyLog) (turns : List GateTurn) :
    Pool (StoreOp.Answer (ρ := OutboxTables)) (Database OutboxTables) (Except AccessError GateAnswer) :=
  (Pool.idle start.db).played StoreOp.exec (fun _ r => r.call) turns

def gateTrace (start : EmptyLog) (turns : List GateTurn) :
    List (Pool.Issued (StoreOp OutboxTables) Moment (Database OutboxTables)) :=
  Pool.issuedBy StoreOp.exec (fun _ (r : GateRequest) => r.call)
    (Pool.idle start.db : Pool (StoreOp.Answer (ρ := OutboxTables)) _ _) turns

/-- The admission log after the turns. -/
def logAfter (start : EmptyLog) (turns : List GateTurn) : List Admission :=
  admissions (gateRun start turns).state.tables

/-- The log before and after an operation. -/
def logBefore (x : Pool.Issued (StoreOp OutboxTables) Moment (Database OutboxTables)) : List Admission :=
  admissions x.before.tables

def logNext (x : Pool.Issued (StoreOp OutboxTables) Moment (Database OutboxTables)) : List Admission :=
  admissions (x.op.exec x.env x.before).1.tables

section Laws

variable (start : EmptyLog)

theorem keeps_requests (s : Database OutboxTables) (r : GateRequest) (hs : accessLaw.rel start.db s) :
    Keeps StoreOp.exec accessLaw (fun _ => True) (Settled r.presented) (r.Answered s) s r.call :=
  r.keeps_call (hs start.kept).1

/-- Every gate call keeps the law, whatever it presents. -/
theorem keeps_serve (s : Database OutboxTables) (answers : List (Option (Except AccessError GateAnswer)))
    (r : GateRequest) (hs : accessLaw.rel start.db s) (_ : ∀ a, some a ∈ answers → True) :
    Keeps StoreOp.exec accessLaw (fun _ => True) (fun op m db => ∃ who, Settled who op m db) (fun _ _ => True) s
      ((fun _ r => r.call) answers r) :=
  ((keeps_requests start s r hs).weaken fun _ _ _ h => ⟨_, h⟩).mono fun _ _ _ _ => trivial

variable {start}

theorem turnsMeet_all (turns : List GateTurn) : Pool.TurnsMeet (fun _ => True) (fun _ => True) turns :=
  fun _ _ _ _ => trivial

/-- Every operation was issued for a request, and settled what its credential allows. -/
theorem settled_of_issued {turns : List GateTurn}
    {x : Pool.Issued (StoreOp OutboxTables) Moment (Database OutboxTables)} (hx : x ∈ gateTrace start turns) :
    ∃ front r back, turns = front ++ .ask r :: back ∧ (gateRun start front).calls.length = x.call ∧
      Settled r.presented x.op x.env x.before :=
  Pool.issued_of_request (H := fun (r : GateRequest) => Settled r.presented) (Q := fun _ _ => True) rfl (Pool.lawful_idle _)
    (keeps_serve start) (fun s _ r hs _ => (keeps_requests start s r hs).mono fun _ _ _ _ => trivial)
    (turnsMeet_all turns) hx

theorem kept_of_run (start : EmptyLog) (turns : List GateTurn) :
    accessLaw.rel start.db (gateRun start turns).state ∧
      ∀ x ∈ gateTrace start turns, accessLaw.rel start.db x.before ∧
        accessLaw.rel (x.op.exec x.env x.before).1 (gateRun start turns).state := by
  obtain ⟨hrel, -, htrace⟩ := Pool.keeps_played (P := fun _ _ => True) (Pool.lawful_idle _) (keeps_serve start)
    (turnsMeet_all turns)
  exact ⟨hrel, fun x hx => (htrace x hx).2⟩

theorem kept_after (start : EmptyLog) (turns : List GateTurn) : Kept (gateRun start turns).state :=
  ((kept_of_run start turns).1 start.kept).1

end Laws

/-! ### The ledger -/

/-- The operation commits a bootstrap. -/
def Bootstraps (x : Pool.Issued (StoreOp OutboxTables) Moment (Database OutboxTables)) : Prop :=
  bootstrapsOf (logBefore x) = [] ∧ bootstrapsOf (logNext x) ≠ []

/-- The credential names an issued key that is revoked, or behind a newer generation. -/
def Dead (log : List Admission) (cred : Credential) : Prop :=
  ∃ row ∈ chain cred.capability log, row.keyId = cred.keyId ∧
    (Revoked log row ∨ ∃ newer ∈ chain cred.capability log, row.capgen < newer.capgen)

theorem Dead.grows {log next : List Admission} {cred : Credential} (h : Dead log cred) (hgrows : log <+: next) :
    Dead next cred := by
  obtain ⟨rows, rfl⟩ := hgrows
  obtain ⟨row, hrow, hkey, hdead⟩ := h
  have hmem : ∀ r ∈ chain cred.capability log, r ∈ chain cred.capability (log ++ rows) := by
    intro r hr
    rw [chain_append]
    exact List.mem_append_left _ hr
  refine ⟨row, hmem row hrow, hkey, ?_⟩
  rcases hdead with hrevoked | ⟨newer, hnewer, hlt⟩
  · exact .inl (hrevoked.append rows)
  · exact .inr ⟨newer, hmem newer hnewer, hlt⟩

theorem Dead.not_accepted {log : List Admission} (hlog : Sound log) {cred : Credential} (h : Dead log cred)
    {row : IssueRow} : ¬ Accepted log cred row := by
  intro haccepted
  obtain ⟨dead, hdead, hkey, hwhy⟩ := h
  obtain ⟨hissued, hcap⟩ := mem_chain.1 hdead
  obtain rfl := hlog.row_unique hissued haccepted.issued (hcap.trans haccepted.cap.symm)
    (hkey.trans haccepted.key.symm)
  rcases hwhy with hrevoked | ⟨newer, hnewer, hlt⟩
  · exact haccepted.unrevoked hrevoked
  · obtain ⟨hnewIssued, hnewCap⟩ := mem_chain.1 hnewer
    have hle := haccepted.newest newer hnewIssued (hnewCap.trans haccepted.cap.symm)
    exact absurd hlt (UInt32.not_lt.2 hle)

/-- One read of the state alone. -/
theorem run_read (store : SqliteStore) (m : Moment) (rest : List Moment) (db : Database OutboxTables) :
    (State.read store).run.run StoreOp.exec (m :: rest) db =
      (db, some (((execScript m (selectAdmissions (store.bounds.maxReplayRows + 1)) db).mapError AccessError.store >>=
        State.ofRows store.bounds), rest)) := by
  have hanswer : (mapErr AccessError.store (attempt (Call.read (selectAdmissions (store.bounds.maxReplayRows + 1))))).run.run
      StoreOp.exec (m :: rest) db =
      (db, some ((execScript m (selectAdmissions (store.bounds.maxReplayRows + 1)) db).mapError AccessError.store,
        rest)) := rfl
  unfold State.read
  rw [run_try_bind, hanswer]
  cases execScript m (selectAdmissions (store.bounds.maxReplayRows + 1)) db with
  | error e => rfl
  | ok rows => rfl

/-- A read within the bound is not refused. -/
theorem run_read_of_kept {db : Database OutboxTables} (hdb : Kept db) {store : SqliteStore}
    (hbound : (admissions db.tables).length ≤ store.bounds.maxReplayRows) {m : Moment} (hread : m.read = none)
    (rest : List Moment) :
    ∃ state : State, (State.read store).run.run StoreOp.exec (m :: rest) db = (db, some (.ok state, rest)) ∧
      state.Reads (admissions db.tables) ∧ state.guard.holds db.tables = true := by
  have hlen := hdb.admitted.length
  have hbound' : (logOf isAdmission db.tables).length ≤ store.bounds.maxReplayRows := by omega
  obtain ⟨state, hstate, hreads, hholds, -⟩ := ofRows_columns hdb.ordered hdb.admitted hbound'
  refine ⟨state, ?_, hreads, hholds⟩
  have hexec : execScript m (selectAdmissions (store.bounds.maxReplayRows + 1)) db =
      .ok ((logOf isAdmission db.tables).map admissionColumns) := by
    unfold execScript selectAdmissions selectLog
    rw [hread]
    simp only
    rw [List.take_of_length_le (by omega)]
  rw [run_read, hexec]
  exact congrArg (fun r => (db, some (r, rest))) hstate

/-- The gate of a log with rows tells the reason of its bootstrap. -/
theorem run_bootstrapReason {db : Database OutboxTables} (hdb : Kept db) {gate : AccessGate}
    (hbound : (admissions db.tables).length ≤ gate.store.bounds.maxReplayRows) {marker : BootstrapRow}
    (hmarker : bootstrapsOf (admissions db.tables) = [marker]) {m : Moment} (hread : m.read = none) (rest : List Moment) :
    gate.bootstrapReason.run.run StoreOp.exec (m :: rest) db = (db, some (.ok marker.reason, rest)) := by
  obtain ⟨state, hrun, hreads, -⟩ := run_read_of_kept hdb hbound hread rest
  have hmarkers : state.bootstraps = [marker] := hreads.bootstraps.trans hmarker
  have hrows : Bootstrapped (admissions db.tables) := by
    refine hdb.admitted.sound.bootstrapped.resolve_left fun hempty => ?_
    rw [hempty] at hmarker
    exact nomatch hmarker
  have hcount : state.count ≠ 0 := by
    rw [hreads.count]
    intro hzero
    rw [List.length_eq_zero_iff.1 hzero] at hmarker
    exact nomatch hmarker
  have hrequired : state.requireBootstrapped = .ok () := by
    obtain ⟨marker', hmarker', huser, hissuer⟩ := hrows.marker
    obtain rfl : marker = marker' := List.head_eq_of_cons_eq (hmarker.symm.trans hmarker')
    obtain ⟨review, hreview, hcap⟩ := hrows.review
    obtain ⟨publish, hpublish, hcap'⟩ := hrows.publish
    have hcaps : [reviewerCapText, publisherCapText].all
        (fun cap => state.issues.any fun row => decide (row.cap.text = cap)) = true := by
      simp only [List.all_cons, List.all_nil, Bool.and_true, Bool.and_eq_true, List.any_eq_true, decide_eq_true_eq,
        hreads.issues]
      exact ⟨⟨review, hreview, congrArg CapabilityName.text hcap⟩, publish, hpublish, congrArg CapabilityName.text hcap'⟩
    unfold State.requireBootstrapped
    rw [if_neg hcount, hmarkers]
    refine if_neg ?_
    rintro (hbad | hbad | hbad)
    · exact hbad (congrArg UserId.text huser)
    · exact hbad (congrArg IssuerId.text hissuer)
    · exact hbad hcaps
  unfold AccessGate.bootstrapReason
  refine run_try_ok.2 ⟨state, db, rest, hrun, ?_⟩
  rw [hrequired, check_bind_ok, hmarkers]
  rfl

/-- One check of a credential alone: the clock is read only for one that passes. -/
theorem run_checked (state : State) (cred : Credential) (scope : Option TrustedScope) (rotating : Bool) (m : Moment)
    (db : Database OutboxTables) :
    (((state.checked cred scope rotating).run.run StoreOp.exec [m] db).2.map Prod.fst) =
      some (state.matching cred scope rotating >>= fun row => nowOf m.wall >>= fun now =>
        row.policy.requireLive now >>= fun _ => .ok row) := by
  unfold State.checked
  rw [run_try_bind]
  cases state.matching cred scope rotating with
  | error e => rfl
  | ok row =>
    have hwall : nowMs.run.run StoreOp.exec [m] db = (db, some (nowOf m.wall, [])) := by
      unfold nowMs
      rw [run_try_bind]
      rfl
    have hcheck : (check (.ok row) : AccessCall IssueRow).run.run StoreOp.exec [m] db = (db, some (.ok row, [m])) := rfl
    rw [hcheck]
    simp only
    rw [run_try_bind, hwall]
    cases nowOf m.wall with
    | error e => rfl
    | ok now =>
      simp only
      rw [run_try_bind]
      cases hlive : row.policy.requireLive now with
      | error e =>
        simp only [Result.ok_bind, hlive]
        rfl
      | ok _ =>
        simp only [Result.ok_bind, hlive]
        rfl

/-- The reading a clock gives, if it is one of the supported range. -/
theorem nowOf_eq_ok {wall : Option Nat} {now : Int} :
    nowOf wall = .ok now ↔ ∃ n, wall = some n ∧ n < 2 ^ 63 ∧ now = n := by
  cases wall with
  | none => simp [nowOf]
  | some n =>
    unfold nowOf
    by_cases hlt : n < 2 ^ 63
    · simp only [if_pos hlt, Except.ok.injEq, Option.some.injEq]
      constructor
      · rintro rfl
        exact ⟨n, rfl, hlt, rfl⟩
      · rintro ⟨m, rfl, -, rfl⟩
        rfl
    · simp only [if_neg hlt, Option.some.injEq, reduceCtorEq, false_iff]
      rintro ⟨m, rfl, hm, -⟩
      exact hlt hm

/-- What every run of the gates keeps. -/
structure CapabilityLedger (start : EmptyLog) (turns : List GateTurn) : Prop where
  /-- One bootstrap commits, and nothing is committed without it. -/
  once : ∀ a x b y c, gateTrace start turns = a ++ x :: b ++ y :: c → Bootstraps x → ¬ Bootstraps y
  bootstrapped : logAfter start turns = [] ∨ Bootstrapped (logAfter start turns)
  /-- The chain of every capability: generations `1..n`, distinct keys, the same facts, all below `n` revoked. -/
  chains : ∀ cap, SoundChain (logAfter start turns) cap
  /-- A read within the bound is not refused. -/
  readable : ∀ (store : SqliteStore) (m : Moment), m.read = none →
    (logAfter start turns).length ≤ store.bounds.maxReplayRows → ∃ state : State,
      (State.read store).run.run StoreOp.exec [m] (gateRun start turns).state =
        ((gateRun start turns).state, some (.ok state, [])) ∧ state.Reads (logAfter start turns)
  /-- A credential is accepted exactly when it names the newest generation under the recorded fingerprint, in the
  issued scope, unrevoked, and the clock is before its expiry. -/
  accepts : ∀ (state : State), state.Reads (logAfter start turns) →
    ∀ (cred : Credential) (scope : Option TrustedScope) (rotating : Bool) (row : IssueRow) (m : Moment),
      ((state.checked cred scope rotating).run.run StoreOp.exec [m] (gateRun start turns).state).2.map Prod.fst =
          some (.ok row) ↔
        Accepted (logAfter start turns) cred row ∧ (∀ s ∈ scope, s = row.scope) ∧
          ∃ now, m.wall = some now ∧ now < 2 ^ 63 ∧ row.policy.LiveAt now
  /-- One key at most is accepted for a capability. -/
  one_key : ∀ cred cred' row row', Accepted (logAfter start turns) cred row →
    Accepted (logAfter start turns) cred' row' → cred.capability = cred'.capability → row = row' ∧ cred.keyId = cred'.keyId
  /-- A revoked or superseded key is refused by every call that comes in later. -/
  refused : ∀ front request back cred, turns = front ++ .ask request :: back → request.presented = some cred →
    Dead (logAfter start front) cred → ∀ answer,
      (gateRun start turns).calls[(gateRun start front).calls.length]? ≠ some (.done (.ok answer))

theorem bootstraps_once {start : EmptyLog} {turns : List GateTurn}
    {a b c : List (Pool.Issued (StoreOp OutboxTables) Moment (Database OutboxTables))}
    {x y : Pool.Issued (StoreOp OutboxTables) Moment (Database OutboxTables)}
    (h : gateTrace start turns = a ++ x :: b ++ y :: c) (hx : Bootstraps x) : ¬ Bootstraps y := by
  have hmem : x ∈ gateTrace start turns := by
    rw [h]
    simp
  obtain ⟨-, htrace⟩ := kept_of_run start turns
  have hbefore := ((htrace x hmem).1 start.kept).1
  have hnext := (Pool.played_lawful (P := fun _ _ => True) (Pool.lawful_idle _) (keeps_serve start)
    (turnsMeet_all turns) x hmem hbefore).1
  have hlater := Pool.issued_ordered (P := fun _ _ => True) (Pool.lawful_idle _) (keeps_serve start)
    (turnsMeet_all turns) h
  obtain ⟨rows, hrows⟩ := admissions_grows (hlater hnext).2
  rintro ⟨hnone, -⟩
  refine hx.2 ?_
  have hsplit : logBefore y = logNext x ++ rows := hrows.symm
  rw [hsplit, bootstrapsOf_append] at hnone
  exact (List.append_eq_nil_iff.1 hnone).1

theorem accepted_unique {log : List Admission} (hlog : Sound log) {cred cred' : Credential} {row row' : IssueRow}
    (h : Accepted log cred row) (h' : Accepted log cred' row') (hcap : cred.capability = cred'.capability) :
    row = row' ∧ cred.keyId = cred'.keyId := by
  have hsame : row.cap = row'.cap := h.cap.trans (hcap.trans h'.cap.symm)
  have hgen : row.capgen = row'.capgen :=
    UInt32.le_antisymm (h'.newest row h.issued hsame) (h.newest row' h'.issued hsame.symm)
  have hgens : ((chain row'.cap log).map fun row => row.capgen.toNat).Nodup := by
    rw [(hlog.chains row'.cap).generations]
    exact List.nodup_range'
  have heq : row = row' := List.inj_on_of_nodup_map hgens (mem_chain.2 ⟨h.issued, hsame⟩)
    (mem_chain.2 ⟨h'.issued, rfl⟩) (by rw [hgen])
  subst heq
  exact ⟨rfl, h.key.symm.trans h'.key⟩

/-- Tables with the rows of a log and nothing else. -/
def tablesOf (log : List Admission) : OutboxTables :=
  { OutboxTables.empty with
    outbox := numbered 0 (log.map fun row => admissionRow 1 row.toRecord)
    lastId := log.length }

/-- A commit into an empty log, in tables of its own. -/
theorem kept_tablesOf {now : Int} {log : List Admission} {who : Option Credential} (h : Commit now [] who log)
    (hroom : log.length < 2 ^ 63) : Kept ⟨tablesOf log, []⟩ ∧ admissions (tablesOf log) = log := by
  have happended : Appended OutboxTables.empty (tablesOf log) (log.map fun row => admissionRow 1 row.toRecord) := by
    refine ⟨rfl, ?_, fun _ => hroom⟩
    rw [List.length_map]
    exact (Nat.zero_add _).symm
  have hcolumns : (log.map fun row => admissionRow 1 row.toRecord).map NewRow.columns = log.map Admission.columns := by
    rw [List.map_map]
    rfl
  obtain ⟨hlog, hadmitted⟩ := appended_commit happended admitted_empty hcolumns h
  exact ⟨⟨happended.ordered ordered_empty, hadmitted⟩, hlog⟩

/-- None of the rows is another owner's. -/
theorem logOf_tablesOf {mine : OutboxRecord → Bool} (log : List Admission)
    (h : ∀ r : OutboxRecord, r.operation ∈ [opBootstrapText, opIssueText, opRevokeText] → mine r = false) :
    logOf mine (tablesOf log) = [] := by
  unfold logOf history tablesOf
  rw [requeue_numbered, List.filter_eq_nil_iff]
  intro r hr
  obtain ⟨-, -, row, hrow, hrecord⟩ := mem_numbered hr
  obtain ⟨admission, -, rfl⟩ := List.mem_map.1 hrow
  have hoperation : r.operation = admission.operation := by
    rw [hrecord]
    rfl
  have hknown : r.operation ∈ [opBootstrapText, opIssueText, opRevokeText] := by
    rw [hoperation]
    cases admission <;> simp [Admission.operation]
  rw [h r hknown]
  exact Bool.false_ne_true

/-- The capability ledger of every run of the gates. -/
theorem capability_ledger (start : EmptyLog) (turns : List GateTurn) : CapabilityLedger start turns := by
  have hkept := kept_after start turns
  have hsound := hkept.admitted.sound
  constructor
  · exact fun a x b y c h hx => bootstraps_once h hx
  · exact hsound.bootstrapped
  · exact hsound.chains
  · intro store m hread hbound
    obtain ⟨state, hrun, hreads, -⟩ := run_read_of_kept hkept hbound hread []
    exact ⟨state, hrun, hreads⟩
  · intro state hstate cred scope rotating row m
    rw [run_checked, Option.some.injEq, Result.bind_eq_ok]
    constructor
    · rintro ⟨found, hfound, h⟩
      obtain ⟨now, hnow, h⟩ := Result.bind_eq_ok.1 h
      obtain ⟨_, hlive, h⟩ := Result.bind_eq_ok.1 h
      cases h
      obtain ⟨haccepted, hscope⟩ := (matching_eq_ok hsound hstate).1 hfound
      obtain ⟨n, hwall, hlt, rfl⟩ := nowOf_eq_ok.1 hnow
      exact ⟨haccepted, hscope, n, hwall, hlt, CapabilityPolicy.requireLive_eq_ok.1 hlive⟩
    · rintro ⟨haccepted, hscope, n, hwall, hlt, hlive⟩
      refine ⟨row, (matching_eq_ok hsound hstate).2 ⟨haccepted, hscope⟩, ?_⟩
      rw [nowOf_eq_ok.2 ⟨n, hwall, hlt, rfl⟩, Result.ok_bind, CapabilityPolicy.requireLive_eq_ok.2 hlive,
        Result.ok_bind]
  · exact fun cred cred' row row' h h' hcap => accepted_unique hsound h h' hcap
  · intro front request back cred hturns hpresented hdead answer hended
    subst hturns
    have hfront := (kept_of_run start front).1
    have hanswered := Pool.answer_of_ask (R := request.Answered (gateRun start front).state) (P := fun _ _ => True)
      (Pool.lawful_idle _) (keeps_serve start) (turnsMeet_all (front ++ .ask request :: back))
      (fun _ _ _ _ => trivial) (keeps_requests start (gateRun start front).state request hfront) hended
    obtain ⟨t, row, hrel, haccepted⟩ := hanswered cred hpresented
    have hnow := (hfront start.kept).1
    obtain ⟨ht, hgrows⟩ := hrel hnow
    exact (hdead.grows (admissions_grows hgrows)).not_accepted ht.admitted.sound haccepted

end Verdant.Access
