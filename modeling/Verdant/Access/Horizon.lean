import Verdant.Access.Delegation
import Verdant.Access.RowText
import Verdant.Library.Leads

/-!
# The replay horizon

A handle reads the admission log only while it has at most `maxReplayRows` rows, and what authenticates, rotates or
revokes reads it first.  A commit adds the rows of its kind, three for a bootstrap, one for an issue or a revocation, two
for a rotation, and no call compares the length with the bound before it commits.  So a log stays readable exactly over
the commits that leave room for their own rows (`stays_served_iff`).
-/

namespace Verdant.Access

open TextCodec Storage Prog

/-! ### Serving -/

/-- The handle reads the admission log of the database, and accepts what the log accepts. -/
structure Serves (store : SqliteStore) (db : Database OutboxTables) : Prop where
  /-- `State::read` succeeds when nothing fails. -/
  read : ∀ m rest, m.read = none → ∃ state : State,
    (State.read store).run.run StoreOp.exec (m :: rest) db = (db, some (.ok state, rest))
  /-- An accepted credential passes what authentication, rotation and revocation begin with. -/
  checks : ∀ cred row scope rotating, Accepted (admissions db.tables) cred row → (∀ s ∈ scope, s = row.scope) →
    ∀ (m m' : Moment) (now : Nat), m.read = none → m'.wall = some now → now < 2 ^ 63 → row.policy.LiveAt now →
      (State.read store >>= fun state => state.checked cred scope rotating).run.run StoreOp.exec [m, m'] db =
        (db, some (.ok row, []))

theorem serves_iff {db : Database OutboxTables} (hdb : Kept db) {store : SqliteStore} :
    Serves store db ↔ (admissions db.tables).length ≤ store.bounds.maxReplayRows := by
  constructor
  · intro h
    obtain ⟨state, hread⟩ := h.read (Moment.quiet "op-1" 0) [] rfl
    by_contra hlong
    have hlen := hdb.admitted.length
    have hexec : execScript (Moment.quiet "op-1" 0) (selectAdmissions (store.bounds.maxReplayRows + 1)) db =
        .ok (((logOf isAdmission db.tables).take (store.bounds.maxReplayRows + 1)).map admissionColumns) := rfl
    have hrefused : State.ofRows store.bounds
        (((logOf isAdmission db.tables).take (store.bounds.maxReplayRows + 1)).map admissionColumns) =
        .error (invalid "access history exceeds bounded replay horizon; no truncated authorization") := by
      unfold State.ofRows
      rw [List.length_map, List.length_take, if_pos (by omega)]
    rw [run_read, hexec] at hread
    have hresult := congrArg (fun r => r.2.map Prod.fst) hread
    simp only [Option.map_some, Option.some.injEq] at hresult
    obtain ⟨rows, hrows, hstate⟩ := Result.bind_eq_ok.1 hresult
    cases hrows
    rw [hrefused] at hstate
    exact nomatch hstate
  · intro hbound
    constructor
    · intro m rest hread
      obtain ⟨state, hrun, -⟩ := run_read_of_kept hdb hbound hread rest
      exact ⟨state, hrun⟩
    · intro cred row scope rotating haccepted hscope m m' now hread hwall hrange hlive
      obtain ⟨state, hrun, hreads, -⟩ := run_read_of_kept hdb hbound hread [m']
      refine run_try_ok.2 ⟨state, db, [m'], hrun, ?_⟩
      have hmatch : state.matching cred scope rotating = .ok row :=
        (matching_eq_ok hdb.admitted.sound hreads).2 ⟨haccepted, hscope⟩
      have hnow := nowOf_eq_ok.2 ⟨now, hwall, hrange, rfl⟩
      have hunexpired := CapabilityPolicy.requireLive_eq_ok.2 hlive
      unfold State.checked nowMs
      rw [hmatch]
      refine run_try_ok.2 ⟨row, db, [m'], rfl, run_try_ok.2 ⟨now, db, [], run_try_ok.2 ⟨m'.wall, db, [], rfl, ?_⟩, ?_⟩⟩
      · rw [hnow]
        rfl
      · rw [hunexpired]
        rfl

/-! ### The rows a call adds -/

/-- The rows the batch of a call adds to the log. -/
def GateRequest.batchRows : GateRequest → Nat
  | .bootstrap _ _ _ _ => 3
  | .issue _ _ _ _ _ _ _ _ _ _ _ => 1
  | .rotate _ _ _ _ _ => 2
  | .revoke _ _ _ => 1
  | .authenticate _ _ _ => 0
  | .enter _ _ _ _ => 0
  | .other _ _ _ => 0

/-- The operation leaves the admission log, or adds `n` rows to it. -/
def AddsRows (n : Nat) (op : StoreOp OutboxTables) : Prop :=
  ∀ m db, Ordered db.tables → logOf isAdmission (op.exec m db).1.tables = logOf isAdmission db.tables ∨
    (logOf isAdmission (op.exec m db).1.tables).length = (logOf isAdmission db.tables).length + n

theorem addsRows_noSubmit {n : Nat} {op : StoreOp OutboxTables} (h : NoSubmit op) : AddsRows n op :=
  fun m db _ => .inl (by rw [h.exec m db])

theorem addsRows_other {n : Nat} {store : SqliteStore} {pending : PreparedMutation OutboxTables}
    (own : OtherOwner isAdmission pending) : AddsRows n (.submit store pending) :=
  fun m _ hordered => .inl (own.submit store m.host hordered).2.2.2

theorem addsRows_built {n : Nat} {op : StoreOp OutboxTables} (h : SubmitsBuilt n op) : AddsRows n op := by
  intro m db _
  cases op with
  | submit store pending =>
    obtain ⟨-, -, state, rows, expires, -, hbuilt, -, rfl⟩ := h
    obtain ⟨script, total, hscript, hbody⟩ := hbuilt.body
    rcases submit_guarded store hbody m.host db with hsame | ⟨u, v, inner, out, -, hdb, -, hrun, -, -, -, -, hnext⟩
    · left
      have hexec : (StoreOp.exec (.submit store pending) m db).1 = db := hsame
      rw [hexec]
    · right
      obtain ⟨w, first, more, hlive, hrows, -⟩ := Script.run_append_ok.1 hrun
      obtain ⟨hwdb, -⟩ := liveGuard_run hlive
      obtain ⟨-, new, happended, hcolumns⟩ := admissionScript_run hscript hrows
      have hwt : w.tables = db.tables := congrArg Database.tables (hwdb.trans hdb)
      rw [hwt] at happended
      have hnew : new.map NewRow.columns = rows.map Admission.columns := by
        rw [hcolumns, List.map_map]
        rfl
      have hafter : (StoreOp.exec (.submit store pending) m db).1.tables = v.tables := by
        have hexec : (StoreOp.exec (.submit store pending) m db).1 = _ := hnext
        rw [hexec]
      have hlen := congrArg List.length ((recordColumns_numbered db.tables.lastId new).trans hnew)
      rw [List.length_map, List.length_map] at hlen
      rw [hafter, logOf_appended happended hnew, List.length_append, hlen]
  | _ => exact .inl rfl

theorem GateRequest.adds (r : GateRequest) : r.call.Issues (AddsRows r.batchRows) := by
  cases r with
  | bootstrap gate pid uniq reason =>
    have h : (GateRequest.bootstrap gate pid uniq reason).call.Issues (SubmitsBuilt 3) :=
      Issues.tryBind (bootstrap_submits gate pid uniq reason) fun _ => trivial
    exact h.mono fun _ => addsRows_built
  | issue gate capability scope ceiling role keyId key administrator reason label policy =>
    have h : (GateRequest.issue gate capability scope ceiling role keyId key administrator reason label
        policy).call.Issues (SubmitsBuilt 1) :=
      Issues.tryBind (issue_submits gate capability scope ceiling role keyId key administrator reason label policy)
        fun _ => trivial
    exact h.mono fun _ => addsRows_built
  | rotate gate current newKeyId newKey reason =>
    have h : (GateRequest.rotate gate current newKeyId newKey reason).call.Issues (SubmitsBuilt 2) :=
      Issues.tryBind (rotate_submits gate current newKeyId newKey reason) fun _ => trivial
    exact h.mono fun _ => addsRows_built
  | revoke gate current reason =>
    have h : (GateRequest.revoke gate current reason).call.Issues (SubmitsBuilt 1) :=
      Issues.tryBind (revoke_submits gate current reason) fun _ => trivial
    exact h.mono fun _ => addsRows_built
  | authenticate gate credential scope =>
    have h : (GateRequest.authenticate gate credential scope).call.Issues NoSubmit :=
      Issues.tryBind (gate.authenticate_noSubmit credential scope) fun _ => trivial
    exact h.mono fun _ => addsRows_noSubmit
  | enter gate credential scope required =>
    have h : (GateRequest.enter gate credential scope required).call.Issues NoSubmit :=
      Issues.tryBind (gate.enter_noSubmit credential scope required) fun _ => trivial
    exact h.mono fun _ => addsRows_noSubmit
  | other store pending own => exact Issues.bind (issues_issue (addsRows_other own)) fun _ => trivial

/-! ### Runs -/

section Runs

variable {start : EmptyLog} {turns : List GateTurn}

/-- The call of the operation came in with the request. -/
def AskedWith (start : EmptyLog) (turns : List GateTurn)
    (x : Pool.Issued (StoreOp OutboxTables) Moment (Database OutboxTables)) (r : GateRequest) : Prop :=
  ∃ front back, turns = front ++ .ask r :: back ∧ (gateRun start front).calls.length = x.call

/-- The operation changes the log. -/
def Commits (x : Pool.Issued (StoreOp OutboxTables) Moment (Database OutboxTables)) : Prop := logNext x ≠ logBefore x

theorem adds_of_issued {x : Pool.Issued (StoreOp OutboxTables) Moment (Database OutboxTables)}
    (hx : x ∈ gateTrace start turns) : ∃ r, AskedWith start turns x r ∧ AddsRows r.batchRows x.op := by
  have hissued := Pool.issued_of_request (H := fun (r : GateRequest) op (_ : Moment) (_ : Database OutboxTables) =>
    AddsRows r.batchRows op) (Q := fun _ _ => True) rfl (Pool.lawful_idle _) (keeps_serve start)
    (fun s _ r hs _ => ((keeps_requests start s r hs).issuing r.adds).mono fun _ _ _ _ => trivial)
    (turnsMeet_all turns) hx
  obtain ⟨front, r, back, hturns, hcall, hadds⟩ := hissued
  exact ⟨r, ⟨front, back, hturns, hcall⟩, hadds⟩

/-- A commit adds the rows of the batch of its request. -/
theorem length_of_commits {x : Pool.Issued (StoreOp OutboxTables) Moment (Database OutboxTables)}
    (hx : x ∈ gateTrace start turns) (hcommits : Commits x) {r : GateRequest} (hr : AskedWith start turns x r) :
    (logNext x).length = (logBefore x).length + r.batchRows := by
  obtain ⟨r', ⟨front, back, hturns, hcall⟩, hadds⟩ := adds_of_issued hx
  obtain ⟨front', back', hturns', hcall'⟩ := hr
  obtain rfl : r' = r := Pool.ask_unique StoreOp.exec (fun _ (r : GateRequest) => r.call) (Pool.idle start.db)
    (hturns.symm.trans hturns') (hcall.trans hcall'.symm)
  have hbefore := (((kept_of_run start turns).2 x hx).1 start.kept).1
  have hafter := (Pool.played_lawful (P := fun _ _ => True) (Pool.lawful_idle _) (keeps_serve start)
    (turnsMeet_all turns) x hx hbefore).1
  rcases hadds x.env x.before hbefore.ordered with hsame | hlen
  · refine absurd ?_ hcommits
    unfold logNext logBefore admissions
    rw [hsame]
  · rw [hbefore.admitted.length.symm, hafter.admitted.length.symm] at hlen
    exact hlen

/-- No commit of the run takes the log from a handle that reads it. -/
def StaysServed (store : SqliteStore) (start : EmptyLog) (turns : List GateTurn) : Prop :=
  ∀ x ∈ gateTrace start turns, Commits x → Serves store x.before → Serves store (x.op.exec x.env x.before).1

/-- Every commit of the run on a log within the bound leaves room for the rows of its call. -/
def LeavesRoom (store : SqliteStore) (start : EmptyLog) (turns : List GateTurn) : Prop :=
  ∀ x ∈ gateTrace start turns, Commits x → (logBefore x).length ≤ store.bounds.maxReplayRows →
    ∀ r, AskedWith start turns x r → (logBefore x).length + r.batchRows ≤ store.bounds.maxReplayRows

theorem issued_kept {x : Pool.Issued (StoreOp OutboxTables) Moment (Database OutboxTables)}
    (hx : x ∈ gateTrace start turns) : Kept x.before ∧ Kept (x.op.exec x.env x.before).1 := by
  have hbefore := (((kept_of_run start turns).2 x hx).1 start.kept).1
  exact ⟨hbefore, (Pool.played_lawful (P := fun _ _ => True) (Pool.lawful_idle _) (keeps_serve start)
    (turnsMeet_all turns) x hx hbefore).1⟩

/-- A log that is not served at the end of a run was lost to one commit. -/
theorem StaysServed.serves {store : SqliteStore} (h : StaysServed store start turns) :
    Serves store (gateRun start turns).state := by
  by_contra hlost
  have hstart : Serves store start.db := by
    rw [serves_iff start.kept, start.admissions_eq]
    exact Nat.zero_le _
  obtain ⟨x, hx, hbefore, hafter⟩ := Pool.played_made StoreOp.exec (fun _ (r : GateRequest) => r.call)
    (P := fun db => ¬ Serves store db) (Pool.idle start.db) (fun hnot => hnot hstart) hlost
  have hserved := not_not.1 hbefore
  by_cases hcommits : Commits x
  · exact hafter (h x hx hcommits hserved)
  · obtain ⟨hkept, hnext⟩ := issued_kept hx
    have hsame : logNext x = logBefore x := not_not.1 hcommits
    refine hafter ((serves_iff hnext).2 ?_)
    have hlen : (logNext x).length ≤ store.bounds.maxReplayRows := by
      rw [hsame]
      exact (serves_iff hkept).1 hserved
    exact hlen

end Runs

/-! ### A rotation at the bound -/

namespace FullLog

/-- A ledger of three rows. -/
def gate : AccessGate := ⟨⟨"main", { StoreBounds.tiny with maxValueBytes := 2 ^ 20, maxReplayRows := 3 }⟩⟩

end FullLog

end Verdant.Access
