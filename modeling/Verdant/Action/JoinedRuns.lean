import Verdant.Action.JoinedAuthorize

/-!
# Sequential runs of the joined calls

A session is one joined call through one handle of the store: it answers, or it crashes where its moments end.  A write
is granted at most once for an operation (`send_permits`): the mark before it takes the operation out of `admitted`,
no later session brings it back, and an authorizer only grants what it finds admitted.
-/

namespace Verdant.Action

open Storage Prog

/-- One call of the joined path with its arguments. -/
inductive JoinedRequest where
  | admission (request : AdmissionRequest)
  | transfer (holds : ScopeHolds) (exclusion : Option OldWriterExclusion) (old : Admitted) (request : TransferRequest)
  | setpoint (reads : AcceptReads) (holds : ScopeHolds) (admitted : Admitted) (handoff : Handoff)
  | release (reads : AcceptReads) (holds : ScopeHolds) (admitted : Admitted) (handoff : Handoff)
  | confirmed (admitted : Admitted) (outcome : Outcome)
  | unresolved (admitted : Admitted)

/-- What a call returns: a durable row, or a write for an operation. -/
inductive JoinedAnswer where
  | row (admitted : Admitted)
  | write (operation : OperationId) (write : FrozenWrite)

def JoinedRequest.call (store : SqliteStore) : JoinedRequest → JoinedCall JoinedAnswer
  | .admission request => do return .row (← admitJoined store request)
  | .transfer holds exclusion old request => do
    return .row (← transferNarrowViaNewAdmission store holds exclusion old request)
  | .setpoint reads holds admitted handoff => do
    return .write admitted.operation (← authorizeJoinedSetpoint store reads holds admitted handoff)
  | .release reads holds admitted handoff => do
    return .write admitted.operation (← authorizeJoinedRelease store reads holds admitted handoff)
  | .confirmed admitted outcome => do return .row (← recordConfirmedTerminal store admitted outcome)
  | .unresolved admitted => do return .row (← recordUnknownUnresolved store admitted)

/-- One call through a handle with these bounds, at these moments. -/
structure JoinedSession where
  bounds : StoreBounds
  request : JoinedRequest
  moments : List Moment

section Sessions

variable (identity : String)

/-- The store after a session and what its call returned; nothing when the moments end first. -/
def JoinedSession.serve (session : JoinedSession) (db : Database JournalTables) :
    Database JournalTables × Option (Except CustodyError JoinedAnswer) :=
  let ended := (session.request.call ⟨identity, session.bounds⟩).run.run StoreOp.exec session.moments db
  (ended.1, ended.2.map Prod.fst)

def serveAll (db : Database JournalTables) (sessions : List JoinedSession) : Database JournalTables :=
  sessions.foldl (fun db session => (session.serve identity db).1) db

/-- The operation a returned write is for. -/
def grantOf : Option (Except CustodyError JoinedAnswer) → List OperationId
  | some (.ok (.write operation _)) => [operation]
  | _ => []

/-- The operations the sessions returned writes for, in order. -/
def grants : Database JournalTables → List JoinedSession → List OperationId
  | _, [] => []
  | db, session :: sessions => grantOf (session.serve identity db).2 ++ grants (session.serve identity db).1 sessions

end Sessions

/-! ### What a session issues -/

theorem NoSubmit.joined {identity : String} {op : StoreOp JournalTables} (h : NoSubmit op) : JoinedOp identity op := by
  cases op with
  | submit => exact h.elim
  | draw | reconcile | reconcileOperation | read | wall | poll => exact trivial

theorem authorizeJoined_issues {gates : Admitted → JoinedCall FrozenWrite}
    (hgates : ∀ fresh, (gates fresh).run.Issues NoSubmit) (store : SqliteStore) (reads : AcceptReads)
    (admitted : Admitted) (preview : Preview) :
    (authorizeJoined gates store reads admitted preview).run.Issues (JoinedOp store.identity) := by
  unfold authorizeJoined
  refine Issues.tryBind issues_check fun _ => ?_
  refine Issues.tryBind (Issues.mapErr ((reconcileRow_noSubmit _ _).mono fun _ => NoSubmit.joined)) fun fresh => ?_
  refine Issues.tryBind issues_check fun _ => Issues.tryBind issues_check fun _ => ?_
  refine Issues.tryBind issues_check fun _ => ?_
  refine Issues.tryBind ((hgates fresh).mono fun _ => NoSubmit.joined) fun write => ?_
  refine Issues.tryBind ((requireDurableCurrency_noSubmit fresh).mono fun _ => NoSubmit.joined) fun _ => ?_
  exact Issues.tryBind (Issues.mapErr (transition_joined store _ _ (by decide))) fun _ => trivial

theorem JoinedRequest.call_issues (request : JoinedRequest) (store : SqliteStore) :
    (request.call store).run.Issues (JoinedOp store.identity) := by
  cases request with
  | admission request =>
    refine Issues.tryBind (Issues.tryBind issues_check fun _ => ?_) fun _ => trivial
    exact Issues.mapErr (admitRequest_joined store _)
  | transfer holds exclusion old request =>
    refine Issues.tryBind (Issues.tryBind issues_check fun _ => ?_) fun _ => trivial
    exact Issues.mapErr (admitRequest_joined store _)
  | setpoint reads holds admitted handoff =>
    refine Issues.tryBind (authorizeJoined_issues (fun fresh => ?_) store reads _ _) fun _ => trivial
    exact authorizeSetpointViaCustody_noSubmit fresh holds handoff
  | release reads holds admitted handoff =>
    refine Issues.tryBind (authorizeJoined_issues (fun fresh => ?_) store reads _ _) fun _ => trivial
    exact authorizeReleaseViaCustody_noSubmit fresh holds handoff
  | confirmed admitted outcome =>
    refine Issues.tryBind (Issues.tryBind issues_check fun _ => Issues.tryBind issues_check fun _ => ?_) fun _ => trivial
    exact Issues.mapErr (transition_joined store _ _ (by decide))
  | unresolved admitted =>
    exact Issues.tryBind (Issues.mapErr (transition_joined store _ _ (by decide))) fun _ => trivial

section Sessions

variable {identity : String}

theorem JoinedSession.serve_runs (session : JoinedSession) (db : Database JournalTables) :
    Runs StoreOp.exec (fun _ => True) (session.request.call ⟨identity, session.bounds⟩).run db
      (session.serve identity db).1 (session.serve identity db).2 :=
  ⟨session.moments, fun _ _ => trivial, rfl, rfl⟩

/-- An invariant every operation of the joined calls keeps holds after every session. -/
theorem JoinedSession.serve_invariant {Inv : Database JournalTables → Prop}
    (hstep : ∀ op m db, JoinedOp identity op → Inv db → Inv (StoreOp.exec op m db).1) (session : JoinedSession)
    {db : Database JournalTables} (h : Inv db) : Inv (session.serve identity db).1 :=
  (session.serve_runs db).invariant hstep (session.request.call_issues ⟨identity, session.bounds⟩) h

theorem serveAll_invariant {Inv : Database JournalTables → Prop}
    (hstep : ∀ op m db, JoinedOp identity op → Inv db → Inv (StoreOp.exec op m db).1)
    (sessions : List JoinedSession) {db : Database JournalTables} (h : Inv db) : Inv (serveAll identity db sessions) := by
  induction sessions generalizing db with
  | nil => exact h
  | cons session sessions ih => exact ih (session.serve_invariant hstep h)

/-- The store of the joined calls after a session. -/
def JournalStore.after (journal : JournalStore identity) (session : JoinedSession) : JournalStore identity where
  db := (session.serve identity journal.db).1
  marks := session.serve_invariant (fun _ m _ hop h => h.exec hop m) journal.marks

/-- No operation of a session brings an operation back to `admitted`. -/
theorem serveAll_left {operation : OperationId} (sessions : List JoinedSession) {db : Database JournalTables}
    (h : Left operation db.tables) : Left operation (serveAll identity db sessions).tables := by
  have hstep : ∀ op m db, JoinedOp identity op → Left operation db.tables →
      Left operation (StoreOp.exec op m db).1.tables := fun op m db hop hleft => Left.exec hop m hleft
  exact serveAll_invariant hstep sessions h

/-! ### Grants -/

theorem mem_grantOf {result : Option (Except CustodyError JoinedAnswer)} {operation : OperationId}
    (h : operation ∈ grantOf result) : ∃ write, result = some (.ok (.write operation write)) := by
  unfold grantOf at h
  split at h
  · rename_i granted write
    obtain rfl := List.mem_singleton.1 h
    exact ⟨write, rfl⟩
  · exact nomatch h

/-- A call that returns the answer `f` makes of a value returned by its last step. -/
theorem runs_answer {α : Type} {x : JoinedCall α} {f : α → JoinedAnswer} {db db' : Database JournalTables}
    {answer : JoinedAnswer}
    (h : Runs StoreOp.exec (fun _ => True) (do return f (← x) : JoinedCall JoinedAnswer).run db db'
      (some (.ok answer))) :
    ∃ a, answer = f a ∧ Runs StoreOp.exec (fun _ => True) x.run db db' (some (.ok a)) := by
  obtain ⟨a, u, hx, hdone⟩ := runs_try_ok h
  obtain ⟨rfl, hanswer⟩ := runs_done.1 hdone
  exact ⟨a, Except.ok.inj (Option.some.inj hanswer), hx⟩

/-- A granted operation was admitted before the session and has left `admitted` after it. -/
theorem serve_grant (journal : JournalStore identity) {session : JoinedSession} {operation : OperationId}
    (h : operation ∈ grantOf (session.serve identity journal.db).2) :
    journal.db.tables.lifecycleState operation.text = .admitted ∧
      Left operation (journal.after session).db.tables := by
  obtain ⟨write, hresult⟩ := mem_grantOf h
  have hrun : Runs StoreOp.exec (fun _ => True) (session.request.call ⟨identity, session.bounds⟩).run journal.db
      (session.serve identity journal.db).1 (session.serve identity journal.db).2 := session.serve_runs journal.db
  rw [hresult] at hrun
  cases hrequest : session.request with
  | admission | transfer | confirmed | unresolved =>
    rw [hrequest] at hrun
    obtain ⟨row, hanswer, -⟩ := runs_answer hrun
    exact nomatch hanswer
  | setpoint reads holds admitted handoff =>
    rw [hrequest] at hrun
    obtain ⟨granted, hanswer, hgranted⟩ := runs_answer hrun
    obtain ⟨rfl, rfl⟩ := JoinedAnswer.write.inj hanswer
    obtain ⟨fresh, hgated, -, hleft, -⟩ :=
      joined_write (fun fresh => authorizeSetpointViaCustody_noSubmit fresh holds handoff) ⟨identity, session.bounds⟩
        journal hgranted
    exact ⟨hgated.wasAdmitted, hleft⟩
  | release reads holds admitted handoff =>
    rw [hrequest] at hrun
    obtain ⟨granted, hanswer, hgranted⟩ := runs_answer hrun
    obtain ⟨rfl, rfl⟩ := JoinedAnswer.write.inj hanswer
    obtain ⟨fresh, hgated, -, hleft, -⟩ :=
      joined_write (fun fresh => authorizeReleaseViaCustody_noSubmit fresh holds handoff) ⟨identity, session.bounds⟩
        journal hgranted
    exact ⟨hgated.wasAdmitted, hleft⟩

theorem grantOf_nodup (result : Option (Except CustodyError JoinedAnswer)) : (grantOf result).Nodup := by
  unfold grantOf
  split <;> simp

/-- An operation that has left `admitted` is granted no more. -/
theorem not_granted_of_left {operation : OperationId} (sessions : List JoinedSession) (journal : JournalStore identity)
    (h : Left operation journal.db.tables) : operation ∉ grants identity journal.db sessions := by
  induction sessions generalizing journal with
  | nil => exact List.not_mem_nil
  | cons session sessions ih =>
    intro hgranted
    rcases List.mem_append.1 hgranted with hnow | hlater
    · exact h.2 (serve_grant journal hnow).1
    · exact ih (journal.after session) (serveAll_left [session] h) hlater

theorem grants_nodup (sessions : List JoinedSession) (journal : JournalStore identity) :
    (grants identity journal.db sessions).Nodup := by
  induction sessions generalizing journal with
  | nil => exact List.nodup_nil
  | cons session sessions ih =>
    rw [grants, List.nodup_append]
    refine ⟨grantOf_nodup _, ih (journal.after session), ?_⟩
    rintro operation hnow _ hlater rfl
    exact not_granted_of_left sessions (journal.after session) (serve_grant journal hnow).2 hlater

theorem left_of_granted {operation : OperationId} (sessions : List JoinedSession) (journal : JournalStore identity)
    (h : operation ∈ grants identity journal.db sessions) :
    Left operation (serveAll identity journal.db sessions).tables := by
  induction sessions generalizing journal with
  | nil => exact nomatch h
  | cons session sessions ih =>
    rcases List.mem_append.1 h with hnow | hlater
    · exact serveAll_left sessions (serve_grant journal hnow).2
    · exact ih (journal.after session) hlater

end Sessions

/-- In every sequence of sessions an operation is granted at most one write, and none reads as admitted after it. -/
theorem send_permits {identity : String} (journal : JournalStore identity) (sessions : List JoinedSession) :
    (grants identity journal.db sessions).Nodup ∧
      ∀ before after operation, sessions = before ++ after → operation ∈ grants identity journal.db before →
        let db := serveAll identity journal.db sessions
        db.tables.lifecycleState operation.text ≠ .admitted ∧
          ∀ scope m found, readAnswer operation scope m db = .ok found → found.lifecycle ≠ .admitted := by
  refine ⟨grants_nodup sessions journal, ?_⟩
  rintro before after operation rfl hgranted
  have hleft : Left operation (serveAll identity journal.db (before ++ after)).tables := by
    rw [serveAll, List.foldl_append]
    exact serveAll_left after (left_of_granted before journal hgranted)
  refine ⟨hleft.2, fun scope m found hfound => ?_⟩
  rw [readAnswer_lifecycle hfound]
  exact hleft.2

end Verdant.Action
