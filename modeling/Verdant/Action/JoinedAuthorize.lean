import Verdant.Action.HandoffGates
import Verdant.Action.MarkLaw

/-!
# Joined authorization

An authorizer either stops with the store as it was, or passes every gate on a fresh read of its row and then marks the
row dispatched (`runs_authorizeJoined`).  So every error but one of the mark leaves all rows, and a returned write rests
on the row, the preview, the publications, the target generation and the actor it was checked against.
-/

namespace Verdant.Action

open Storage Prog TextCodec

/-! ### The durable generation -/

theorem decodeGeneration_eq_ok {rows : List TargetRow} {durable : UInt32}
    (h : decodeGeneration (rows.map fun r => [Nat.repr r.currentGeneration]) = .ok durable) :
    durable.toNat = ((rows.head?).map TargetRow.currentGeneration).getD 0 := by
  match rows with
  | [] =>
    cases h
    rfl
  | [r] => exact toNat_of_parseUInt32 (require_eq_ok.1 h)
  | _ :: _ :: _ => exact nomatch h

section Runs

variable {E : Moment → Prop} {db db' : Database JournalTables}

theorem runs_durableCurrentGeneration {scope : TrustedScope} {equipment : InstalledId} {durable : UInt32}
    (h : Runs StoreOp.exec E (durableCurrentGeneration scope equipment) db db' (some (.ok durable))) :
    durable.toNat = db.tables.currentGeneration scope.text equipment.text := by
  rcases runs_call.1 h with ⟨-, hnone⟩ | ⟨m, -, h⟩
  · cases hnone
  simp only [StoreOp.exec] at h
  cases hexec : execScript m (currentGenerationSql scope equipment) db with
  | error e =>
    rw [hexec] at h
    have hresult := (runs_done.1 h).2
    cases hresult
  | ok rows =>
    rw [hexec] at h
    have hdecode := Option.some.inj (runs_done.1 h).2
    have hrows : rows = (db.tables.targetRows scope.text equipment.text).map
        fun r => [Nat.repr r.currentGeneration] := by
      unfold execScript at hexec
      split at hexec
      · cases hexec
      · have hquery : (currentGenerationSql scope equipment).rows (m.host.clock 0).toInt db =
          .ok ((db.tables.targetRows scope.text equipment.text).map fun r => [Nat.repr r.currentGeneration]) := rfl
        rw [hquery] at hexec
        exact (Except.ok.inj hexec).symm
    rw [hrows] at hdecode
    rw [decodeGeneration_eq_ok hdecode.symm, JournalTables.targetRows, List.head?_filter]
    rfl

theorem runs_requireDurableCurrency {fresh : Admitted}
    (h : Runs StoreOp.exec E (requireDurableCurrency fresh).run db db' (some (.ok ()))) :
    fresh.targetGeneration.toNat = db.tables.currentGeneration fresh.scope.text fresh.equipment.text := by
  obtain ⟨durable, u, hread, h⟩ := runs_try_ok h
  have hdurable := runs_durableCurrentGeneration (runs_mapErr_ok hread)
  obtain ⟨-, hcheck⟩ := runs_check.1 h
  have hsame := Result.refuseIf_eq_ok.1 (Option.some.inj hcheck).symm
  rw [not_not.1 hsame]
  exact hdurable

end Runs

/-! ### Gates before the mark -/

/-- The accepted and the active publication have the row's accepted revision, the staged one its binding revision. -/
def Published (reads : AcceptReads) (fresh : Admitted) : Prop :=
  ∃ accepted active staged, reads.current = .ok (some accepted) ∧ reads.active = .ok (some active) ∧
    reads.readStaged accepted.stagedOperation = .ok staged ∧ accepted.revision = fresh.acceptedRevision ∧
    active.revision = fresh.acceptedRevision ∧ staged.bindingRevision = fresh.bindingRevision

theorem published_of_handoff {reads : AcceptReads} {fresh : Admitted}
    (h : requireActivationCurrentForHandoff reads fresh.bindingRevision fresh.acceptedRevision = .ok ()) :
    Published reads fresh := by
  unfold requireActivationCurrentForHandoff at h
  obtain ⟨current, hcurrent, h⟩ := Result.bind_eq_ok.1 h
  cases current with
  | none => exact nomatch h
  | some accepted =>
    obtain ⟨⟨⟩, haccepted, h⟩ := Result.bind_eq_ok.1 h
    obtain ⟨active, hactive, h⟩ := Result.bind_eq_ok.1 h
    cases active with
    | none => exact nomatch h
    | some active =>
      obtain ⟨⟨⟩, hrevision, h⟩ := Result.bind_eq_ok.1 h
      obtain ⟨⟨⟩, -, h⟩ := Result.bind_eq_ok.1 h
      obtain ⟨staged, hstaged, hbinding⟩ := Result.bind_eq_ok.1 h
      rw [Result.refuseIf_eq_ok, not_not] at haccepted hrevision hbinding
      exact ⟨accepted, active, staged, Result.mapError_eq_ok.1 hcurrent, Result.mapError_eq_ok.1 hactive,
        Result.mapError_eq_ok.1 hstaged, haccepted, hrevision, hbinding⟩

/-- What an authorizer has checked when it marks: the fresh row against the store, the preview and the publications. -/
structure Gated (reads : AcceptReads) (admitted : Admitted) (preview : Preview) (tables : JournalTables)
    (fresh : Admitted) : Prop where
  operation : fresh.operation = admitted.operation
  row : ∃ r ∈ tables.journal, r.operation = admitted.operation.text ∧ r.scope = admitted.scope.text ∧
    Reads r (tables.findLifecycle r.operation) admitted.scope fresh
  wasAdmitted : tables.lifecycleState admitted.operation.text = .admitted
  sealed : preview.sealVerified = true ∧ preview.sealLedgerDigest.isSome = true
  payload : fresh.payload = preview.canonicalBytes
  wireBits : fresh.wireBits = some preview.encoded.wireBits
  actionKind : fresh.actionKind.map ActionKind.asStr = some preview.actionKind
  published : Published reads fresh
  generation : fresh.targetGeneration.toNat = tables.currentGeneration fresh.scope.text fresh.equipment.text

/-- The call stopped with the store as it was and without a write. -/
def Stopped (db db' : Database JournalTables) (result : Option (Except CustodyError FrozenWrite)) : Prop :=
  db' = db ∧ ∀ write, result ≠ some (.ok write)

/-- The write goes out when the mark answered; an error of the mark is the call's error. -/
def markAnswer (write : FrozenWrite) : Except WriterError Admitted → Except CustodyError FrozenWrite
  | .ok _ => .ok write
  | .error e => .error (.ofWriter e)

section Runs

variable {E : Moment → Prop} {db db' : Database JournalTables} {result : Option (Except CustodyError FrozenWrite)}

/-- A gate that submits nothing stops the call, or the rest runs on the same store. -/
theorem runs_gate {α : Type} {gate : JoinedCall α} {rest : α → JoinedCall FrozenWrite}
    (hgate : gate.run.Issues NoSubmit) (h : Runs StoreOp.exec E (gate >>= rest).run db db' result) :
    Stopped db db' result ∨
      ∃ a, Runs StoreOp.exec E gate.run db db (some (.ok a)) ∧ Runs StoreOp.exec E (rest a).run db db' result := by
  rcases runs_try_stop h with ⟨hx, rfl⟩ | ⟨e, hx, rfl⟩ | ⟨a, u, hx, hf⟩
  · exact .inl ⟨runs_noSubmit hgate hx, by simp⟩
  · exact .inl ⟨runs_noSubmit hgate hx, by simp⟩
  · obtain rfl := runs_noSubmit hgate hx
    exact .inr ⟨a, hx, hf⟩

/-- As `runs_gate`, for a check of values. -/
theorem runs_checkGate {α : Type} {x : Except CustodyError α} {rest : α → JoinedCall FrozenWrite}
    (h : Runs StoreOp.exec E (check x >>= rest).run db db' result) :
    Stopped db db' result ∨ ∃ a, x = .ok a ∧ Runs StoreOp.exec E (rest a).run db db' result := by
  rcases runs_gate issues_check h with hstop | ⟨a, hx, hf⟩
  · exact .inl hstop
  · exact .inr ⟨a, (Option.some.inj (runs_check.1 hx).2).symm, hf⟩

theorem runs_mark {store : SqliteStore} {operation : OperationId} {scope : TrustedScope} {write : FrozenWrite}
    (h : Runs StoreOp.exec E (do
      let _ ← (mapErr .ofWriter (attempt (markDispatched store operation scope)) : JoinedCall Admitted)
      return write : JoinedCall FrozenWrite).run db db' result) :
    ∃ answer, Runs StoreOp.exec E (markDispatched store operation scope) db db' answer ∧
      result = answer.map (markAnswer write) := by
  rcases runs_try_stop h with ⟨hx, rfl⟩ | ⟨e, hx, rfl⟩ | ⟨found, u, hx, hf⟩
  · rcases runs_bind hx with ⟨hmark, -⟩ | ⟨answer, u, -, hnone⟩
    · exact ⟨none, hmark, rfl⟩
    · exact nomatch (runs_done.1 hnone).2
  · obtain ⟨w, rfl, hmark⟩ := runs_mapErr_error hx
    exact ⟨some (.error w), hmark, rfl⟩
  · obtain ⟨rfl, rfl⟩ := runs_done.1 hf
    exact ⟨some (.ok found), runs_mapErr_ok hx, rfl⟩

theorem reconcileRow_noSubmit (operation : OperationId) (scope : TrustedScope) :
    (reconcileRow operation scope).Issues NoSubmit :=
  Issues.bind (readRow_issues (fun _ => trivial) operation scope) fun _ => trivial

theorem requireDurableCurrency_noSubmit (fresh : Admitted) : (requireDurableCurrency fresh).run.Issues NoSubmit := by
  refine Issues.tryBind (Issues.mapErr ?_) fun _ => issues_check
  refine Issues.bind (issues_issue trivial) fun answer => ?_
  split <;> exact trivial

theorem requireSealVerified_eq_ok {preview : Preview} (h : requireSealVerified preview = .ok ()) :
    preview.sealVerified = true ∧ preview.sealLedgerDigest.isSome = true := by
  unfold requireSealVerified at h
  split at h
  · rename_i hseal
    simpa using hseal
  · exact nomatch h

theorem refuseResend_eq_ok {fresh : Admitted} (h : refuseResendWithoutQualifiedRecovery fresh = .ok ()) :
    fresh.lifecycle = .admitted := by
  unfold refuseResendWithoutQualifiedRecovery at h
  split at h
  · assumption
  · exact nomatch h
  · exact nomatch h
  · exact nomatch h

/-- An authorizer stops with the store as it was, or passes every gate and ends as its mark does. -/
theorem runs_authorizeJoined {gates : Admitted → JoinedCall FrozenWrite}
    (hgates : ∀ fresh, (gates fresh).run.Issues NoSubmit) {store : SqliteStore} {reads : AcceptReads}
    {admitted : Admitted} {preview : Preview}
    (h : Runs StoreOp.exec E (authorizeJoined gates store reads admitted preview).run db db' result) :
    Stopped db db' result ∨ ∃ fresh write answer, Gated reads admitted preview db.tables fresh ∧
      Runs StoreOp.exec E (gates fresh).run db db (some (.ok write)) ∧
      Runs StoreOp.exec E (markDispatched store fresh.operation fresh.scope) db db' answer ∧
      result = answer.map (markAnswer write) := by
  rcases runs_checkGate h with hstop | ⟨⟨⟩, hseal, h⟩
  · exact .inl hstop
  rcases runs_gate (Issues.mapErr (reconcileRow_noSubmit _ _)) h with hstop | ⟨fresh, hread, h⟩
  · exact .inl hstop
  rcases runs_checkGate h with hstop | ⟨⟨⟩, hbrake, h⟩
  · exact .inl hstop
  rcases runs_checkGate h with hstop | ⟨⟨⟩, hpreview, h⟩
  · exact .inl hstop
  rcases runs_checkGate h with hstop | ⟨⟨⟩, hactive, h⟩
  · exact .inl hstop
  rcases runs_gate (hgates fresh) h with hstop | ⟨write, hwrite, h⟩
  · exact .inl hstop
  rcases runs_gate (requireDurableCurrency_noSubmit fresh) h with hstop | ⟨⟨⟩, hcurrency, h⟩
  · exact .inl hstop
  obtain ⟨answer, hmark, hresult⟩ := runs_mark h
  refine .inr ⟨fresh, write, answer, ?_, hwrite, hmark, hresult⟩
  obtain ⟨hlifecycle, r, hr, hoperation, hscope, hreads⟩ := runs_reconcileRow (runs_mapErr_ok hread)
  simp only [requirePreviewMatchesAdmission, Result.bind_eq_ok, Result.refuseIf_eq_ok, not_not] at hpreview
  obtain ⟨-, hpayload, -, hbits, hkind⟩ := hpreview
  exact {
    operation := OperationId.ext_text (hreads.operation.trans hoperation)
    row := ⟨r, hr, hoperation, hscope, hreads⟩
    wasAdmitted := hlifecycle.symm.trans (refuseResend_eq_ok hbrake)
    sealed := requireSealVerified_eq_ok hseal
    payload := hpayload
    wireBits := hbits
    actionKind := hkind
    published := published_of_handoff (Result.mapError_eq_ok.1 hactive)
    generation := runs_requireDurableCurrency hcurrency }

end Runs

/-! ### The authorizers -/

/-- An error of the final mark. -/
def MarkFailed (E : Moment → Prop) (store : SqliteStore) (fresh : Admitted) (db db' : Database JournalTables)
    (e : CustodyError) : Prop :=
  ∃ w, e = .ofWriter w ∧
    Runs StoreOp.exec E (markDispatched store fresh.operation fresh.scope) db db' (some (.error w))

/-- An error leaves the store, except one of the final mark of a row that passed every gate. -/
theorem joined_error {E : Moment → Prop} {gates : Admitted → JoinedCall FrozenWrite}
    (hgates : ∀ fresh, (gates fresh).run.Issues NoSubmit) {store : SqliteStore} {reads : AcceptReads}
    {admitted : Admitted} {preview : Preview} {db db' : Database JournalTables} {e : CustodyError}
    (h : Runs StoreOp.exec E (authorizeJoined gates store reads admitted preview).run db db' (some (.error e))) :
    db' = db ∨ ∃ fresh, Gated reads admitted preview db.tables fresh ∧ MarkFailed E store fresh db db' e := by
  rcases runs_authorizeJoined hgates h with ⟨hsame, -⟩ | ⟨fresh, write, answer, hgated, -, hmark, hresult⟩
  · exact .inl hsame
  right
  rcases answer with _ | ⟨w | found⟩
  · exact nomatch hresult
  · exact ⟨fresh, hgated, w, Except.error.inj (Option.some.inj hresult), hmark⟩
  · exact nomatch hresult

/-- A returned write passed every gate, and the mark left its row dispatched. -/
theorem joined_write {E : Moment → Prop} {gates : Admitted → JoinedCall FrozenWrite}
    (hgates : ∀ fresh, (gates fresh).run.Issues NoSubmit) (store : SqliteStore) {reads : AcceptReads}
    {admitted : Admitted} {preview : Preview} (journal : JournalStore store.identity) {db' : Database JournalTables}
    {write : FrozenWrite}
    (h : Runs StoreOp.exec E (authorizeJoined gates store reads admitted preview).run journal.db db'
      (some (.ok write))) :
    ∃ fresh, Gated reads admitted preview journal.db.tables fresh ∧
      Runs StoreOp.exec E (gates fresh).run journal.db journal.db (some (.ok write)) ∧
      Left admitted.operation db'.tables ∧ db'.tables.lifecycleState admitted.operation.text = .dispatched := by
  rcases runs_authorizeJoined hgates h with ⟨-, hnot⟩ | ⟨fresh, write', answer, hgated, hwrite, hmark, hresult⟩
  · exact absurd rfl (hnot write)
  rcases answer with _ | ⟨w | found⟩
  · exact nomatch hresult
  · exact nomatch hresult
  · obtain rfl : write = write' := Except.ok.inj (Option.some.inj hresult)
    rw [hgated.operation] at hmark
    obtain ⟨hleft, hdispatched⟩ := runs_markDispatched journal.marks hgated.wasAdmitted hmark
    exact ⟨fresh, hgated, hwrite, hleft, hdispatched⟩

/-- Joined authorization is sound and atomic, in every store of the joined calls and for all arguments. -/
theorem joined_authorization (store : SqliteStore) (journal : JournalStore store.identity) (reads : AcceptReads)
    (holds : ScopeHolds) (admitted : Admitted) (handoff : Handoff) (E : Moment → Prop)
    (db' : Database JournalTables) :
    (∀ e, Runs StoreOp.exec E (authorizeJoinedSetpoint store reads holds admitted handoff).run journal.db db'
        (some (.error e)) →
      db' = journal.db ∨ ∃ fresh, Gated reads admitted handoff.preview journal.db.tables fresh ∧
        MarkFailed E store fresh journal.db db' e) ∧
    (∀ e, Runs StoreOp.exec E (authorizeJoinedRelease store reads holds admitted handoff).run journal.db db'
        (some (.error e)) →
      db' = journal.db ∨ ∃ fresh, Gated reads admitted handoff.preview journal.db.tables fresh ∧
        MarkFailed E store fresh journal.db db' e) ∧
    (∀ write, Runs StoreOp.exec E (authorizeJoinedSetpoint store reads holds admitted handoff).run journal.db db'
        (some (.ok write)) →
      db'.tables.lifecycleState admitted.operation.text = .dispatched ∧
        ∃ fresh, Gated reads admitted handoff.preview journal.db.tables fresh ∧ SetPermit E holds fresh handoff write) ∧
    ∀ write, Runs StoreOp.exec E (authorizeJoinedRelease store reads holds admitted handoff).run journal.db db'
        (some (.ok write)) →
      db'.tables.lifecycleState admitted.operation.text = .dispatched ∧
        ∃ fresh, Gated reads admitted handoff.preview journal.db.tables fresh ∧ ReleasePermit holds fresh handoff write := by
  have hset : ∀ fresh, (authorizeSetpointViaCustody holds fresh handoff : JoinedCall FrozenWrite).run.Issues NoSubmit :=
    fun fresh => authorizeSetpointViaCustody_noSubmit fresh holds handoff
  have hrelease : ∀ fresh,
      (authorizeReleaseViaCustody holds fresh handoff : JoinedCall FrozenWrite).run.Issues NoSubmit :=
    fun fresh => authorizeReleaseViaCustody_noSubmit fresh holds handoff
  refine ⟨fun e h => joined_error hset h, fun e h => joined_error hrelease h, ?_, ?_⟩
  · intro write h
    obtain ⟨fresh, hgated, hwrite, -, hdispatched⟩ := joined_write hset store journal h
    exact ⟨hdispatched, fresh, hgated, runs_authorizeSetpointViaCustody hwrite⟩
  · intro write h
    obtain ⟨fresh, hgated, hwrite, -, hdispatched⟩ := joined_write hrelease store journal h
    exact ⟨hdispatched, fresh, hgated, runs_authorizeReleaseViaCustody hwrite⟩

end Verdant.Action
