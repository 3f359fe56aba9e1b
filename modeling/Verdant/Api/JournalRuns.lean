import Verdant.Api.JournalCalls

/-!
# The journal over whole runs

Every run of coordinators and of other owners on one database that starts without a row of the API: the intents are one
sound ledger, an operation has one cancel row, and a call of `remember` that goes on from any state of the run answers
with the one intent of its operation, or refuses without a row.
-/

namespace Verdant.Api

open TextCodec Storage Access Binding Prog

/-! ### Refusals -/

/-- What a call refuses without a row: an operation reused for other inputs, and a revision that has been replaced. -/
structure Refuses (e : Entry) (s : Database OutboxTables) (acts : List ApiAct) (answer : Except ApiError Intent) : Prop where
  reused : ∀ old ∈ journal s.tables, old.operation = e.op → ¬ e.Of old →
    addedBy acts = [] ∧ ∃ error, answer = .error error
  stale : e.kind.followsRevision = true → (∀ old ∈ journal s.tables, old.operation ≠ e.op) →
    ∀ p ∈ revisionsOf (journal s.tables) e.subject, e.parent = some p.operation →
      latestRevision (journal s.tables) e.subject ≠ some p → addedBy acts = [] ∧ ∃ error, answer = .error error

theorem refuses_of_remembered {e : Entry} {s t : Database OutboxTables} {acts : List ApiAct}
    {answer : Except ApiError Intent} (hs : Kept s) (hacts : ∀ x ∈ acts, apiLaw.rel s x.before) (hst : apiLaw.rel s t)
    (h : Remembered e s acts t answer) : Refuses e s acts answer := by
  have ht := (hst hs).1
  -- no row, if no commit of the inputs can follow; no value, if the journal cannot have an intent of them
  have hgo : (∀ x ∈ acts, ∀ i, e.Of i → ¬ Commit (journal x.before.tables) i) →
      (∀ i ∈ journal t.tables, ¬ e.Of i) → addedBy acts = [] ∧ ∃ error, answer = .error error := by
    intro hrow hvalue
    refine ⟨?_, ?_⟩
    · unfold addedBy
      rw [List.flatMap_eq_nil_iff]
      intro x hx
      by_contra hne
      obtain ⟨r, hr⟩ := List.exists_mem_of_ne_nil _ hne
      obtain ⟨i, -, hof, hcommit⟩ := h.commits x hx r hr
      exact hrow x hx i hof hcommit
    · cases hanswer : answer with
      | error error => exact ⟨error, rfl⟩
      | ok i =>
        obtain ⟨hmem, hof⟩ := h.told i hanswer
        exact absurd hof (hvalue i hmem)
  constructor
  · intro old hold hop hnot
    refine hgo (fun x hx i hof hcommit => ?_) fun i hi hof => ?_
    · refine hcommit.fresh old ((journal_grows hs (hacts x hx)).subset hold) ?_
      rw [hop, hof.op]
    · have hsame := ht.sound.intent_unique hi ((journal_grows hs hst).subset hold) (hof.op.trans hop.symm)
      exact hnot (hsame ▸ hof)
  · intro hfollows hnew p hp hparent hstale
    have hkind : ∀ i, e.Of i → i.kind.followsRevision = true := fun i hof => hof.kind ▸ hfollows
    refine hgo (fun x hx i hof hcommit => ?_) fun i hi hof => ?_
    · have hx' := (hacts x hx hs).1
      have hlatest := (hx'.sound.commit hcommit).not_stale rfl (journal_grows hs (hacts x hx)) (hkind i hof)
        (hof.subject ▸ hp) (hof.parent.trans hparent)
      exact hstale (hof.subject ▸ hlatest)
    · obtain ⟨rest, hrest⟩ := journal_grows hs hst
      have hmem : i ∈ rest := by
        rw [← hrest, List.mem_append] at hi
        exact hi.resolve_left fun hold => hnew i hold hof.op
      obtain ⟨a, b, hsplit⟩ := List.append_of_mem hmem
      have hlog : journal t.tables = (journal s.tables ++ a) ++ i :: b := by
        rw [← hrest, hsplit, List.append_assoc]
      have hlatest := ht.sound.not_stale hlog (List.prefix_append _ _) (hkind i hof) (hof.subject ▸ hp)
        (hof.parent.trans hparent)
      exact hstale (hof.subject ▸ hlatest)

/-! ### Repeats -/

/-- A repeated call alone: it reads, checks its authority, and answers with the intent that is there. -/
theorem run_remember_repeated (api : Api) {db : Database OutboxTables} (hdb : Kept db) {e : Entry} {old : Intent}
    (hold : old ∈ journal db.tables) (hof : e.Of old) (credential : Credential) (recovery : Bool) {m : Moment}
    (hread : m.read = none) (es : List Moment) :
    (api.remembers e credential recovery).run.run StoreOp.exec (m :: es) db =
      match (api.authority (some credential) e.scope (if recovery then .sense else .drive)).run.run StoreOp.exec es db with
      | (t, none) => (t, none)
      | (t, some (.error error, rest)) => (t, some (.error error, rest))
      | (t, some (.ok _, rest)) => (t, some (.ok old, rest)) := by
  obtain ⟨r, -, hdecode⟩ := mem_journal.1 hold
  obtain ⟨-, -, -, -, -, -, hapi, -⟩ := Intent.decode_eq_ok hdecode
  rw [hof.op] at hapi
  have hbound := hdb.sound.bounded e.scope
  rw [hdb.length_ofScope e.scope] at hbound
  have hall : (logOf (isIntentOf e.scope) db.tables).take (maxWork + 1) = logOf (isIntentOf e.scope) db.tables :=
    List.take_of_length_le (by omega)
  have hexec : execScript m (selectIntents e.scope) db =
      .ok ((logOf (isIntentOf e.scope) db.tables).map intentColumns) := by
    unfold execScript
    rw [hread]
    exact congrArg (fun rows => Except.ok (rows.map intentColumns)) hall
  have hrows : (readRows (selectIntents e.scope)).run.run StoreOp.exec (m :: es) db =
      (db, some (.ok ((logOf (isIntentOf e.scope) db.tables).map intentColumns), es)) := by
    have hanswer : (readRows (selectIntents e.scope)).run.run StoreOp.exec (m :: es) db =
        (db, some ((execScript m (selectIntents e.scope) db).mapError ApiError.storage, es)) := rfl
    rw [hanswer, hexec]
    rfl
  have hintents : (intents e.scope).run.run StoreOp.exec (m :: es) db =
      (db, some (.ok (ofScope e.scope (journal db.tables)), es)) := by
    unfold intents
    rw [run_try_bind, hrows]
    simp only
    rw [if_neg (by rw [List.length_map]; omega), hdb.joinIntents e.scope]
    rfl
  have hfind : (ofScope e.scope (journal db.tables)).find? (fun i => decide (i.operation = e.op)) = some old := by
    have hmem := mem_ofScope.2 ⟨hold, hof.scope⟩
    cases hfind : (ofScope e.scope (journal db.tables)).find? fun i => decide (i.operation = e.op) with
    | none => exact absurd (by simpa using hof.op) (List.find?_eq_none.1 hfind old hmem)
    | some found =>
      have hop : found.operation = e.op := by simpa using List.find?_some hfind
      rw [hdb.sound.intent_unique (mem_ofScope.1 (List.mem_of_find?_eq_some hfind)).1 hold (hop.trans hof.op.symm)]
  unfold Api.remembers Coordinator.remember
  rw [run_try_bind, operation_of_isApi hapi]
  have hcheck : (check (.ok e.op) : ApiCall OperationId).run.run StoreOp.exec (m :: es) db =
      (db, some (.ok e.op, m :: es)) := rfl
  rw [hcheck]
  simp only
  rw [run_try_bind, hintents]
  simp only
  rw [run_try_bind]
  generalize (api.authority (some credential) e.scope (if recovery then .sense else .drive)).run.run StoreOp.exec es db =
    authorized
  rcases authorized with ⟨t, _ | ⟨error | authority, rest⟩⟩
  · rfl
  · rfl
  · simp only
    rw [hfind]
    simp only
    rw [repeated_of hof]
    rfl

/-! ### Runs -/

/-- One call on the database: of a coordinator with the owners of its handle, or another owner's submit. -/
inductive ApiRequest {ι : Type} (owners : ι → Owners) where
  | draft (api : Api) (who : ι) (credential : Option Credential) (op : OperationId) (content : DraftContent)
  | edit (api : Api) (who : ι) (credential : Option Credential) (op parent : OperationId)
      (content : DraftContent)
  | seal (api : Api) (who : ι) (credential : Option Credential) (scope : TrustedScope)
      (op revision : OperationId) (publication : Publication)
  | prepareAccept (api : Api) (who : ι) (credential : Option Credential) (scope : TrustedScope)
      (op sealOperation : OperationId) (expected : AcceptedRevision)
  | submitAccept (api : Api) (who : ι) (credential : Option Credential) (scope : TrustedScope) (op : OperationId)
  | accept (api : Api) (who : ι) (credential : Option Credential) (scope : TrustedScope)
      (op sealOperation : OperationId) (expected : AcceptedRevision)
  | recordFinding (api : Api) (who : ι) (credential : Option Credential) (scope : TrustedScope)
      (op revision : OperationId) (key : String)
  | provisionRecovery (api : Api) (credential : Option Credential) (scope : TrustedScope) (op : OperationId)
      (keyId : KeyId) (key : SyntheticKey)
  | recover (api : Api) (credential : Option Credential) (scope : TrustedScope) (op : OperationId) (action : RecoveryAction)
  | cancel (api : Api) (credential : Option Credential) (scope : TrustedScope) (op : OperationId)
  | other (store : SqliteStore) (pending : PreparedMutation OutboxTables) (own : Foreign (.submit store pending))

namespace ApiRequest

variable {ι : Type} {owners : ι → Owners}

/-- The call of a request, without its value. -/
def call : ApiRequest owners → ApiCall Unit
  | .draft api who credential op content => discard (api.draft (owners who) credential op content)
  | .edit api who credential op parent content => discard (api.edit (owners who) credential op parent content)
  | .seal api who credential scope op revision publication =>
    discard (api.seal (owners who) credential scope op revision publication)
  | .prepareAccept api who credential scope op sealOperation expected =>
    discard (api.prepareAccept (owners who) credential scope op sealOperation expected)
  | .submitAccept api who credential scope op => discard (api.submitAccept (owners who) credential scope op)
  | .accept api who credential scope op sealOperation expected =>
    discard (api.accept (owners who) credential scope op sealOperation expected)
  | .recordFinding api who credential scope op revision key =>
    discard (api.recordFinding (owners who) credential scope op revision key)
  | .provisionRecovery api credential scope op keyId key => discard (api.provisionRecovery credential scope op keyId key)
  | .recover api credential scope op action => discard (api.recover credential scope op action)
  | .cancel api credential scope op => api.cancel credential scope op
  | .other store pending _ => discard (liftM (Call.submit store pending) : ApiCall MutationOutcome)
where
  discard {α : Type} (x : ApiCall α) : ApiCall Unit := do
    let _ ← x
    return ()

theorem obeys_discard {α : Type} {x : ApiCall α} (hx : Obeys x fun _ => True) : Obeys (call.discard x) fun _ => True :=
  hx.bind fun _ _ => obeys_pure trivial

theorem obeys_call (r : ApiRequest owners) : Obeys r.call fun _ => True := by
  cases r with
  | draft api who credential op content =>
    exact obeys_discard (obeys_writeDraft api (owners who) credential op none (fun draft h => nomatch h) content)
  | edit api who credential op parent content => exact obeys_discard (obeys_edit api (owners who) credential op parent content)
  | «seal» api who credential scope op revision publication =>
    exact obeys_discard (obeys_seal api (owners who) credential scope op revision publication)
  | prepareAccept api who credential scope op sealOperation expected =>
    exact obeys_discard (obeys_prepareAccept api (owners who) credential scope op sealOperation expected)
  | submitAccept api who credential scope op =>
    exact obeys_discard (obeys_submitAccept api (owners who) credential scope op)
  | accept api who credential scope op sealOperation expected =>
    exact obeys_discard (obeys_accept api (owners who) credential scope op sealOperation expected)
  | recordFinding api who credential scope op revision key =>
    exact obeys_discard (obeys_recordFinding api (owners who) credential scope op revision key)
  | provisionRecovery api credential scope op keyId key =>
    exact obeys_discard (obeys_provisionRecovery api credential scope op keyId key)
  | recover api credential scope op action => exact obeys_discard (obeys_recover api credential scope op action)
  | cancel api credential scope op => exact obeys_cancel api credential scope op
  | other store pending own => exact obeys_discard (obeys_foreign (issues_lift (issues_issue own)))

end ApiRequest

/-- A moment of a process: the identities it draws are those of fresh tickets. -/
abbrev ProcessMoment := {m : Moment // Drawn m}

section Runs

variable {ι : Type} {owners : ι → Owners}

abbrev ApiTurn (owners : ι → Owners) := Turn (ApiRequest owners) ProcessMoment

def ApiTurn.toTurn : ApiTurn owners → Turn (ApiRequest owners) Moment
  | .ask r => .ask r
  | .step i m => .step i m.1

/-- A database without a row or a ticket of the API. -/
structure EmptyJournal where
  db : Database OutboxTables
  ordered : Ordered db.tables
  empty : logOf isApiRow db.tables = []
  receipts : ∀ receipt ∈ db.receipts, isApiTicket receipt.operation = false

def EmptyJournal.fresh : EmptyJournal where
  db := ⟨OutboxTables.empty, []⟩
  ordered := ordered_empty
  empty := rfl
  receipts _ h := nomatch h

theorem EmptyJournal.kept (start : EmptyJournal) : Kept start.db := by
  have hintents : logOf isIntent start.db.tables = [] := by
    rw [logOf_isIntent, start.empty]
    rfl
  constructor
  · exact start.ordered
  · rw [hintents]
    exact fun r h => nomatch h
  · unfold journal
    rw [hintents]
    exact .empty
  · rw [start.empty]
    exact fun r h => nomatch h
  · rw [start.empty]
    exact List.nodup_nil
  · intro receipt hmem hticket
    rw [start.receipts receipt hmem] at hticket
    exact nomatch hticket

def apiRun (start : EmptyJournal) (turns : List (ApiTurn owners)) :
    Pool (StoreOp.Answer (ρ := OutboxTables)) (Database OutboxTables) (Except ApiError Unit) :=
  (Pool.idle start.db).played StoreOp.exec (fun _ r => r.call.run) (turns.map ApiTurn.toTurn)

def apiTrace (start : EmptyJournal) (turns : List (ApiTurn owners)) :
    List (Pool.Issued (StoreOp OutboxTables) Moment (Database OutboxTables)) :=
  Pool.issuedBy StoreOp.exec (fun _ (r : ApiRequest owners) => r.call.run)
    (Pool.idle start.db : Pool (StoreOp.Answer (ρ := OutboxTables)) _ _) (turns.map ApiTurn.toTurn)

/-- The intents of all scopes after the turns. -/
def journalAfter (start : EmptyJournal) (turns : List (ApiTurn owners)) : List Intent := journal (apiRun start turns).state.tables

theorem kept_of_run (start : EmptyJournal) (turns : List (ApiTurn owners)) :
    apiLaw.rel start.db (apiRun start turns).state ∧
      ∀ x ∈ apiTrace start turns, Settled x.op x.env x.before ∧ apiLaw.rel start.db x.before := by
  have hserve : ∀ s (answers : List (Option (Except ApiError Unit))) (r : ApiRequest owners), apiLaw.rel start.db s →
      (∀ a, some a ∈ answers → True) →
      Keeps StoreOp.exec apiLaw Drawn Settled (fun _ _ => True) s ((fun _ r => r.call.run) answers r) :=
    fun s _ r hs _ => (r.obeys_call s (hs start.kept).1).mono fun _ _ _ _ => trivial
  have hmeets : Pool.TurnsMeet Drawn (fun _ => True) (turns.map ApiTurn.toTurn) := by
    intro i m _ hmem
    obtain ⟨turn, -, hturn⟩ := List.mem_map.1 hmem
    cases turn with
    | ask r => exact nomatch hturn
    | step j m' =>
      obtain ⟨-, rfl⟩ := Turn.step.inj hturn
      exact m'.2
  obtain ⟨hrel, -, htrace⟩ := Pool.keeps_played (P := fun _ _ => True) (Pool.lawful_idle _) hserve hmeets
  exact ⟨hrel, fun x hx => ⟨(htrace x hx).1, (htrace x hx).2.1⟩⟩

/-! ### The journal -/

/-- What one operation of a run does to the journal: nothing, or one commit; and to the cancel rows: one at most. -/
theorem journal_step {op : StoreOp OutboxTables} {m : Moment} {db : Database OutboxTables} (h : Settled op m db) :
    journal (op.exec m db).1.tables = journal db.tables ∨
      ∃ i, Commit (journal db.tables) i ∧ journal (op.exec m db).1.tables = journal db.tables ++ [i] := by
  rcases h with hsame | ⟨r, hfits, hadded⟩
  · exact .inl (journal_congr hsame)
  have hintents : logOf isIntent (op.exec m db).1.tables = logOf isIntent db.tables ++ [r].filter isIntent := by
    have hrows : logOf isApiRow (op.exec m db).1.tables = logOf isApiRow db.tables ++ [r] := hadded
    rw [logOf_isIntent, logOf_isIntent, hrows, List.filter_append]
  unfold journal
  rw [hintents, List.filterMap_append]
  by_cases hkind : r.operation = eventText
  · obtain ⟨i, hdecode, -, hcommit⟩ := hfits hkind
    refine .inr ⟨i, hcommit, ?_⟩
    rw [List.filter_cons_of_pos (by simpa [isIntent] using hkind), List.filter_nil,
      List.filterMap_cons_some (intentOf_eq_some.2 hdecode)]
    rfl
  · refine .inl ?_
    rw [List.filter_cons_of_neg (by simpa [isIntent] using hkind)]
    simp

/-- An operation has one cancel row: they all have its one ticket. -/
theorem cancelsOf_le_one {db : Database OutboxTables} (h : Kept db) (op : OperationId) :
    (cancelsOf op db.tables).length ≤ 1 := by
  have hsub : (cancelsOf op db.tables).Sublist (logOf isApiRow db.tables) := by
    unfold cancelsOf
    rw [logOf_isCancel]
    exact List.filter_sublist.trans List.filter_sublist
  have hnodup : ((cancelsOf op db.tables).map ticketOf).Nodup := (hsub.map ticketOf).nodup h.distinct
  have hsame : ∀ r ∈ cancelsOf op db.tables, ticketOf r = some (cancelFront ++ "-" ++ op.text) := by
    intro r hr
    unfold cancelsOf at hr
    rw [List.mem_filter, logOf_isCancel, List.mem_filter] at hr
    obtain ⟨⟨-, hcancel⟩, hvalue⟩ := hr
    have hkind : r.operation = cancelText := by simpa [isCancel] using hcancel
    have htext : r.valueJson = (Value.text op.text).toJson := of_decide_eq_true hvalue
    unfold ticketOf
    rw [if_neg (by rw [hkind]; decide), if_pos hkind, htext, textColumn_toJson]
    rfl
  have hconst : (cancelsOf op db.tables).map ticketOf =
      List.replicate (cancelsOf op db.tables).length (some (cancelFront ++ "-" ++ op.text)) := by
    rw [List.eq_replicate_iff]
    refine ⟨List.length_map _, fun x hx => ?_⟩
    obtain ⟨r, hr, rfl⟩ := List.mem_map.1 hx
    exact hsame r hr
  rw [hconst, List.nodup_replicate] at hnodup
  exact hnodup

/-- What every run of coordinators keeps. -/
structure IntentJournal (start : EmptyJournal) (turns : List (ApiTurn owners)) : Prop where
  bounded : ∀ scope, (ofScope scope (journalAfter start turns)).length ≤ 256
  /-- An operation names one intent over all scopes. -/
  unique : ∀ i ∈ journalAfter start turns, ∀ j ∈ journalAfter start turns, i.operation = j.operation → i = j
  /-- Every operation of the run leaves the journal or adds one commit, so the part before an intent is its ledger. -/
  commits : ∀ x ∈ apiTrace start turns, journal (x.op.exec x.env x.before).1.tables = journal x.before.tables ∨
    ∃ i, Commit (journal x.before.tables) i ∧
      journal (x.op.exec x.env x.before).1.tables = journal x.before.tables ++ [i]
  latest : ∀ a i b, journalAfter start turns = a ++ i :: b → i.kind = .edit ∨ i.kind = .seal →
    ∃ old, latestRevision a i.subject = some old ∧ i.parent = some old.operation
  /-- The revisions of a draft are one chain of parents from the draft. -/
  chained : ∀ subject, List.IsChain (fun a b => b.kind = .edit ∧ b.parent = some a.operation)
      (revisionsOf (journalAfter start turns) subject) ∧
    ∀ i, (revisionsOf (journalAfter start turns) subject).head? = some i → i.kind = .draft ∧ i.operation = subject
  unforked : ∀ i ∈ journalAfter start turns, ∀ j ∈ journalAfter start turns, i.kind = .edit → j.kind = .edit →
    i.parent = j.parent → i = j
  sealed : ∀ i ∈ journalAfter start turns, ∀ j ∈ journalAfter start turns, i.kind = .seal → j.kind = .seal →
    i.subject = j.subject → i = j
  frozen : ∀ a i b, journalAfter start turns = a ++ i :: b → i.kind = .seal → ∀ j ∈ b, j.subject = i.subject →
    j.kind ≠ .edit
  cancelled : ∀ op, (cancelsOf op (apiRun start turns).state.tables).length ≤ 1
  /-- A call of `remember` that goes on from a state of a run, whatever the others do meanwhile. -/
  remembers : ∀ (api : Api) (e : Entry) (credential : Credential) (recovery : Bool),
    Leads StoreOp.exec apiLaw Drawn Settled
      (fun acts t answer => Remembered e (apiRun start turns).state acts t answer ∧
        Refuses e (apiRun start turns).state acts answer) (apiRun start turns).state
      (api.remembers e credential recovery).run
  /-- A call for the inputs of an intent that is there answers with it once its authority passes. -/
  repeats : ∀ (api : Api) (e : Entry), ∀ old ∈ journalAfter start turns, e.Of old → ∀ (credential : Credential)
    (recovery : Bool) (m : Moment), m.read = none → ∀ (es rest : List Moment) (t : Database OutboxTables)
    (authority : Authority),
    (api.authority (some credential) e.scope (if recovery then .sense else .drive)).run.run StoreOp.exec es
        (apiRun start turns).state = (t, some (.ok authority, rest)) →
      (api.remembers e credential recovery).run.run StoreOp.exec (m :: es) (apiRun start turns).state =
        (t, some (.ok old, rest))

end Runs

end Verdant.Api
