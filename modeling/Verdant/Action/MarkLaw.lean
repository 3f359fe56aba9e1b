import Verdant.Action.TerminalFinal

/-!
# Receipts of lifecycle marks

A ticket is replayed by its request text, so what a receipt proves depends on which requests can share a text.  Two
transitions with one request move one operation to one state, and no admission has the request of a transition.  Hence a
store's receipts never vouch for a mark its rows do not show (`MarkLaw`): where a mark has a receipt, its operation has
a row and has left `admitted`.
-/

namespace Verdant.Action

open Storage TextCodec

/-- The request of a transition ticket of the store `identity`. -/
def transitionRequest (identity : String) (operation : OperationId) (newState : LifecycleState) : String :=
  hexText (Shape.insert.debug ++ ":" ++ identity ++ ":" ++
    (guardedBatch "1" (fun _ => true) (transitionBody operation newState)).text)

theorem IsTransitionTicket.request {store : SqliteStore} {operation : OperationId} {newState : LifecycleState}
    {ticket : PreparedMutation JournalTables} (h : IsTransitionTicket store operation newState ticket) :
    ticket.request = transitionRequest store.identity operation newState := by
  rw [PreparedMutation.request, h.shape_eq, h.store_eq, h.body_eq]
  rfl

/-! ### Request texts -/

/-- Guarded batches with one text have bodies with one text. -/
theorem guardedBatch_text_inj {condition : String} {holds holds' : Session JournalTables → Bool}
    {body body' : Script JournalTables} (hbody : body ≠ []) (hbody' : body' ≠ [])
    (h : (guardedBatch condition holds body).text = (guardedBatch condition holds' body').text) :
    Script.text body = Script.text body' := by
  have hsplit (hold : Session JournalTables → Bool) {b : Script JournalTables} (hb : b ≠ []) :
      (guardedBatch condition hold b).text =
        Script.text (accessGuard condition hold) ++ " " ++ Script.text b ++ " " ++
          Script.text [selectLastInsertRowid JournalTables, selectChanges JournalTables] := by
    simp only [guardedBatch, Script.text, List.map_append]
    rw [String.intercalate_append_of_ne_nil (by simp [accessGuard]) (by simp),
      String.intercalate_append_of_ne_nil (by simp [accessGuard]) (by simpa using hb)]
  rw [hsplit holds hbody, hsplit holds' hbody'] at h
  have hguard : Script.text (accessGuard condition holds) = Script.text (accessGuard condition holds') := rfl
  rw [hguard, String.append_left_inj, String.append_left_inj, String.append_right_inj] at h
  exact h

theorem LifecycleState.asStr_injective : Function.Injective LifecycleState.asStr := by
  intro a b h
  have := LifecycleState.parse_asStr a
  rw [h, LifecycleState.parse_asStr] at this
  exact (Option.some.inj this).symm

theorem transitionBody_text (operation : OperationId) (newState : LifecycleState) :
    Script.text (transitionBody operation newState) =
      "INSERT INTO action_lifecycle(operation, attempt, state, updated, predecessor) SELECT " ++
        (sqlQuote operation.text ++ (", attempt, " ++ (sqlQuote newState.asStr ++ (", " ++ nowSql ++
          ", NULL FROM action_journal WHERE operation=" ++ sqlQuote operation.text ++
          " ON CONFLICT(operation) DO UPDATE SET state=excluded.state, updated=excluded.updated;")))) := by
  simp only [transitionBody, Script.text, upsertLifecycle, Statement.onTables, List.map_cons, List.map_nil,
    String.intercalate_singleton, toString, String.append_assoc]
  rfl

theorem LifecycleState.asStr_unquoted (state : LifecycleState) : '\'' ∉ state.asStr.toList := by
  cases state <;> decide

theorem transitionBody_text_inj {operation operation' : OperationId} {newState newState' : LifecycleState}
    (h : Script.text (transitionBody operation newState) = Script.text (transitionBody operation' newState')) :
    operation = operation' ∧ newState = newState' := by
  rw [transitionBody_text, transitionBody_text, String.append_right_inj] at h
  obtain ⟨hoperation, hrest⟩ := sqlQuote_append_inj operation.valid.unquoted operation'.valid.unquoted h
  rw [String.append_right_inj] at hrest
  obtain ⟨hstate, -⟩ := sqlQuote_append_inj newState.asStr_unquoted newState'.asStr_unquoted hrest
  exact ⟨OperationId.ext_text hoperation, LifecycleState.asStr_injective hstate⟩

theorem request_text_inj {identity : String} {text text' : String}
    (h : hexText (Shape.insert.debug ++ ":" ++ identity ++ ":" ++ text) =
      hexText (Shape.insert.debug ++ ":" ++ identity ++ ":" ++ text')) : text = text' := by
  have := hexText_injective h
  rwa [String.append_right_inj] at this

theorem transitionRequest_inj {identity : String} {operation operation' : OperationId}
    {newState newState' : LifecycleState}
    (h : transitionRequest identity operation newState = transitionRequest identity operation' newState') :
    operation = operation' ∧ newState = newState' :=
  transitionBody_text_inj (guardedBatch_text_inj (by simp [transitionBody]) (by simp [transitionBody])
    (request_text_inj h))

theorem createGuard_text (table constraint : String) :
    ∃ rest, (createGuard table constraint : Statement JournalTables).text = "CREATE TEMP TABLE " ++ rest := by
  refine ⟨table ++ ("(ok INTEGER NOT NULL CONSTRAINT " ++ (constraint ++ " CHECK(ok=1));")), ?_⟩
  rw [← String.append_assoc, ← String.append_assoc, ← String.append_assoc]
  unfold createGuard
  exact Eq.refl _

theorem text_cons (statement : Statement JournalTables) (script : Script JournalTables) :
    ∃ rest, Script.text (statement :: script) = statement.text ++ rest := by
  cases script with
  | nil => exact ⟨"", by simp [Script.text]⟩
  | cons next script =>
    refine ⟨" " ++ Script.text (next :: script), ?_⟩
    rw [Script.text, List.map_cons, String.intercalate_cons_of_ne_nil (by simp), String.append_assoc]
    rfl

theorem admissionBodyV2_text (a : Admission) :
    ∃ rest, Script.text (admissionBodyV2 a) = "CREATE TEMP TABLE " ++ rest := by
  obtain ⟨more, hmore⟩ := text_cons (createGuard "admission_generation" "admission_generation")
    ((generationGuard a).tail ++ (if a.identity.kind = .set then rateGuard a else []) ++
      [insertJournal a, upsertTarget a.scope a.equipment a.targetGeneration, insertLifecycle a])
  obtain ⟨rest, hrest⟩ := createGuard_text "admission_generation" "admission_generation"
  refine ⟨rest ++ more, ?_⟩
  rw [← String.append_assoc, ← hrest]
  exact hmore

/-- No admission has the request of a transition of the same store: the first creates a guard, the second inserts. -/
theorem ticket_request_ne_transition {a : Admission} {store : SqliteStore} {operation : OperationId}
    {newState : LifecycleState} : (a.ticket store).request ≠ transitionRequest store.identity operation newState := by
  intro h
  have htext := guardedBatch_text_inj (by simp [admissionBodyV2, generationGuard]) (by simp [transitionBody])
    (request_text_inj h)
  obtain ⟨rest, hrest⟩ := admissionBodyV2_text a
  rw [hrest, transitionBody_text] at htext
  have hheads := congrArg (fun s => s.toList.head?) htext
  simp [String.toList_append] at hheads

/-! ### The law -/

/-- The operation has a row and has left `admitted`. -/
def Left (operation : OperationId) (tables : JournalTables) : Prop :=
  tables.findJournal operation.text ≠ none ∧ tables.lifecycleState operation.text ≠ .admitted

/-- The receipt of a mark belongs to an operation that left `admitted`. -/
def MarkLaw (identity : String) (db : Database JournalTables) : Prop :=
  ∀ receipt ∈ db.receipts, ∀ operation newState, newState ≠ .admitted →
    receipt.request = transitionRequest identity operation newState → Left operation db.tables

/-- The operations of the joined calls: admissions and marks of the store `identity`, and no mark back to `admitted`. -/
def JoinedOp (identity : String) : StoreOp JournalTables → Prop
  | .submit _ ticket =>
    (∃ (a : Admission) (store : SqliteStore), store.identity = identity ∧ a.Checked ∧ ticket = a.ticket store) ∨
      ∃ (store : SqliteStore) (operation : OperationId) (newState : LifecycleState), store.identity = identity ∧
        newState ≠ .admitted ∧ IsTransitionTicket store operation newState ticket
  | _ => True

theorem Left.admitted {operation : OperationId} {before after : JournalTables} {a : Admission} {guardNow created : Int}
    (h : Left operation before) (hadmits : Admits a guardNow created before after) : Left operation after := by
  obtain ⟨updated, rfl⟩ := hadmits.after_eq
  obtain ⟨r, hr⟩ := Option.ne_none_iff_exists'.1 h.1
  have hne : a.operation.text ≠ operation.text := by
    intro hsame
    rw [← hsame, hadmits.fresh] at hr
    exact nomatch hr
  refine ⟨?_, ?_⟩
  · rw [JournalTables.findJournal_admitted hr]
    simp
  · rw [JournalTables.lifecycleState_admitted hne]
    exact h.2

theorem Left.moved {operation moved : OperationId} {before after : JournalTables} {newState : LifecycleState}
    (h : Left operation before) (hne : newState ≠ .admitted) (htransits : Transits moved newState before after) :
    Left operation after := by
  refine ⟨?_, ?_⟩
  · obtain ⟨journal, updated, -, rfl⟩ := htransits
    exact h.1
  · rw [htransits.lifecycleState]
    split
    · exact hne
    · exact h.2

/-- No operation of a joined call brings an operation back to `admitted`. -/
theorem Left.exec {identity : String} {operation : OperationId} {op : StoreOp JournalTables} (hop : JoinedOp identity op)
    (m : Moment) {db : Database JournalTables} (h : Left operation db.tables) :
    Left operation (op.exec m db).1.tables := by
  cases op with
  | submit store ticket =>
    rcases hop with ⟨a, store', -, -, rfl⟩ | ⟨store', moved, newState, -, hne, hticket⟩
    · rcases submit_admission store store' a m.host db with hsame | ⟨-, hadmits, -⟩
      · simp only [StoreOp.exec, hsame]
        exact h
      · exact h.admitted hadmits
    · rcases submit_transition store hticket m.host db with hsame | ⟨-, htransits, -⟩
      · simp only [StoreOp.exec, hsame]
        exact h
      · exact h.moved hne htransits
  | draw | reconcile | reconcileOperation | read | wall | poll => exact h

theorem MarkLaw.exec {identity : String} {op : StoreOp JournalTables} (hop : JoinedOp identity op) (m : Moment)
    {db : Database JournalTables} (h : MarkLaw identity db) : MarkLaw identity (op.exec m db).1 := by
  have hkeep : ∀ receipt ∈ db.receipts, ∀ operation newState, newState ≠ .admitted →
      receipt.request = transitionRequest identity operation newState → Left operation (op.exec m db).1.tables :=
    fun receipt hreceipt operation newState hne hrequest =>
      Left.exec hop m (h receipt hreceipt operation newState hne hrequest)
  cases op with
  | submit store ticket =>
    rcases hop with ⟨a, store', hstore, -, rfl⟩ | ⟨store', moved, movedTo, hstore, hne, hticket⟩
    · rcases submit_admission store store' a m.host db with hsame | ⟨-, -, response, hreceipts⟩
      · simp only [StoreOp.exec, hsame]
        exact h
      · intro receipt hreceipt operation newState hnew hrequest
        simp only [StoreOp.exec, hreceipts, List.mem_append, List.mem_singleton] at hreceipt
        rcases hreceipt with hreceipt | rfl
        · exact hkeep receipt hreceipt operation newState hnew hrequest
        · rw [← hstore] at hrequest
          exact absurd hrequest ticket_request_ne_transition
    · rcases submit_transition store hticket m.host db with hsame | ⟨-, htransits, response, hreceipts⟩
      · simp only [StoreOp.exec, hsame]
        exact h
      · intro receipt hreceipt operation newState hnew hrequest
        simp only [StoreOp.exec, hreceipts, List.mem_append, List.mem_singleton] at hreceipt
        rcases hreceipt with hreceipt | rfl
        · exact hkeep receipt hreceipt operation newState hnew hrequest
        · -- the receipt of this very mark
          rw [hticket.request, hstore] at hrequest
          obtain ⟨rfl, rfl⟩ := transitionRequest_inj hrequest
          refine ⟨?_, ?_⟩
          · obtain ⟨journal, updated, hjournal, hafter⟩ := htransits
            simp only [StoreOp.exec, hafter]
            intro hnone
            have hsame := hjournal.symm.trans hnone
            cases hsame
          · simp only [StoreOp.exec]
            rw [htransits.lifecycleState, if_pos rfl]
            exact hnew
  | draw | reconcile | reconcileOperation | read | wall | poll => exact h

/-- A store of the joined calls: every receipt of a mark is borne out by the rows. -/
structure JournalStore (identity : String) where
  db : Database JournalTables
  marks : MarkLaw identity db

/-- A store without receipts. -/
def JournalStore.fresh (identity : String) (tables : JournalTables) : JournalStore identity where
  db := ⟨tables, []⟩
  marks := fun _ hreceipt => nomatch hreceipt

/-! ### The calls -/

theorem admitRequest_joined (store : SqliteStore) (request : AdmissionRequest) :
    (admitRequest store request).Issues (JoinedOp store.identity) := by
  unfold admitRequest
  refine Prog.Issues.bind (Prog.issues_issue trivial) fun id => ?_
  split
  · exact trivial
  · rename_i pending hprepare
    obtain ⟨hcheck, hticket⟩ := prepareWithPredecessor_eq_ok hprepare
    obtain ⟨hchecked, -, -⟩ := AdmissionRequest.check_eq_ok hcheck
    exact submitAdmission_issues (fun _ => trivial) trivial (.inl ⟨pending.admission, store, rfl, hchecked, hticket⟩)

theorem transition_joined (store : SqliteStore) (operation : OperationId) (scope : TrustedScope)
    {newState : LifecycleState} (hne : newState ≠ .admitted) :
    (transition store operation scope newState).Issues (JoinedOp store.identity) :=
  transition_issues (fun _ => trivial) trivial fun ticket hticket =>
    .inr ⟨store, operation, newState, rfl, hne, hticket⟩

/-! ### The mark -/

section Mark

variable {E : Moment → Prop} {store : SqliteStore} {operation : OperationId} {scope : TrustedScope}
  {newState : LifecycleState} {db db' : Database JournalTables} {found : Admitted}

/-- A transition that wrote from `admitted` left its operation in the new state. -/
theorem runs_writeTransition (hlaw : MarkLaw store.identity db) (hne : newState ≠ .admitted)
    (hadmitted : db.tables.lifecycleState operation.text = .admitted)
    (h : Prog.Runs StoreOp.exec E (writeTransition store operation scope newState) db db' (some (.ok found))) :
    Left operation db'.tables ∧ db'.tables.lifecycleState operation.text = newState := by
  rcases Prog.runs_call.1 h with ⟨-, hnone⟩ | ⟨m, -, h⟩
  · cases hnone
  simp only [StoreOp.exec, Prog.bind] at h
  split at h
  · obtain ⟨-, hresult⟩ := Prog.runs_done.1 h
    cases hresult
  rename_i ticket hprepare
  have hticket := isTransitionTicket_of_prepare hprepare
  rcases Prog.runs_call.1 h with ⟨-, hnone⟩ | ⟨m', -, h⟩
  · cases hnone
  simp only [StoreOp.exec] at h
  have hcommitted : ∃ id rows, (submit store ticket m'.host db).2 = .committed id rows := by
    cases hanswer : (submit store ticket m'.host db).2 with
    | committed id rows => exact ⟨id, rows, rfl⟩
    | notCommitted | conflict | unknown =>
      rw [hanswer] at h
      have hresult := (Prog.runs_done.1 h).2
      cases hresult
  obtain ⟨id, rows, hanswer⟩ := hcommitted
  rw [hanswer] at h
  obtain ⟨rfl, -⟩ := runs_readRow h
  -- the receipt of the answer vouches for the row
  obtain ⟨receipt, hreceipt, -, hrequest⟩ := submit_committed hanswer
  have hop : JoinedOp store.identity (.submit store ticket) := .inr ⟨store, operation, newState, rfl, hne, hticket⟩
  have hleft : Left operation (submit store ticket m'.host db).1.tables :=
    MarkLaw.exec hop m' hlaw receipt hreceipt operation newState hne (hrequest.trans hticket.request)
  refine ⟨hleft, ?_⟩
  rcases submit_transition store hticket m'.host db with hsame | ⟨-, htransits, -⟩
  · rw [hsame] at hleft
    exact absurd hadmitted hleft.2
  · rw [htransits.lifecycleState, if_pos rfl]

/-- A mark that answered left its operation dispatched, with a row. -/
theorem runs_markDispatched (hlaw : MarkLaw store.identity db)
    (hadmitted : db.tables.lifecycleState operation.text = .admitted)
    (h : Prog.Runs StoreOp.exec E (markDispatched store operation scope) db db' (some (.ok found))) :
    Left operation db'.tables ∧ db'.tables.lifecycleState operation.text = .dispatched := by
  rcases Prog.runs_bind h with ⟨-, hnone⟩ | ⟨answer, u, hread, hrest⟩
  · exact nomatch hnone
  obtain ⟨rfl, hanswer⟩ := runs_readRow hread
  rcases hanswer with hnone | ⟨m, -, hanswer⟩
  · exact nomatch hnone
  have hanswer := Option.some.inj hanswer
  cases answer with
  | error e => exact nomatch (Prog.runs_done.1 hrest).2
  | ok current =>
    have hcurrent : current.lifecycle = .admitted := (readAnswer_lifecycle hanswer.symm).trans hadmitted
    simp only [hcurrent] at hrest
    exact runs_writeTransition hlaw (by decide) hadmitted hrest

end Mark

end Verdant.Action
