import Verdant.Access.GateLaw
import Verdant.Api.Operations
import Verdant.Api.Recovery
import Verdant.Api.Remember

/-!
# The calls of the coordinator keep the journal

Every call authenticates and reads, asks `remember` for an entry, and hands the rest to the owners, whose work is foreign
to the journal.  The entry is well formed by how the calls come by it: a draft names itself, an edit or a seal names a
revision it has read, and whatever was read of the journal is an operation of the API.
-/

namespace Verdant.Api

open TextCodec Storage Access Binding Prog

/-! ### Calls under the law -/

/-- Whatever the others do, the call keeps the journal, and its value has `P`. -/
def Obeys {ε α : Type} (call : Try (StoreOp.Answer (ρ := OutboxTables)) ε α) (P : α → Prop) : Prop :=
  ∀ s, Kept s → Keeps StoreOp.exec apiLaw Drawn Settled (onResult (fun _ _ => True) fun _ a => P a) s call.run

section Rules

variable {ε ε' α β : Type} {P : α → Prop} {Q : β → Prop}

theorem Obeys.bind {x : Try (StoreOp.Answer (ρ := OutboxTables)) ε α}
    {f : α → Try (StoreOp.Answer (ρ := OutboxTables)) ε β} (hx : Obeys x P) (hf : ∀ a, P a → Obeys (f a) Q) :
    Obeys (x >>= f) Q := by
  intro s hs
  refine Keeps.tryBind (hx s hs) fun t a hst ha => ?_
  exact hf a (ha t (apiLaw.refl t)) t (hst hs).1

theorem Obeys.mono {x : Try (StoreOp.Answer (ρ := OutboxTables)) ε α} {P' : α → Prop} (hx : Obeys x P)
    (h : ∀ a, P a → P' a) : Obeys x P' := by
  intro s hs
  refine (hx s hs).mono fun t answer _ hanswer => ?_
  have hnow := hanswer t (apiLaw.refl t)
  cases answer with
  | error e => exact trivial
  | ok a => exact h a hnow

theorem Obeys.forget {x : Try (StoreOp.Answer (ρ := OutboxTables)) ε α} (hx : Obeys x P) : Obeys x fun _ => True :=
  hx.mono fun _ _ => trivial

theorem Obeys.mapErr {f : ε → ε'} {x : Try (StoreOp.Answer (ρ := OutboxTables)) ε α} (hx : Obeys x P) :
    Obeys (Prog.mapErr f x) P :=
  fun s hs => Keeps.mapErr (hx s hs) fun _ _ _ _ => trivial

theorem obeys_check {x : Except ε α} : Obeys (check x) fun a => x = .ok a := by
  intro s _
  refine keeps_check fun t _ => ?_
  cases x with
  | error e => exact trivial
  | ok a => exact rfl

theorem obeys_pure {a : α} (h : P a) : Obeys (pure a : Try (StoreOp.Answer (ρ := OutboxTables)) ε α) P :=
  fun _ _ => keeps_done fun _ _ => h

theorem obeys_throw (e : ε) : Obeys (throw e : Try (StoreOp.Answer (ρ := OutboxTables)) ε α) P :=
  fun _ _ => keeps_done fun _ _ => trivial

/-- Work of the owners. -/
theorem obeys_foreign {x : Try (StoreOp.Answer (ρ := OutboxTables)) ε α} (hx : x.run.Issues Foreign) :
    Obeys x fun _ => True := by
  intro s hs
  refine (keeps_foreign hx hs).mono fun t answer _ _ => ?_
  cases answer <;> exact trivial

theorem NoSubmit.foreign {op : StoreOp OutboxTables} (h : NoSubmit op) : Foreign op := by
  cases op with
  | submit => exact h.elim
  | draw | reconcile | reconcileOperation | read | wall | poll => exact trivial

theorem obeys_noSubmit {x : Try (StoreOp.Answer (ρ := OutboxTables)) ε α} (hx : x.run.Issues NoSubmit) :
    Obeys x fun _ => True := obeys_foreign (hx.mono fun _ => NoSubmit.foreign)

end Rules

/-! ### Work of the access and the binding owners -/

theorem isApiRow_of_ne {row : NewRow} (hevent : row.operation ≠ eventText) (hcancel : row.operation ≠ cancelText)
    (n : Nat) : isApiRow (row.record n) = false := by
  have hop : (row.record n).operation = row.operation := rfl
  unfold isApiRow
  rw [hop]
  simp [hevent, hcancel]

/-- Rows of the access owner. -/
theorem otherOwner_admission {count : Nat} {records : List AdmissionRecord} {script : Script OutboxTables} {total : Nat}
    (hscript : admissionScript count 0 0 records = .ok (script, total))
    (hrecords : ∀ r ∈ records, likePrefix "access-" r.operation = true) {expires : Option Int64}
    {pending : PreparedMutation OutboxTables} {condition : String} {holds : Session OutboxTables → Bool}
    (hbody : pending.body = guardedBatch condition holds (Access.liveGuard expires ++ script)) :
    OtherOwner isApiRow pending := by
  refine .of_guarded hbody fun u v inner hrun => ?_
  obtain ⟨w, first, more, hlive, hrows, -⟩ := Script.run_append_ok.1 hrun
  obtain ⟨hwu, -⟩ := Access.liveGuard_run hlive
  obtain ⟨hreceipts, rows, happended, hcolumns⟩ := admissionScript_run hscript hrows
  have htables : w.tables = u.tables := congrArg Database.tables hwu
  have hstored : w.receipts = u.receipts := congrArg Database.receipts hwu
  rw [htables] at happended
  refine ⟨hreceipts.trans hstored, rows, happended, fun row hrow n => ?_⟩
  have hmem := List.mem_map_of_mem (f := NewRow.columns) hrow
  rw [hcolumns] at hmem
  obtain ⟨record, hrecord, hsame⟩ := List.mem_map.1 hmem
  have hop : record.operation = row.operation := congrArg Prod.fst hsame
  have hlike := hrecords record hrecord
  rw [hop] at hlike
  refine isApiRow_of_ne ?_ ?_ n
  · intro h
    rw [h] at hlike
    exact absurd hlike (by decide)
  · intro h
    rw [h] at hlike
    exact absurd hlike (by decide)

/-- A batch of the access owner under the identity its process draws. -/
theorem obeys_batch (gate : AccessGate) (state : State) (rows : List Admission) (expires : Option Int64) :
    Obeys (gate.batch state (rows.map Admission.toRecord) expires) fun pending =>
      OtherOwner isApiRow pending ∧ isApiTicket pending.operation.text = false := by
  intro s _
  unfold AccessGate.batch
  refine Keeps.checkBind (fun _ _ _ _ => trivial) fun ⟨script, total⟩ hscript => ?_
  refine Keeps.liftBind (P := fun _ id => startsWith "storage-" id = true) ?_ fun t id _ hid => keeps_check fun u _ => ?_
  · exact keeps_look (fun _ _ => rfl) (fun _ _ _ => settled_of_eq rfl) fun _ _ m hm _ _ => hm
  · cases hpending : prepareGuardedBatch gate.store id state.guard.text (fun s => state.guard.holds s.tables)
        (Access.liveGuard expires ++ script) total with
    | error e => exact trivial
    | ok pending =>
      obtain ⟨htext, heq⟩ := prepareGuardedBatch_eq_ok hpending
      refine ⟨otherOwner_admission hscript ?_ (congrArg PreparedMutation.body heq), ?_⟩
      · intro r hr
        obtain ⟨row, -, rfl⟩ := List.mem_map.1 hr
        exact isAdmission_operation row
      · rw [htext]
        exact isApiTicket_drawn (hid t (apiLaw.refl t))

theorem obeys_submit (gate : AccessGate) {pending : PreparedMutation OutboxTables}
    (h : OtherOwner isApiRow pending ∧ isApiTicket pending.operation.text = false) :
    Obeys (gate.submit pending) fun _ => True := by
  refine obeys_foreign ?_
  exact Issues.tryBind (issues_lift (issues_issue h)) fun _ => issues_check

theorem obeys_issueWithPolicy (gate : AccessGate) (capability : CapabilityName) (scope : TrustedScope) (ceiling : UInt8)
    (role : RoleKind) (keyId : KeyId) (key : SyntheticKey) (administrator : Credential) (reason : Reason)
    (label : DisplayLabel) (policy : CapabilityPolicy) :
    Obeys (gate.issueWithPolicy capability scope ceiling role keyId key administrator reason label policy)
      fun _ => True := by
  unfold AccessGate.issueWithPolicy
  refine (obeys_noSubmit (read_noSubmit _)).bind fun state _ => ?_
  refine (obeys_noSubmit (checked_noSubmit _ _ _ _)).bind fun admin _ => ?_
  refine obeys_check.bind fun bound _ => ?_
  refine obeys_check.bind fun _ _ => ?_
  refine (obeys_noSubmit nowMs_noSubmit).bind fun now _ => ?_
  refine obeys_check.bind fun _ _ => ?_
  split
  · exact obeys_throw _
  · have hrow := obeys_batch gate state [.issue (gate.issueRow ⟨capability, keyId, key⟩ scope ceiling role reason label
      policy)] (earliest admin.policy.expiresAtMs policy.expiresAtMs)
    refine Obeys.bind hrow fun pending hpending => ?_
    exact (obeys_submit gate hpending).bind fun _ _ => obeys_pure trivial

theorem obeys_rotate (gate : AccessGate) (current : Credential) (newKeyId : KeyId) (newKey : SyntheticKey)
    (reason : Reason) : Obeys (gate.rotate current newKeyId newKey reason) fun _ => True := by
  unfold AccessGate.rotate
  refine (obeys_noSubmit (read_noSubmit _)).bind fun state _ => ?_
  refine (obeys_noSubmit (checked_noSubmit _ _ _ _)).bind fun row _ => ?_
  refine obeys_check.bind fun next _ => ?_
  split
  · exact obeys_throw _
  · have hrows := obeys_batch gate state [.revoke (gate.revokeRow row reason),
      .issue (row.successor next newKeyId newKey reason)] row.policy.expiresAtMs
    refine Obeys.bind hrows fun pending hpending => ?_
    exact (obeys_submit gate hpending).bind fun _ _ => obeys_pure trivial

/-- A row of the binding owner under a persisted identity. -/
theorem obeys_prepareRow (registry : BindingRegistry) (operation : OperationId) {kind : String}
    (hevent : kind ≠ eventText) (hcancel : kind ≠ cancelText) (entity : InstalledId) (text : String)
    (authority : Option Authority) :
    Obeys (registry.prepareRow operation kind entity text authority) fun ticket =>
      OtherOwner isApiRow ticket ∧ ticket.operation = operation := by
  intro s _
  unfold BindingRegistry.prepareRow
  refine Keeps.checkBind (fun _ _ _ _ => trivial) fun seq _ => ?_
  refine Keeps.liftBind (P := fun _ _ => True) ?_ fun t id _ _ => ?_
  · exact keeps_look (fun _ _ => rfl) (fun _ _ _ => settled_of_eq rfl) fun _ _ _ _ _ _ => trivial
  refine Keeps.checkBind (fun _ _ _ _ => trivial) fun pending hpending => keeps_done fun _ _ => ⟨?_, rfl⟩
  rw [Result.mapError_eq_ok] at hpending
  obtain ⟨-, heq⟩ := prepareGuardedBatch_eq_ok hpending
  have hbody : (pending.withOperation operation).body = pending.body := rfl
  refine .of_guarded (hbody.trans (congrArg PreparedMutation.body heq)) fun u v inner hrun => ?_
  obtain ⟨hreceipts, happended⟩ := bindingScript_run hrun
  refine ⟨hreceipts, _, happended, fun row hrow n => ?_⟩
  rw [List.mem_singleton.1 hrow]
  exact isApiRow_of_ne hevent hcancel n

/-- A finding under an identity that is not one of the coordinators' tickets. -/
theorem obeys_emitFindingOperation (registry : BindingRegistry) {operation : OperationId}
    (hop : isApiTicket operation.text = false) (revision : BindingRevision) (gate : AccessGate)
    (binding : ProposedBinding) (credential : Credential) (paths : CanonicalPaths) :
    Obeys (registry.emitFindingOperation operation revision gate binding credential paths) fun _ => True := by
  unfold BindingRegistry.emitFindingOperation
  refine (obeys_noSubmit registry.replay_noSubmit).bind fun fresh _ => ?_
  have hreconcile : (liftM (Call.reconcileOperation fresh.store operation : Call OutboxTables MutationOutcome) :
      BindingCall MutationOutcome).run.Issues NoSubmit := issues_lift (issues_issue trivial)
  refine (obeys_noSubmit hreconcile).bind fun outcome _ => ?_
  split
  · unfold BindingRegistry.dispatchFinding
    refine obeys_check.bind fun _ _ => ?_
    refine obeys_check.bind fun _ _ => ?_
    refine obeys_check.bind fun _ _ => ?_
    refine (obeys_noSubmit (authority_noSubmit _ _ _ _ _)).bind fun authority _ => ?_
    refine (obeys_prepareRow fresh operation (by decide) (by decide) _ _ _).bind fun ticket hticket => ?_
    obtain ⟨hown, hid⟩ := hticket
    have hforeign : Foreign (.submit fresh.store ticket) := ⟨hown, by rw [hid]; exact hop⟩
    have hsubmit : (fresh.submitRow ticket).run.Issues Foreign :=
      Issues.tryBind (issues_lift (issues_issue hforeign)) fun _ => issues_check
    refine (obeys_foreign hsubmit).bind fun _ _ => ?_
    exact (Obeys.mapErr (obeys_noSubmit fresh.replay_noSubmit)).bind fun _ _ => obeys_pure trivial
  · refine obeys_check.bind fun rowId _ => ?_
    have hread : (BindingRegistry.committedDescriptor rowId operation opFindingText).run.Issues NoSubmit :=
      Issues.tryBind (Issues.mapErr (issues_issue trivial)) fun _ => issues_check
    refine (obeys_noSubmit hread).bind fun map _ => ?_
    exact obeys_check.bind fun _ _ => obeys_pure trivial

/-! ### Reads of the coordinator -/

/-- What an intent that was read names is of the API. -/
structure Listed (op : OperationId) (i : Intent) : Prop where
  operation : i.operation = op
  api : IsApi i.operation
  subject : IsApi i.subject

theorem readRows_noSubmit (query : Query OutboxTables) : (readRows query).run.Issues NoSubmit :=
  Issues.mapErr (issues_issue trivial)

theorem obeys_findIntent (scope : TrustedScope) (op : OperationId) : Obeys (findIntent scope op) (Listed op) := by
  have hread : Obeys (intents scope) fun history => ∀ i ∈ history, ∃ row, Intent.decode row = .ok i := by
    unfold intents
    refine (obeys_noSubmit (readRows_noSubmit _)).bind fun rows _ => ?_
    split
    · exact obeys_throw _
    · exact obeys_check.mono fun history hhistory i hi => (mem_joinIntents hhistory i hi).2
  unfold findIntent
  refine hread.bind fun history hhistory => ?_
  cases hfind : history.find? fun i => decide (i.operation = op) with
  | none => exact obeys_throw _
  | some i =>
    obtain ⟨row, hrow⟩ := hhistory i (List.mem_of_find?_eq_some hfind)
    obtain ⟨-, -, -, -, -, -, hapi, hsubject, -⟩ := Intent.decode_eq_ok hrow
    exact obeys_pure ⟨by simpa using List.find?_some hfind, hapi, hsubject⟩

theorem findIntent_noSubmit (scope : TrustedScope) (op : OperationId) : (findIntent scope op).run.Issues NoSubmit := by
  have hintents : (intents scope).run.Issues NoSubmit := by
    unfold intents
    refine Issues.tryBind (readRows_noSubmit _) fun rows => ?_
    split
    · exact trivial
    · exact issues_check
  refine Issues.tryBind hintents fun history => ?_
  split <;> exact trivial

theorem cancelled_noSubmit (intent : Intent) : (cancelled intent).run.Issues NoSubmit := by
  unfold cancelled
  refine Issues.tryBind (readRows_noSubmit _) fun rows => ?_
  split <;> exact trivial

theorem dispatchable_noSubmit (intent : Intent) : (dispatchable intent).run.Issues NoSubmit := by
  unfold dispatchable
  refine Issues.tryBind (cancelled_noSubmit intent) fun stopped => ?_
  split <;> exact trivial

theorem authenticate_noSubmit (api : Coordinator) (credential : Option Credential) (scope : TrustedScope) (write : Bool) :
    (api.authenticate credential scope write).run.Issues NoSubmit := by
  unfold Coordinator.authenticate
  refine Issues.tryBind (Issues.mapErr (api.gate.authenticate_noSubmit credential scope)) fun actor => ?_
  split
  · exact trivial
  · refine Issues.tryBind (Issues.mapErr ?_) fun _ => trivial
    split <;> exact api.gate.enter_noSubmit credential scope _

section Calls

variable (api : Api) (owners : Owners)

theorem obeys_authenticate (credential : Option Credential) (scope : TrustedScope) (write : Bool) :
    Obeys (api.authenticate credential scope write) fun _ => True :=
  obeys_noSubmit (authenticate_noSubmit api.toCoordinator credential scope write)

theorem effectRow_noSubmit (op : OperationId) : (api.effectRow op).run.Issues NoSubmit :=
  Issues.tryBind (issues_lift (issues_issue trivial)) fun _ => issues_check

theorem obeys_requireCredential (credential : Option Credential) : Obeys (requireCredential credential) fun _ => True := by
  cases credential with
  | none => exact obeys_throw _
  | some credential => exact obeys_pure trivial

theorem obeys_owner {α : Type} (call : OwnerCall α) (error : String → ApiError) :
    Obeys (call.run error) fun _ => True := obeys_foreign (Issues.mapErr call.2)

theorem obeys_remember (e : Entry) (credential : Credential) (recovery : Bool) :
    Obeys (api.remember credential e.scope e.op e.kind e.subject e.parent e.request recovery) e.Of := by
  intro s hs
  refine (leads_remember api e credential recovery hs).keeps fun acts t answer _ h => ?_
  cases answer with
  | error error => exact trivial
  | ok i => exact (h.told i rfl).2

/-! ### Drafts -/

/-- A revision that was read is of the API. -/
structure DraftRevision.Listed (op : OperationId) (draft : DraftRevision) : Prop where
  operation : draft.operation = op
  api : IsApi draft.operation
  subject : IsApi draft.draft

theorem obeys_readRevision {op : OperationId} {intent : Intent} (h : Listed op intent) :
    Obeys (api.readRevision owners intent) (DraftRevision.Listed op) := by
  unfold Api.readRevision
  split
  · exact obeys_throw _
  refine obeys_check.bind fun stageOp _ => ?_
  refine (obeys_noSubmit (effectRow_noSubmit api stageOp)).bind fun row _ => ?_
  cases row with
  | none => exact obeys_throw _
  | some row =>
    refine (obeys_noSubmit (readRows_noSubmit _)).bind fun rows _ => ?_
    split
    · exact obeys_throw _
    refine (obeys_owner (owners.readStaged stageOp) _).bind fun config _ => ?_
    split
    · exact obeys_throw _
    · exact obeys_pure ⟨h.operation, h.api, h.subject⟩

theorem obeys_read (credential : Option Credential) (scope : TrustedScope) (op : OperationId) :
    Obeys (api.read owners credential scope op) (DraftRevision.Listed op) := by
  unfold Api.read
  refine (obeys_authenticate api credential scope false).bind fun _ _ => ?_
  exact (obeys_findIntent scope op).bind fun intent hintent => obeys_readRevision api owners hintent

theorem obeys_writeDraft (credential : Option Credential) (op : OperationId) (old : Option DraftRevision)
    (hold : ∀ draft ∈ old, IsApi draft.operation ∧ IsApi draft.draft) (content : DraftContent) :
    Obeys (api.writeDraft owners credential op old content) fun _ => True := by
  unfold Api.writeDraft
  refine (obeys_authenticate api credential _ true).bind fun _ _ => ?_
  refine (obeys_requireCredential credential).bind fun held _ => ?_
  refine obeys_check.bind fun request _ => ?_
  -- a draft names itself, an edit the revision that was read
  have hentry : Obeys (api.remember held (content.config.scope) op (if old.isSome then .edit else .draft)
      (old.elim op DraftRevision.draft) (old.map DraftRevision.operation) request false) fun _ => True := by
    cases old with
    | none =>
      exact (obeys_remember api ⟨content.config.scope, op, .draft, op, none, request, fun _ => ⟨rfl, rfl⟩,
        .inl rfl, fun p hp => nomatch hp⟩ held false).forget
    | some draft =>
      obtain ⟨hapi, hsubject⟩ := hold draft rfl
      refine (obeys_remember api ⟨content.config.scope, op, .edit, draft.draft, some draft.operation, request,
        fun h => (nomatch h), .inr hsubject, ?_⟩ held false).forget
      rintro p ⟨⟩
      exact hapi
  refine hentry.bind fun event _ => ?_
  refine obeys_check.bind fun stageOp _ => ?_
  refine (obeys_noSubmit (effectRow_noSubmit api stageOp)).bind fun row _ => ?_
  split
  · refine (obeys_noSubmit (dispatchable_noSubmit event)).bind fun _ _ => ?_
    refine obeys_check.bind fun roots _ => ?_
    refine (obeys_owner (owners.stage stageOp content.config roots) _).bind fun _ _ => ?_
    exact (obeys_read api owners _ _ _).forget
  · exact (obeys_read api owners _ _ _).forget

theorem obeys_edit (credential : Option Credential) (op parent : OperationId) (content : DraftContent) :
    Obeys (api.edit owners credential op parent content) fun _ => True := by
  unfold Api.edit
  refine (obeys_read api owners credential _ parent).bind fun old hold => ?_
  refine obeys_writeDraft api owners credential op (some old) ?_ content
  rintro draft ⟨⟩
  exact ⟨hold.api, hold.subject⟩

/-! ### Seals and acceptances -/

theorem obeys_sealEffect (intent : Intent) : Obeys (api.sealEffect owners intent) fun _ => True := by
  unfold Api.sealEffect
  split
  · exact obeys_throw _
  refine obeys_check.bind fun op _ => ?_
  refine (obeys_noSubmit (effectRow_noSubmit api op)).bind fun row _ => ?_
  cases row with
  | none => exact obeys_pure trivial
  | some row =>
    refine (obeys_noSubmit (readRows_noSubmit _)).bind fun rows _ => ?_
    exact obeys_check.bind fun digest _ => obeys_owner (owners.reconcileSeal op digest) _

theorem obeys_seal (credential : Option Credential) (scope : TrustedScope) (op revision : OperationId)
    (publication : Publication) : Obeys (api.seal owners credential scope op revision publication) fun _ => True := by
  unfold Api.seal
  refine (obeys_authenticate api credential scope true).bind fun _ _ => ?_
  refine (obeys_requireCredential credential).bind fun held _ => ?_
  refine (obeys_read api owners (some held) scope revision).bind fun draft hdraft => ?_
  refine obeys_check.bind fun request _ => ?_
  have hparent : ∀ p ∈ some revision, IsApi p := by
    rintro p ⟨⟩
    exact hdraft.operation ▸ hdraft.api
  refine (obeys_remember api ⟨scope, op, .seal, draft.draft, some revision, request, fun h => (nomatch h),
    .inr hdraft.subject, hparent⟩ held false).bind fun intent _ => ?_
  refine (obeys_sealEffect api owners intent).bind fun commit _ => ?_
  cases commit with
  | some commit => exact obeys_pure trivial
  | none =>
    refine (obeys_noSubmit (dispatchable_noSubmit intent)).bind fun _ _ => ?_
    refine obeys_check.bind fun stageOp _ => ?_
    refine obeys_check.bind fun root _ => ?_
    refine obeys_check.bind fun effect _ => ?_
    exact obeys_owner (owners.seal effect _ held) _

theorem obeys_prepareAccept (credential : Option Credential) (scope : TrustedScope) (op sealOperation : OperationId)
    (expected : AcceptedRevision) :
    Obeys (api.prepareAccept owners credential scope op sealOperation expected) fun _ => True := by
  unfold Api.prepareAccept
  refine (obeys_authenticate api credential scope true).bind fun _ _ => ?_
  refine (obeys_requireCredential credential).bind fun held _ => ?_
  refine (obeys_findIntent scope sealOperation).bind fun sealedIntent hsealed => ?_
  refine (obeys_sealEffect api owners sealedIntent).bind fun commit _ => ?_
  cases commit with
  | none => exact obeys_throw _
  | some commit =>
    cases sealedIntent.parent with
    | none => exact obeys_throw _
    | some revision =>
      refine obeys_check.bind fun effect _ => ?_
      refine obeys_check.bind fun stageOp _ => ?_
      have hparent : ∀ p ∈ some sealOperation, IsApi p := by
        rintro p ⟨⟩
        exact hsealed.operation ▸ hsealed.api
      refine (obeys_remember api ⟨scope, op, .accept, sealedIntent.subject, some sealOperation,
        acceptanceBytes ⟨effect, expected, scope, stageOp, owners.identity commit⟩, fun h => (nomatch h),
        .inr hsealed.subject, hparent⟩ held false).bind fun _ _ => ?_
      exact obeys_pure trivial

theorem obeys_submitAccept (credential : Option Credential) (scope : TrustedScope) (op : OperationId) :
    Obeys (api.submitAccept owners credential scope op) fun _ => True := by
  unfold Api.submitAccept
  refine (obeys_authenticate api credential scope true).bind fun _ _ => ?_
  refine (obeys_requireCredential credential).bind fun held _ => ?_
  refine (obeys_findIntent scope op).bind fun intent _ => ?_
  refine obeys_check.bind fun request _ => ?_
  refine (obeys_owner (owners.reconcileAccept request) _).bind fun accepted _ => ?_
  cases accepted with
  | some accepted => exact obeys_pure trivial
  | none =>
    refine (obeys_noSubmit (dispatchable_noSubmit intent)).bind fun _ _ => ?_
    refine (obeys_owner (owners.readStaged request.stagedOperation) _).bind fun config _ => ?_
    refine (obeys_owner (owners.sealed request.stagedOperation config request.seal) _).bind fun sealed _ => ?_
    refine (obeys_owner (owners.prepare request sealed held) _).bind fun pending _ => ?_
    exact obeys_owner (owners.submit pending) _

theorem obeys_accept (credential : Option Credential) (scope : TrustedScope) (op sealOperation : OperationId)
    (expected : AcceptedRevision) :
    Obeys (api.accept owners credential scope op sealOperation expected) fun _ => True := by
  unfold Api.accept
  refine (obeys_prepareAccept api owners credential scope op sealOperation expected).bind fun _ _ => ?_
  exact obeys_submitAccept api owners credential scope op

/-! ### Findings -/

theorem isApiTicket_child {op id : OperationId} (h : child effectFront op = .ok id) : isApiTicket id.text = false := by
  obtain ⟨htext, -⟩ := child_eq_ok h
  have hlist : id.text.toList = ['a', 'p', 'i', '-', 'e', 'f', 'f', 'e', 'c', 't', '-'] ++ op.text.toList := by
    rw [htext, String.toList_append, String.toList_append]
    rfl
  have hjournal : (journalFront ++ "-").toList = ['a', 'p', 'i', '-', 'j', 'o', 'u', 'r', 'n', 'a', 'l', '-'] := rfl
  have hcancel : (cancelFront ++ "-").toList = ['a', 'p', 'i', '-', 'c', 'a', 'n', 'c', 'e', 'l', '-'] := rfl
  unfold isApiTicket startsWith
  rw [hlist, hjournal, hcancel]
  rfl

theorem obeys_findingReceipt (effect : OperationId) : Obeys (do
    match ← api.effectRow effect with
    | none => throw (.missing "finding receipt")
    | some row =>
      let rows ← readRows (selectFinding row)
      Prog.check (findingReference rows) : ApiCall Reference) fun _ => True := by
  refine (obeys_noSubmit (effectRow_noSubmit api effect)).bind fun row _ => ?_
  cases row with
  | none => exact obeys_throw _
  | some row =>
    refine (obeys_noSubmit (readRows_noSubmit _)).bind fun rows _ => ?_
    exact obeys_check.forget

theorem obeys_recordFinding (credential : Option Credential) (scope : TrustedScope) (op revision : OperationId)
    (key : String) : Obeys (api.recordFinding owners credential scope op revision key) fun _ => True := by
  unfold Api.recordFinding
  refine (obeys_authenticate api credential scope true).bind fun _ _ => ?_
  refine (obeys_requireCredential credential).bind fun held _ => ?_
  refine (obeys_read api owners (some held) scope revision).bind fun draft hdraft => ?_
  cases findEntry draft.config key with
  | none => exact obeys_throw _
  | some binding =>
    have hparent : ∀ p ∈ some revision, IsApi p := by
      rintro p ⟨⟩
      exact hdraft.operation ▸ hdraft.api
    refine (obeys_remember api ⟨scope, op, .finding, draft.draft, some revision,
      findingInput revision key binding draft.config.bindingRevision, fun h => (nomatch h), .inr hdraft.subject,
      hparent⟩ held false).bind fun intent _ => ?_
    refine obeys_check.bind fun effect heffect => ?_
    refine (obeys_noSubmit (effectRow_noSubmit api effect)).bind fun row _ => ?_
    split
    · refine (obeys_noSubmit (dispatchable_noSubmit intent)).bind fun _ _ => ?_
      refine (Obeys.mapErr (obeys_emitFindingOperation api.registry (isApiTicket_child heffect) _ _ _ _ _)).bind
        fun _ _ => ?_
      exact obeys_findingReceipt api effect
    · exact obeys_findingReceipt api effect

/-! ### Recovery -/

theorem obeys_known (credential : Credential) (scope : TrustedScope) : Obeys (api.known credential scope) fun _ => True := by
  refine obeys_noSubmit ?_
  unfold Api.known
  refine Issues.tryBind (issues_lift (api.gate.authenticate_noSubmit (some credential) scope)) fun answer => ?_
  cases answer with
  | ok actor => exact trivial
  | error e => cases e <;> exact trivial

theorem obeys_requireReason (capability : CapabilityName) (op : OperationId) (what : String) :
    Obeys (api.requireReason capability op what) fun _ => True := by
  refine obeys_noSubmit ?_
  unfold Api.requireReason
  refine Issues.tryBind (Issues.mapErr (api.gate.issueReason_noSubmit capability)) fun stored => ?_
  refine Issues.tryBind issues_check fun expected => ?_
  split <;> exact trivial

/-- An entry that names its own operation, and is no draft. -/
def Entry.account (scope : TrustedScope) (op : OperationId) (kind : Kind) (hkind : kind ≠ .draft) (request : String) :
    Entry :=
  ⟨scope, op, kind, op, none, request, fun h => absurd h hkind, .inl rfl, fun p hp => nomatch hp⟩

theorem obeys_provisionRecovery (credential : Option Credential) (scope : TrustedScope) (op : OperationId)
    (keyId : KeyId) (key : SyntheticKey) : Obeys (api.provisionRecovery credential scope op keyId key) fun _ => True := by
  unfold Api.provisionRecovery
  refine (obeys_authenticate api credential scope true).bind fun actor _ => ?_
  refine (obeys_requireCredential credential).bind fun owner _ => ?_
  refine obeys_check.bind fun _ _ => ?_
  refine (Obeys.mapErr (obeys_noSubmit api.gate.bootstrapReason_noSubmit)).bind fun _ _ => ?_
  refine obeys_check.bind fun name _ => ?_
  refine (obeys_remember api (.account scope op .provision (by decide) (credentialInput ⟨name, keyId, key⟩)) owner
    false).bind fun event _ => ?_
  refine (obeys_known api ⟨name, keyId, key⟩ scope).bind fun found _ => ?_
  cases found with
  | some actor =>
    refine obeys_check.bind fun _ _ => ?_
    exact (obeys_requireReason api _ _ _).bind fun _ _ => obeys_pure trivial
  | none =>
    refine (obeys_noSubmit (dispatchable_noSubmit event)).bind fun _ _ => ?_
    refine obeys_check.bind fun why _ => ?_
    refine obeys_check.bind fun label _ => ?_
    refine obeys_check.bind fun policy _ => ?_
    exact Obeys.mapErr (obeys_issueWithPolicy _ _ _ _ _ _ _ _ _ _ _)

theorem obeys_rebootstrap (current : Credential) (scope : TrustedScope) (op : OperationId) (replacement : Credential) :
    Obeys (api.rebootstrap current scope op replacement) fun _ => True := by
  unfold Api.rebootstrap
  refine (Obeys.mapErr (obeys_noSubmit (api.gate.authenticate_noSubmit (some current) scope))).bind fun actor _ => ?_
  refine obeys_check.bind fun _ _ => ?_
  split
  · exact obeys_throw _
  refine (obeys_remember api (.account scope op .recover (by decide) (credentialInput replacement)) current
    true).bind fun event _ => ?_
  refine (obeys_known api replacement scope).bind fun found _ => ?_
  cases found with
  | some actor =>
    simp only
    split
    · exact obeys_throw _
    · exact (obeys_requireReason api _ _ _).bind fun _ _ => obeys_pure trivial
  | none =>
    refine (obeys_noSubmit (dispatchable_noSubmit event)).bind fun _ _ => ?_
    refine obeys_check.bind fun why _ => ?_
    refine obeys_check.bind fun label _ => ?_
    exact Obeys.mapErr (obeys_issueWithPolicy _ _ _ _ _ _ _ _ _ _ _)

theorem obeys_completedRotation (original : AccessError) (current successor : Credential) (scope : TrustedScope)
    (op : OperationId) : Obeys (api.completedRotation original current successor scope op) fun _ => True := by
  unfold Api.completedRotation
  refine (obeys_findIntent scope op).bind fun old _ => ?_
  split
  · exact obeys_throw _
  refine (Obeys.mapErr (obeys_noSubmit (api.gate.authenticate_noSubmit (some successor) scope))).bind fun actor _ => ?_
  refine obeys_check.bind fun _ _ => ?_
  refine (obeys_requireReason api _ _ _).bind fun _ _ => ?_
  refine (Obeys.mapErr (obeys_noSubmit (api.gate.isRevoked_noSubmit _ _))).bind fun revoked _ => ?_
  split
  · exact obeys_pure trivial
  · exact obeys_throw _

theorem obeys_rotateAccount (current : Credential) (scope : TrustedScope) (op : OperationId) (keyId : KeyId)
    (key : SyntheticKey) : Obeys (api.rotate current scope op keyId key) fun _ => True := by
  unfold Api.rotate
  refine (obeys_noSubmit (issues_lift (api.gate.authenticate_noSubmit (some current) scope))).bind fun answer _ => ?_
  have hremember := fun credential => obeys_remember api (.account scope op .rotate (by decide)
    (Api.rotationInput current ⟨current.capability, keyId, key⟩)) credential true
  cases answer with
  | ok actor =>
    refine obeys_check.bind fun _ _ => ?_
    refine (hremember current).bind fun event _ => ?_
    refine (obeys_noSubmit (dispatchable_noSubmit event)).bind fun _ _ => ?_
    refine obeys_check.bind fun why _ => ?_
    exact Obeys.mapErr (obeys_rotate _ _ _ _ _)
  | error original =>
    refine (obeys_completedRotation api original current _ scope op).bind fun _ _ => ?_
    exact (hremember ⟨current.capability, keyId, key⟩).bind fun _ _ => obeys_pure trivial

theorem obeys_recover (credential : Option Credential) (scope : TrustedScope) (op : OperationId)
    (action : RecoveryAction) : Obeys (api.recover credential scope op action) fun _ => True := by
  unfold Api.recover
  refine (obeys_requireCredential credential).bind fun current _ => ?_
  refine (Obeys.mapErr (obeys_noSubmit api.gate.bootstrapReason_noSubmit)).bind fun _ _ => ?_
  cases action with
  | rebootstrap replacement => exact obeys_rebootstrap api current scope op replacement
  | rotate keyId key => exact obeys_rotateAccount api current scope op keyId key

/-! ### Cancellation -/

/-- A cancel row is one of its ticket, and no intent. -/
theorem cancel_sound (s : Database OutboxTables) {op id : OperationId} (hid : id.text = cancelFront ++ "-" ++ op.text)
    (scope : TrustedScope) (condition : Condition) (expiry : Option Int64) :
    (⟨id, cancelText, scope, cancelValue op, condition, expiry⟩ : Append).Sound s := by
  refine ⟨.inr rfl, ?_, ?_, ?_⟩
  · rw [hid]
    exact isApiTicket_cancel op
  · intro n _ _ _
    have htext : textColumn (sqlQuote (cancelValue op)) = .ok op.text := textColumn_toJson op.text
    have hrow : ticketOf ((⟨id, cancelText, scope, cancelValue op, condition, expiry⟩ : Append).row n) =
        (textColumn (sqlQuote (cancelValue op))).toOption.map fun op => cancelFront ++ "-" ++ op := rfl
    rw [hrow, htext, hid]
    rfl
  · intro t clock _ _ _ n _ _ _ hkind
    exact absurd hkind (by decide : cancelText ≠ eventText)

theorem obeys_cancel (credential : Option Credential) (scope : TrustedScope) (op : OperationId) :
    Obeys (api.cancel credential scope op) fun _ => True := by
  unfold Coordinator.cancel
  refine (obeys_authenticate api credential scope true).bind fun _ _ => ?_
  refine (obeys_findIntent scope op).bind fun intent _ => ?_
  refine (obeys_noSubmit (cancelled_noSubmit intent)).bind fun stopped _ => ?_
  split
  · exact obeys_pure trivial
  have hauthority : (api.authority credential scope .drive).run.Issues NoSubmit :=
    Issues.mapErr (authority_noSubmit api.gate credential scope .drive api.paths)
  refine (obeys_noSubmit hauthority).bind fun authority _ => ?_
  refine obeys_check.bind fun id hid => ?_
  obtain ⟨hidtext, -⟩ := child_eq_ok hid
  have happend : Obeys (api.append id cancelText scope (cancelValue op) (.ofGuard authority.guard) (expiryOf authority))
      fun _ => True := by
    intro s hs
    refine (leads_append (P := fun _ => True) api hs (cancel_sound s hidtext scope (.ofGuard authority.guard)
      (expiryOf authority)) fun _ _ _ _ => trivial).keeps fun acts t answer _ _ => ?_
    cases answer <;> exact trivial
  exact happend.bind fun _ _ => obeys_pure trivial

end Calls

end Verdant.Api
