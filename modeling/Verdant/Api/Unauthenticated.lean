import Verdant.Access.Delegation
import Verdant.Api.JournalTables
import Verdant.Api.Readers
import Verdant.Api.Recovery
import Verdant.Library.Silence

/-!
# Calls without a credential

What a caller learns whose credential the access log refuses.  Every call of the coordinator authenticates before it reads a
row of the journal or of another owner, so it answers alike on all databases of one access log and writes nothing; but for
the rotation of a recovery account: where its credential is refused, it looks its intent up to see whether it is completed,
and answers whether the scope's journal reads and has the operation.
-/

namespace Verdant.Api

open TextCodec Storage Access Binding Prog

/-! ### The access log -/

/-- The rows of the access log of a database. -/
def accessLog (db : Database OutboxTables) : List OutboxRecord := logOf isAdmission db.tables

/-- The operations of a check against the access log. -/
def AccessOnly : StoreOp OutboxTables → Prop
  | .read query => ∃ limit, query = selectAdmissions limit
  | .wall => True
  | _ => False

theorem AccessOnly.blind {op : StoreOp OutboxTables} (h : AccessOnly op) : Blind StoreOp.exec accessLog op := by
  intro m s t hview
  cases op with
  | read query =>
    obtain ⟨limit, rfl⟩ := h
    have hrows : (selectAdmissions limit).rows (m.host.clock 0).toInt s =
        (selectAdmissions limit).rows (m.host.clock 0).toInt t :=
      congrArg (fun log : List OutboxRecord => Except.ok ((log.take limit).map admissionColumns)) hview
    refine ⟨rfl, ?_⟩
    show execScript m (selectAdmissions limit) s = execScript m (selectAdmissions limit) t
    unfold execScript
    rw [hrows]
  | wall => exact ⟨rfl, rfl⟩
  | draw | submit | reconcile | reconcileOperation | poll => exact h.elim

theorem read_accessOnly (store : SqliteStore) : (State.read store).run.Issues AccessOnly :=
  Issues.tryBind (Issues.mapErr (issues_issue ⟨_, rfl⟩)) fun _ => issues_check

theorem checked_accessOnly (state : State) (cred : Credential) (scope : Option TrustedScope) (rotating : Bool) :
    (state.checked cred scope rotating).run.Issues AccessOnly := by
  refine Issues.tryBind issues_check fun row => ?_
  refine Issues.tryBind (Issues.tryBind (issues_lift (issues_issue trivial)) fun _ => issues_check) fun now => ?_
  exact Issues.tryBind issues_check fun _ => trivial

theorem authenticate_accessOnly (gate : AccessGate) (credential : Option Credential) (scope : TrustedScope) :
    (gate.authenticate credential scope).run.Issues AccessOnly := by
  cases credential with
  | none => exact trivial
  | some credential =>
    refine Issues.tryBind (read_accessOnly gate.store) fun state => ?_
    exact Issues.tryBind (checked_accessOnly state credential _ _) fun _ => issues_check

theorem bootstrapReason_accessOnly (gate : AccessGate) : gate.bootstrapReason.run.Issues AccessOnly := by
  refine Issues.tryBind (read_accessOnly gate.store) fun state => ?_
  refine Issues.tryBind issues_check fun _ => ?_
  split <;> exact trivial

/-! ### Refused credentials -/

/-- The readings of the clock while a call lasts, of which there is one. -/
structure Span where
  reads : Option Nat → Prop
  now : Option Nat
  reads_now : reads now

def Span.moment (span : Span) (m : Moment) : Prop := span.reads m.wall

/-- The access log accepts the credential in the scope at no reading of the clock. -/
def Refused (gate : AccessGate) (span : Span) (db : Database OutboxTables) (scope : TrustedScope) :
    Option Credential → Prop
  | none => True
  | some credential => ∀ es, (∀ m ∈ es, span.moment m) → ∀ actor rest,
      ((gate.authenticate (some credential) scope).run.run StoreOp.exec es db).2 ≠ some (.ok actor, rest)

/-- What the gate reads of the access log. -/
def stateOf (gate : AccessGate) (db : Database OutboxTables) : Except AccessError State :=
  State.ofRows gate.store.bounds (((accessLog db).take (gate.store.bounds.maxReplayRows + 1)).map admissionColumns)

/-- The gate reads the log, and the log is bootstrapped. -/
def LogBootstrapped (gate : AccessGate) (db : Database OutboxTables) : Prop :=
  ∃ state marker rest, stateOf gate db = .ok state ∧ state.requireBootstrapped = .ok () ∧ state.bootstraps = marker :: rest

abbrev Quiets (span : Span) (db : Database OutboxTables) {ε α : Type}
    (x : Try (StoreOp.Answer (ρ := OutboxTables)) ε α) : Prop := Silent StoreOp.exec accessLog span.moment (accessLog db) x

section Silence

variable {gate : AccessGate} {span : Span} {db : Database OutboxTables} {scope : TrustedScope}

/-- A refused credential gives one error. -/
theorem quiets_authenticate {credential : Option Credential} (h : Refused gate span db scope credential) :
    Quiets span db (gate.authenticate credential scope) := by
  cases credential with
  | none => exact silent_throw _
  | some credential =>
    have hblind := (authenticate_accessOnly gate (some credential) scope).mono fun op hop => hop.blind
    refine Silent.of_blind hblind fun s hs es hes actor rest hanswer => ?_
    rw [(hblind.blind hs es).2] at hanswer
    exact h es hes actor rest hanswer

/-- One read of the access log. -/
theorem run_stateOf (gate : AccessGate) {m : Moment} (hread : m.read = none) (rest : List Moment)
    (db : Database OutboxTables) :
    (State.read gate.store).run.run StoreOp.exec (m :: rest) db = (db, some (stateOf gate db, rest)) := by
  rw [run_read]
  unfold execScript
  rw [hread]
  rfl

theorem run_bootstrapped (h : LogBootstrapped gate db) {m : Moment} (hread : m.read = none) (rest : List Moment) :
    ∃ reason, gate.bootstrapReason.run.run StoreOp.exec (m :: rest) db = (db, some (.ok reason, rest)) := by
  obtain ⟨state, marker, markers, hstate, hrequired, hmarkers⟩ := h
  refine ⟨marker.reason, ?_⟩
  unfold AccessGate.bootstrapReason
  refine run_try_ok.2 ⟨state, db, rest, ?_, ?_⟩
  · rw [run_stateOf gate hread rest db, hstate]
  · rw [hrequired, check_bind_ok, hmarkers]
    rfl

/-- A gate that tells a reason has read a bootstrapped log. -/
theorem bootstrapped_of_run {es rest : List Moment} {t : Database OutboxTables} {reason : String}
    (h : gate.bootstrapReason.run.run StoreOp.exec es db = (t, some (.ok reason, rest))) : LogBootstrapped gate db := by
  unfold AccessGate.bootstrapReason at h
  obtain ⟨state, u, more, hread, hrest⟩ := run_try_ok.1 h
  obtain ⟨_, v, last, hrequired, hreason⟩ := run_try_ok.1 hrest
  have hok : state.requireBootstrapped = .ok () := congrArg Prod.fst (Option.some.inj (congrArg Prod.snd hrequired))
  cases es with
  | nil => exact nomatch hread
  | cons m es =>
    rw [run_read] at hread
    have hstate := congrArg Prod.fst (Option.some.inj (congrArg Prod.snd hread))
    unfold execScript at hstate
    cases hfault : m.read with
    | some fault =>
      rw [hfault] at hstate
      exact nomatch hstate
    | none =>
      rw [hfault] at hstate
      cases hmarkers : state.bootstraps with
      | nil =>
        rw [hmarkers] at hreason
        exact nomatch hreason
      | cons marker markers => exact ⟨state, marker, markers, hstate, hok, hmarkers⟩

/-- The check of a refused credential on a log that reads: it ends, and leaves a moment. -/
theorem run_refused {credential : Credential} (h : Refused gate span db scope (some credential))
    (hlog : LogBootstrapped gate db) {m : Moment} (hread : m.read = none) (hm : span.moment m) (es : List Moment)
    (hes : ∀ e ∈ es, span.moment e) :
    ∃ error rest, (gate.authenticate (some credential) scope).run.run StoreOp.exec (m :: m :: es) db =
      (db, some (.error error, rest)) ∧ (rest = m :: es ∨ rest = es) := by
  obtain ⟨state, -, -, hstate, -, -⟩ := hlog
  have hfirst : (State.read gate.store).run.run StoreOp.exec (m :: m :: es) db = (db, some (.ok state, m :: es)) := by
    rw [run_stateOf gate hread (m :: es) db, hstate]
  have hall : ∀ e ∈ m :: m :: es, span.moment e := by
    intro e he
    rcases List.mem_cons.1 he with rfl | he
    · exact hm
    rcases List.mem_cons.1 he with rfl | he
    · exact hm
    · exact hes e he
  have hdenied := h (m :: m :: es) hall
  unfold AccessGate.authenticate at hdenied ⊢
  simp only at hdenied ⊢
  rw [run_try_bind, hfirst] at hdenied ⊢
  simp only at hdenied ⊢
  rw [run_try_bind] at hdenied ⊢
  unfold State.checked at hdenied ⊢
  rw [run_try_bind] at hdenied ⊢
  cases hmatch : state.matching credential (some scope) false with
  | error e => exact ⟨e, m :: es, rfl, .inl rfl⟩
  | ok row =>
    rw [hmatch] at hdenied
    have hcheck : (check (.ok row) : AccessCall IssueRow).run.run StoreOp.exec (m :: es) db =
        (db, some (.ok row, m :: es)) := rfl
    have hwall : nowMs.run.run StoreOp.exec (m :: es) db = (db, some (nowOf m.wall, es)) := by
      unfold nowMs
      rw [run_try_bind]
      rfl
    rw [hcheck] at hdenied ⊢
    simp only at hdenied ⊢
    rw [run_try_bind, hwall] at hdenied ⊢
    cases hnow : nowOf m.wall with
    | error e => exact ⟨e, es, rfl, .inr rfl⟩
    | ok now =>
      rw [hnow] at hdenied
      simp only at hdenied ⊢
      rw [run_try_bind] at hdenied ⊢
      cases hlive : row.policy.requireLive now with
      | error e => exact ⟨e, es, rfl, .inr rfl⟩
      | ok _ =>
        rw [hlive] at hdenied
        cases hactor : ActorContext.fromChecked row with
        | error e =>
          refine ⟨e, es, ?_, .inr rfl⟩
          show (check (ActorContext.fromChecked row) : AccessCall ActorContext).run.run StoreOp.exec es db = _
          rw [hactor]
          rfl
        | ok actor =>
          refine absurd ?_ (hdenied actor es)
          show ((check (ActorContext.fromChecked row) : AccessCall ActorContext).run.run StoreOp.exec es db).2 = _
          rw [hactor]
          rfl

end Silence

/-! ### Calls -/

/-- A call of the coordinator with its arguments. -/
inductive Entrypoint where
  | draft (credential : Option Credential) (op : OperationId) (content : DraftContent)
  | edit (credential : Option Credential) (op parent : OperationId) (content : DraftContent)
  | read (credential : Option Credential) (scope : TrustedScope) (op : OperationId)
  | seal (credential : Option Credential) (scope : TrustedScope) (op revision : OperationId) (publication : Publication)
  | prepareAccept (credential : Option Credential) (scope : TrustedScope) (op sealOperation : OperationId)
      (expected : AcceptedRevision)
  | submitAccept (credential : Option Credential) (scope : TrustedScope) (op : OperationId)
  | recordFinding (credential : Option Credential) (scope : TrustedScope) (op revision : OperationId) (key : String)
  | cancel (credential : Option Credential) (scope : TrustedScope) (op : OperationId)
  | status (credential : Option Credential) (scope : TrustedScope)
  | work (credential : Option Credential) (scope : TrustedScope) (op : OperationId)
  | operations (credential : Option Credential) (scope : TrustedScope) (request : PageRequest)
  | validate (credential : Option Credential) (scope : TrustedScope) (op : OperationId) (request : PageRequest)
  | sealed (credential : Option Credential) (scope : TrustedScope) (revision : OperationId)
  | provisionRecovery (credential : Option Credential) (scope : TrustedScope) (op : OperationId) (keyId : KeyId)
      (key : SyntheticKey)
  | recover (credential : Option Credential) (scope : TrustedScope) (op : OperationId) (action : RecoveryAction)

namespace Entrypoint

/-- A call without its value. -/
def discard {α : Type} (x : ApiCall α) : ApiCall Unit := do
  let _ ← x
  return ()

def call (api : Api) (owners : Owners) : Entrypoint → ApiCall Unit
  | .draft credential op content => discard (api.draft owners credential op content)
  | .edit credential op parent content => discard (api.edit owners credential op parent content)
  | .read credential scope op => discard (api.read owners credential scope op)
  | .seal credential scope op revision publication => discard (api.seal owners credential scope op revision publication)
  | .prepareAccept credential scope op sealOperation expected =>
    discard (api.prepareAccept owners credential scope op sealOperation expected)
  | .submitAccept credential scope op => discard (api.submitAccept owners credential scope op)
  | .recordFinding credential scope op revision key => discard (api.recordFinding owners credential scope op revision key)
  | .cancel credential scope op => discard (api.cancel credential scope op)
  | .status credential scope => discard (api.status owners credential scope)
  | .work credential scope op => discard (api.work owners credential scope op)
  | .operations credential scope request => discard (api.operations owners credential scope request)
  | .validate credential scope op request => discard (api.validate owners credential scope op request)
  | .sealed credential scope revision => discard (api.sealed owners credential scope revision)
  | .provisionRecovery credential scope op keyId key => discard (api.provisionRecovery credential scope op keyId key)
  | .recover credential scope op action => discard (api.recover credential scope op action)

def scope : Entrypoint → TrustedScope
  | .draft _ _ content | .edit _ _ _ content => content.config.scope
  | .read _ scope _ | .seal _ scope _ _ _ | .prepareAccept _ scope _ _ _ | .submitAccept _ scope _
  | .recordFinding _ scope _ _ _ | .cancel _ scope _ | .status _ scope | .work _ scope _ | .operations _ scope _
  | .validate _ scope _ _ | .sealed _ scope _ | .provisionRecovery _ scope _ _ _ | .recover _ scope _ _ => scope

/-- The credential a call presents. -/
def presented : Entrypoint → Option Credential
  | .draft credential _ _ | .edit credential _ _ _ | .read credential _ _ | .seal credential _ _ _ _
  | .prepareAccept credential _ _ _ _ | .submitAccept credential _ _ | .recordFinding credential _ _ _ _
  | .cancel credential _ _ | .status credential _ | .work credential _ _ | .operations credential _ _
  | .validate credential _ _ _ | .sealed credential _ _ | .provisionRecovery credential _ _ _ _
  | .recover credential _ _ _ => credential

/-- The replacement or the successor among the arguments. -/
def offered : Entrypoint → Option Credential
  | .recover _ _ _ (.rebootstrap replacement) => some replacement
  | .recover credential _ _ (.rotate keyId key) => credential.map fun current => ⟨current.capability, keyId, key⟩
  | _ => none

/-- The access log refuses every credential of the call. -/
def RefusedBy (api : Api) (span : Span) (db : Database OutboxTables) (r : Entrypoint) : Prop :=
  Refused api.gate span db r.scope r.presented ∧ Refused api.gate span db r.scope r.offered

/-- A rotation with a credential, on a log that is bootstrapped. -/
def LooksUp (api : Api) (db : Database OutboxTables) : Entrypoint → Prop
  | .recover (some _) _ _ (.rotate _ _) => LogBootstrapped api.gate db
  | _ => False

end Entrypoint

section Calls

variable {api : Api} {owners : Owners} {span : Span} {db : Database OutboxTables}

theorem quiets_enter {credential : Option Credential} {scope : TrustedScope}
    (h : Refused api.gate span db scope credential) (write : Bool) :
    Quiets span db (api.authenticate credential scope write) := (quiets_authenticate h).mapErr.bind

theorem quiets_read {credential : Option Credential} {scope : TrustedScope}
    (h : Refused api.gate span db scope credential) (op : OperationId) :
    Quiets span db (api.read owners credential scope op) := (quiets_enter h false).bind

/-- A call whose credentials are refused tells one error of all databases of the log, but for a rotation that looks up. -/
theorem quiets_call {r : Entrypoint} (h : r.RefusedBy api span db) (hnot : ¬ r.LooksUp api db) :
    Quiets span db (r.call api owners) := by
  have hcredential := h.1
  cases r with
  | draft credential op content => exact (quiets_enter hcredential true).bind.bind
  | edit credential op parent content => exact (quiets_read hcredential parent).bind.bind
  | read credential scope op => exact (quiets_read hcredential op).bind
  | «seal» credential scope op revision publication => exact (quiets_enter hcredential true).bind.bind
  | prepareAccept credential scope op sealOperation expected => exact (quiets_enter hcredential true).bind.bind
  | submitAccept credential scope op => exact (quiets_enter hcredential true).bind.bind
  | recordFinding credential scope op revision key => exact (quiets_enter hcredential true).bind.bind
  | cancel credential scope op => exact (quiets_enter hcredential true).bind.bind
  | status credential scope => exact (quiets_enter hcredential false).bind.bind
  | work credential scope op => exact (quiets_enter hcredential false).bind.bind
  | operations credential scope request => exact (quiets_enter hcredential false).bind.bind
  | validate credential scope op request => exact (quiets_read hcredential op).bind.bind
  | «sealed» credential scope revision => exact (quiets_read hcredential revision).bind.bind
  | provisionRecovery credential scope op keyId key => exact (quiets_enter hcredential true).bind.bind
  | recover credential scope op action =>
    cases credential with
    | none => exact (silent_throw ApiError.unauthenticated).bind.bind
    | some current =>
      have hblind := (bootstrapReason_accessOnly api.gate).mono fun op hop => hop.blind
      refine Silent.bind (Silent.after (x := requireCredential (some current)) trivial fun held hheld => ?_)
      obtain ⟨s, es, rest, -, -, hanswer⟩ := hheld
      obtain rfl : current = held := Except.ok.inj (congrArg Prod.fst (Option.some.inj hanswer))
      cases action with
      | rebootstrap replacement =>
        refine Silent.after hblind.mapErr fun _ _ => ?_
        exact (quiets_authenticate hcredential).mapErr.bind
      | rotate keyId key =>
        -- a log that is not bootstrapped ends the call before its lookup
        refine Silent.bind (Silent.mapErr (Silent.of_blind hblind fun s hs es _ reason rest hanswer => ?_))
        rw [(hblind.blind hs es).2] at hanswer
        exact hnot (bootstrapped_of_run (Prod.ext (hblind.blind rfl es).1 hanswer))

end Calls

/-! ### Lookups -/

/-- What looking an operation up in the journal of its scope gives. -/
def lookup (db : Database OutboxTables) (scope : TrustedScope) (op : OperationId) : Except ApiError Intent :=
  let rows := ((logOf (isIntentOf scope) db.tables).take (maxWork + 1)).map intentColumns
  if maxWork < rows.length then .error (.limit "API scope history")
  else do
    let history ← joinIntents scope [] rows
    match history.find? fun i => i.operation = op with
    | some intent => .ok intent
    | none => .error (.missing s!"operation:{op.text}")

theorem run_findIntent {m : Moment} (hread : m.read = none) (rest : List Moment) (db : Database OutboxTables)
    (scope : TrustedScope) (op : OperationId) :
    (findIntent scope op).run.run StoreOp.exec (m :: rest) db = (db, some (lookup db scope op, rest)) := by
  have hrows : (readRows (selectIntents scope)).run.run StoreOp.exec (m :: rest) db =
      (db, some (.ok (((logOf (isIntentOf scope) db.tables).take (maxWork + 1)).map intentColumns), rest)) := by
    show (db, some ((execScript m (selectIntents scope) db).mapError ApiError.storage, rest)) = _
    unfold execScript
    rw [hread]
    rfl
  unfold findIntent intents lookup
  rw [run_try_bind, run_try_bind, hrows]
  by_cases hfull : maxWork < (((logOf (isIntentOf scope) db.tables).take (maxWork + 1)).map intentColumns).length
  · simp only [if_pos hfull]
    rfl
  simp only [if_neg hfull]
  cases joinIntents scope [] (((logOf (isIntentOf scope) db.tables).take (maxWork + 1)).map intentColumns) with
  | error e => rfl
  | ok history =>
    simp only [Result.ok_bind]
    show (match history.find? fun i => decide (i.operation = op) with
      | some intent => pure intent
      | none => throw (ApiError.missing s!"operation:{op.text}") : ApiCall Intent).run.run StoreOp.exec rest db = _
    cases history.find? fun i => decide (i.operation = op) <;> rfl

section Lookups

variable {api : Api} {owners : Owners} {span : Span} {db : Database OutboxTables} {scope : TrustedScope}
  {current : Credential}

theorem LogBootstrapped.congr {gate : AccessGate} (h : LogBootstrapped gate db) {t : Database OutboxTables}
    (ht : accessLog t = accessLog db) : LogBootstrapped gate t := by
  unfold LogBootstrapped stateOf at h ⊢
  rw [ht]
  exact h

theorem Refused.congr {gate : AccessGate} {credential : Option Credential} (h : Refused gate span db scope credential)
    {t : Database OutboxTables} (ht : accessLog t = accessLog db) : Refused gate span t scope credential := by
  cases credential with
  | none => exact trivial
  | some credential =>
    have hblind := (authenticate_accessOnly gate (some credential) scope).mono fun op hop => hop.blind
    intro es hes actor rest
    rw [(hblind.blind ht es).2]
    exact h es hes actor rest

/-- A rotation whose credential is refused ends as its lookup does. -/
theorem run_rotation (owners : Owners) (hrefused : Refused api.gate span db scope (some current))
    (hlog : LogBootstrapped api.gate db) {m : Moment} (hread : m.read = none) (hm : span.moment m) (op : OperationId)
    (keyId : KeyId) (key : SyntheticKey) :
    ∃ error more, ∀ e rest,
      (api.completedRotation error current ⟨current.capability, keyId, key⟩ scope op).run.run StoreOp.exec (m :: more) db =
        (db, some (.error e, rest)) →
      ((Entrypoint.recover (some current) scope op (.rotate keyId key)).call api owners).run.run StoreOp.exec
        [m, m, m, m] db = (db, some (.error e, rest)) := by
  have hmoments : ∀ e ∈ [m], span.moment e := by
    intro e he
    rw [List.mem_singleton.1 he]
    exact hm
  obtain ⟨reason, hreason⟩ := run_bootstrapped hlog hread [m, m, m]
  obtain ⟨error, left, hdenied, hleft⟩ := run_refused hrefused hlog hread hm [m] hmoments
  obtain ⟨more, rfl⟩ : ∃ more, left = m :: more := by
    rcases hleft with rfl | rfl
    · exact ⟨[m], rfl⟩
    · exact ⟨[], rfl⟩
  refine ⟨error, more, fun e rest hcompleted => ?_⟩
  have hlift : (liftM (api.gate.authenticate (some current) scope).run : ApiCall (Except AccessError ActorContext)).run.run
      StoreOp.exec [m, m, m] db = (db, some (.ok (.error error), m :: more)) := by
    rw [run_lift, hdenied]
    rfl
  have hrotate : (api.rotate current scope op keyId key).run.run StoreOp.exec [m, m, m] db =
      (db, some (.error e, rest)) := by
    unfold Api.rotate
    rw [run_try_bind, hlift]
    simp only
    rw [run_try_bind, hcompleted]
  have hrecover : (api.recover (some current) scope op (.rotate keyId key)).run.run StoreOp.exec [m, m, m, m] db =
      (db, some (.error e, rest)) := by
    show (Api.access api.gate.bootstrapReason >>= fun _ => api.rotate current scope op keyId key).run.run StoreOp.exec
      [m, m, m, m] db = _
    have haccess : (Api.access api.gate.bootstrapReason).run.run StoreOp.exec [m, m, m, m] db =
        (db, some (.ok reason, [m, m, m])) := run_mapErr_ok hreason _
    rw [run_try_bind, haccess]
    exact hrotate
  show (Entrypoint.discard (api.recover (some current) scope op (.rotate keyId key))).run.run StoreOp.exec [m, m, m, m] db = _
  unfold Entrypoint.discard
  rw [run_try_bind, hrecover]

/-- Where the lookup fails, its error is the answer. -/
theorem run_rotation_unread (owners : Owners) (hrefused : Refused api.gate span db scope (some current))
    (hlog : LogBootstrapped api.gate db) {m : Moment} (hread : m.read = none) (hm : span.moment m) {op : OperationId}
    {e : ApiError} (hlookup : lookup db scope op = .error e) (keyId : KeyId) (key : SyntheticKey) :
    ∃ rest, ((Entrypoint.recover (some current) scope op (.rotate keyId key)).call api owners).run.run StoreOp.exec
      [m, m, m, m] db = (db, some (.error e, rest)) := by
  obtain ⟨error, more, hrun⟩ := run_rotation owners hrefused hlog hread hm op keyId key
  refine ⟨more, hrun e more ?_⟩
  unfold Api.completedRotation
  rw [run_try_bind, run_findIntent hread more db scope op, hlookup]

/-- Where the operation is there for another work, the answer is that the credential is refused. -/
theorem run_rotation_other (owners : Owners) (hrefused : Refused api.gate span db scope (some current))
    (hlog : LogBootstrapped api.gate db) {m : Moment} (hread : m.read = none) (hm : span.moment m) {op : OperationId}
    {old : Intent} (hlookup : lookup db scope op = .ok old) (hkind : old.kind ≠ .rotate) (keyId : KeyId)
    (key : SyntheticKey) :
    ∃ error rest, ((Entrypoint.recover (some current) scope op (.rotate keyId key)).call api owners).run.run StoreOp.exec
      [m, m, m, m] db = (db, some (.error (.access error), rest)) := by
  obtain ⟨error, more, hrun⟩ := run_rotation owners hrefused hlog hread hm op keyId key
  refine ⟨error, more, hrun (.access error) more ?_⟩
  unfold Api.completedRotation
  rw [run_try_bind, run_findIntent hread more db scope op, hlookup]
  simp only
  rw [if_pos (.inl hkind)]
  rfl

/-! ### Databases of one access log -/

/-- The access log of a database, and other rows after it. -/
def withRows (db : Database OutboxTables) (rows : List OutboxRecord) : Database OutboxTables :=
  ⟨⟨accessLog db ++ rows, db.tables.lastId, []⟩, []⟩

theorem logOf_withRows (mine : OutboxRecord → Bool) {rows : List OutboxRecord}
    (hrows : rows.map OutboxRecord.requeue = rows) :
    logOf mine (withRows db rows).tables = (accessLog db).filter mine ++ rows.filter mine := by
  have hlog : (accessLog db).map OutboxRecord.requeue = accessLog db := by
    refine (List.map_congr_left fun r hr => ?_).trans (List.map_id _)
    obtain ⟨o, -, rfl⟩ := List.mem_map.1 (List.mem_filter.1 hr).1
    rfl
  unfold logOf history withRows
  simp only
  rw [List.map_append, hlog, hrows, List.filter_append]

theorem accessLog_withRows {rows : List OutboxRecord} (hrows : rows.map OutboxRecord.requeue = rows)
    (hother : ∀ r ∈ rows, isAdmission r = false) : accessLog (withRows db rows) = accessLog db := by
  have hnone : rows.filter isAdmission = [] := by
    rw [List.filter_eq_nil_iff]
    intro r hr
    rw [hother r hr]
    exact Bool.false_ne_true
  have hall : (accessLog db).filter isAdmission = accessLog db := by
    unfold accessLog logOf
    rw [List.filter_filter]
    simp
  have hsplit : accessLog (withRows db rows) = (accessLog db).filter isAdmission ++ rows.filter isAdmission :=
    logOf_withRows isAdmission hrows
  rw [hsplit, hall, hnone, List.append_nil]

/-- The rows of an intent journal are no rows of the access log. -/
theorem not_admission_of_event {r : OutboxRecord} (h : r.operation = eventText) : isAdmission r = false := by
  unfold isAdmission
  rw [h]
  decide

/-- The journal of such a database is among the other rows. -/
theorem intentsOf_withRows {rows : List OutboxRecord} (hrows : rows.map OutboxRecord.requeue = rows) :
    logOf (isIntentOf scope) (withRows db rows).tables = rows.filter (isIntentOf scope) := by
  have hnone : (accessLog db).filter (isIntentOf scope) = [] := by
    rw [List.filter_eq_nil_iff]
    intro r hr hintent
    have hadmission : isAdmission r = true := (List.mem_filter.1 hr).2
    unfold isIntentOf at hintent
    rw [Bool.and_eq_true, decide_eq_true_eq] at hintent
    rw [not_admission_of_event hintent.1] at hadmission
    exact nomatch hadmission
  rw [logOf_withRows _ hrows, hnone, List.nil_append]

/-- A row of the journal of a scope. -/
def journalRow (scope : TrustedScope) (value : String) : OutboxRecord := (apiRow eventText scope value).record 1

theorem lookup_none (op : OperationId) :
    lookup (withRows db []) scope op = .error (.missing s!"operation:{op.text}") := by
  unfold lookup
  rw [intentsOf_withRows rfl]
  rfl

/-- The lookup in a journal of one row. -/
theorem lookup_row (value : String) (op : OperationId) :
    lookup (withRows db [journalRow scope value]) scope op =
      (Intent.decode [Nat.repr 1, sqlQuote value] >>= fun intent =>
        if intent.scope ≠ scope then .error (.invalid "API scope/operation join")
        else if intent.operation = op then .ok intent
        else .error (.missing s!"operation:{op.text}")) := by
  have hmine : [journalRow scope value].filter (isIntentOf scope) = [journalRow scope value] := by
    refine List.filter_cons_of_pos ?_
    unfold isIntentOf journalRow
    simp [NewRow.record, apiRow]
  unfold lookup
  rw [intentsOf_withRows rfl, hmine]
  show (joinIntents scope [] [intentColumns (journalRow scope value)] >>= _) = _
  unfold joinIntents
  have hcolumns : intentColumns (journalRow scope value) = [Nat.repr 1, sqlQuote value] := rfl
  rw [hcolumns]
  cases Intent.decode [Nat.repr 1, sqlQuote value] with
  | error e => rfl
  | ok intent =>
    simp only [Result.ok_bind]
    by_cases hscope : intent.scope = scope
    · have hok : ¬(intent.scope ≠ scope ∨ intent.operation ∈ ([] : List OperationId)) := by simp [hscope]
      rw [if_neg hok, if_neg (not_not.2 hscope)]
      by_cases hop : intent.operation = op
      · simp [joinIntents, hop]
      · simp [joinIntents, hop]
    · rw [if_pos (.inl hscope), if_pos hscope]
      rfl

/-- A row whose text has no fields does not read. -/
theorem lookup_damaged (op : OperationId) :
    lookup (withRows db [journalRow scope (Value.text "").toJson]) scope op = .error (.invalid "API intent version") := by
  have hdecode : Intent.decode [Nat.repr 1, sqlQuote (Value.text "").toJson] =
      .error (.invalid "API intent version") := by
    show (textColumn (sqlQuote (Value.text "").toJson) >>= _) = _
    rw [textColumn_toJson]
    rfl
  rw [lookup_row, hdecode]
  rfl

/-- Two databases of the log on which a rotation that looks up answers differently. -/
theorem rotation_speaks (hrefused : Refused api.gate span db scope (some current)) (hlog : LogBootstrapped api.gate db)
    (op : OperationId) (keyId : KeyId) (key : SyntheticKey) :
    ¬ Quiets span db ((Entrypoint.recover (some current) scope op (.rotate keyId key)).call api owners) := by
  intro hsilent
  let m : Moment := ⟨"", Host.quiet, none, span.now, ⟨false, false⟩⟩
  have hm : span.moment m := span.reads_now
  have hmoments : ∀ e ∈ [m, m, m, m], span.moment e := by
    intro e he
    simp only [List.mem_cons, List.not_mem_nil, or_false, or_self] at he
    rw [he]
    exact hm
  have hempty : accessLog (withRows db []) = accessLog db := accessLog_withRows rfl fun r hr => nomatch hr
  have hdamaged : accessLog (withRows db [journalRow scope (Value.text "").toJson]) = accessLog db := by
    refine accessLog_withRows rfl fun r hr => ?_
    rw [List.mem_singleton.1 hr]
    exact not_admission_of_event rfl
  have hsame := hsilent.same _ _ hempty hdamaged [m, m, m, m] hmoments
  obtain ⟨rest, hrun⟩ := run_rotation_unread owners (hrefused.congr hempty) (hlog.congr hempty) rfl hm
    (lookup_none op) keyId key
  obtain ⟨rest', hrun'⟩ := run_rotation_unread owners (hrefused.congr hdamaged) (hlog.congr hdamaged) rfl hm
    (lookup_damaged op) keyId key
  rw [hrun, hrun'] at hsame
  exact nomatch hsame

end Lookups

/-- Who has no accepted credential learns the access log's refusal and nothing else, exactly where the call does not look
up a rotation. -/
theorem silent_iff_not_lookup (api : Api) (owners : Owners) (span : Span) (db : Database OutboxTables) (r : Entrypoint) :
    (r.RefusedBy api span db → Silent StoreOp.exec accessLog span.moment (accessLog db) (r.call api owners)) ↔
      ¬ (r.RefusedBy api span db ∧ r.LooksUp api db) := by
  constructor
  · rintro hsilent ⟨hrefused, hlooks⟩
    cases r with
    | recover credential scope op action =>
      cases credential with
      | none => exact hlooks
      | some current =>
        cases action with
        | rebootstrap replacement => exact hlooks
        | rotate keyId key => exact rotation_speaks hrefused.1 hlooks op keyId key (hsilent hrefused)
    | draft | edit | read | «seal» | prepareAccept | submitAccept | recordFinding | cancel | status | work | operations |
        validate | «sealed» | provisionRecovery => exact hlooks
  · intro hnot hrefused
    exact quiets_call hrefused fun hlooks => hnot ⟨hrefused, hlooks⟩

/-- A capability nobody issued is refused at every reading. -/
theorem refused_of_unissued {gate : AccessGate} (span : Span) {db : Database OutboxTables} (hdb : Access.Kept db)
    (scope : TrustedScope) {credential : Credential}
    (h : ∀ row ∈ issuesOf (admissions db.tables), row.cap ≠ credential.capability) :
    Refused gate span db scope (some credential) := by
  intro es _ actor rest hanswer
  have hrun : (gate.authenticate (some credential) scope).run.run StoreOp.exec es db =
      (((gate.authenticate (some credential) scope).run.run StoreOp.exec es db).1, some (.ok actor, rest)) :=
    Prod.ext rfl hanswer
  obtain ⟨state, u, more, hread, hchecked⟩ := run_try_ok.1 hrun
  obtain ⟨row, v, left, hrow, -⟩ := run_try_ok.1 hchecked
  obtain ⟨found, w, last, hmatch, -⟩ := run_try_ok.1 hrow
  have hfound : state.matching credential (some scope) false = .ok found :=
    congrArg Prod.fst (Option.some.inj (congrArg Prod.snd hmatch))
  cases es with
  | nil => exact nomatch hread
  | cons m es =>
    rw [run_read] at hread
    have hstate := congrArg Prod.fst (Option.some.inj (congrArg Prod.snd hread))
    unfold execScript at hstate
    cases hfault : m.read with
    | some fault =>
      rw [hfault] at hstate
      exact nomatch hstate
    | none =>
      rw [hfault] at hstate
      have hrows : State.ofRows gate.store.bounds
          (((logOf isAdmission db.tables).take (gate.store.bounds.maxReplayRows + 1)).map admissionColumns) = .ok state :=
        hstate
      by_cases hbound : (logOf isAdmission db.tables).length ≤ gate.store.bounds.maxReplayRows
      · obtain ⟨state', hok, hreads, -⟩ := ofRows_columns hdb.ordered hdb.admitted hbound
        rw [List.take_of_length_le (by omega), hok] at hrows
        obtain rfl := Except.ok.inj hrows
        obtain ⟨haccepted, -⟩ := (matching_eq_ok hdb.admitted.sound hreads).1 hfound
        exact h found haccepted.issued haccepted.cap
      · unfold State.ofRows at hrows
        rw [if_pos (by rw [List.length_map, List.length_take]; omega)] at hrows
        exact nomatch hrows

/-! ### A stranger and an operation -/

namespace Stranger

def store : SqliteStore := ⟨"main", StoreBounds.tiny⟩

def api : Api where
  gate := ⟨store⟩
  registry := ⟨store, (Replay.start 0).memory, 0, countAccess 0⟩
  paths := ⟨.ok "main", .ok "main"⟩
  bounded := by decide

/-- Owners who refuse every call. -/
def owners : Owners where
  Sealed := Unit
  Pending := Unit
  Accepted := Empty
  Activated := Empty
  Commit := Empty
  identity := nofun
  commitRow := nofun
  acceptedRow := nofun
  acceptedRequest := nofun
  activeRequest := nofun
  readStaged _ := ⟨done (.error "closed"), trivial⟩
  stage _ _ _ := ⟨done (.error "closed"), trivial⟩
  sealed _ _ _ := ⟨done (.error "closed"), trivial⟩
  prepare _ _ _ := ⟨done (.error "closed"), trivial⟩
  submit _ := ⟨done (.error "closed"), trivial⟩
  reconcileAccept _ := ⟨done (.error "closed"), trivial⟩
  current _ := ⟨done (.error "closed"), trivial⟩
  active _ := ⟨done (.error "closed"), trivial⟩
  «seal» _ _ _ := ⟨done (.error "closed"), trivial⟩
  reconcileSeal _ _ := ⟨done (.error "closed"), trivial⟩

def span : Span := ⟨fun wall => wall = some 1000, some 1000, rfl⟩

theorem scope_valid : IsId "scope-a" := by decide

def scope : TrustedScope := ⟨"scope-a", scope_valid⟩

/-- A credential of a capability nobody issued. -/
def current : Credential := ⟨⟨"stranger", by decide⟩, ⟨"key-1", by decide⟩, ⟨"synthetic-guess", by decide⟩⟩

theorem operation_valid : IsId "api-draft-1" := by decide

def operation : OperationId := ⟨"api-draft-1", operation_valid⟩

/-- The draft whose operation the stranger asks about. -/
def draft : Intent := ⟨0, operation, scope, .draft, operation, none, "", "capability=publisher-1"⟩

def nextKeyId : KeyId := ⟨"key-2", by decide⟩

theorem nextKey_valid : IsKeyText "synthetic-next" := by decide

def nextKey : SyntheticKey := ⟨"synthetic-next", nextKey_valid⟩

def request : Entrypoint := .recover (some current) scope operation (.rotate nextKeyId nextKey)

theorem draft_readable : draft.Readable where
  operation := by decide
  subject := by decide
  parent := nofun
  size := by decide +kernel

/-- A stranger who rotates learns from the error whether an operation of the scope is there. -/
theorem rotation_tells_of_drafts : ¬ ∀ (api : Api) (owners : Owners) (span : Span) (db : Database OutboxTables)
    (r : Entrypoint), r.RefusedBy api span db →
      Silent StoreOp.exec accessLog span.moment (accessLog db) (r.call api owners) := by
  intro h
  obtain ⟨rows, hrows⟩ := ReviewerRotation.rows_made api.gate
  have hcommit : Access.Commit 0 [] none rows := .bootstrap api.gate rfl rfl rfl hrows
  obtain ⟨scopeA, label, label', policy, -, -, hlist⟩ := bootstrapRows_eq_ok hrows
  have hlen : rows.length = 3 := by
    rw [hlist]
    rfl
  obtain ⟨hkept, hlog⟩ := kept_tablesOf hcommit (by omega)
  generalize hdb : (⟨tablesOf rows, []⟩ : Database OutboxTables) = db at hkept
  have hadmissions : admissions db.tables = rows := by
    rw [← hdb]
    exact hlog
  have hissues : ∀ row ∈ issuesOf (admissions db.tables), row.cap ≠ current.capability := by
    rw [hadmissions, hlist]
    intro row hrow
    have hrow' := mem_issuesOf.1 hrow
    simp only [List.mem_cons, List.not_mem_nil, or_false, reduceCtorEq, Admission.issue.injEq, false_or] at hrow'
    rcases hrow' with rfl | rfl
    · show reviewerCap ≠ current.capability
      decide
    · show publisherCap ≠ current.capability
      decide
  have hcurrent : Refused api.gate span db scope (some current) := refused_of_unissued span hkept scope hissues
  have hoffered : Refused api.gate span db scope (some ⟨current.capability, nextKeyId, nextKey⟩) :=
    refused_of_unissued span hkept scope hissues
  have hbootstrapped : LogBootstrapped api.gate db := by
    have hmarker : bootstrapsOf (admissions db.tables) = [api.gate.bootstrapMarker ReviewerRotation.reason] := by
      rw [hadmissions, hlist]
      rfl
    exact bootstrapped_of_run (run_bootstrapReason hkept (by rw [hadmissions, hlen]; decide) hmarker
      (m := Moment.quiet "" 1000) rfl [])
  -- one database has no row of the journal, the other the draft's
  let m : Moment := Moment.quiet "" 1000
  have hm : span.moment m := rfl
  let row : OutboxRecord := journalRow scope (Value.text draft.bytes).toJson
  have hempty : accessLog (withRows db []) = accessLog db := accessLog_withRows rfl fun r hr => nomatch hr
  have hrow : accessLog (withRows db [row]) = accessLog db := by
    refine accessLog_withRows rfl fun r hr => ?_
    rw [List.mem_singleton.1 hr]
    exact not_admission_of_event rfl
  have hfound : lookup (withRows db [row]) scope operation = .ok { draft with rowId := 1 } := by
    rw [lookup_row, Intent.decode_of_readable draft_readable (by omega) (by omega)]
    rfl
  obtain ⟨rest, hnone⟩ := run_rotation_unread owners (hcurrent.congr hempty) (hbootstrapped.congr hempty)
    rfl hm (lookup_none operation) nextKeyId nextKey
  obtain ⟨error, rest', hsome⟩ := run_rotation_other owners (hcurrent.congr hrow)
    (hbootstrapped.congr hrow) rfl hm hfound (by decide) nextKeyId nextKey
  have hmoments : ∀ e ∈ [m, m, m, m], span.moment e := by
    intro e he
    simp only [List.mem_cons, List.not_mem_nil, or_false, or_self] at he
    rw [he]
    exact hm
  have hsame := (h api owners span db request ⟨hcurrent, hoffered⟩).same _ _ hempty hrow [m, m, m, m] hmoments
  rw [show request = .recover (some current) scope operation (.rotate nextKeyId nextKey) from rfl, hnone, hsome] at hsame
  exact nomatch hsame

end Stranger

end Verdant.Api
