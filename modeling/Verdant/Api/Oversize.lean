import Verdant.Access.Delegation
import Verdant.Api.Legible
import Verdant.Binding.Granted
import Verdant.Storage.QuietInsert

/-!
# An intent that does not read back

Calls that go on alone where nothing fails: an append commits its row, and a call for a new operation of a scope without
intents remembers it.  Where the store takes larger values than a read of the journal takes texts, such a call commits an
intent that no read decodes, and the scope is not read again.
-/

namespace Verdant.Api

open TextCodec Storage Access Binding Prog

/-- An append that its condition lets through commits its row, where nothing fails. -/
theorem run_append_quiet (api : Coordinator) (a : Append) (hexpiry : a.expiry = none) {db : Database OutboxTables}
    {draw submit : Moment} {drawn : OperationId} (hid : OperationId.parse draw.id = .ok drawn)
    (hhost : submit.host.Quiet) (hadmits : Admits api.registry.store a.id a.value.utf8ByteSize db)
    (hholds : a.condition.holds (db.begin submit.host.clock).tick = true) (rest : List Moment) :
    ∃ db', (api.append a.id a.kind a.scope a.value a.condition a.expiry).run.run StoreOp.exec (draw :: submit :: rest)
        db = (db', some (.ok ((db.tables.lastId + 1 : Nat) : Int), rest)) ∧
      Appended db.tables db'.tables [apiRow a.kind a.scope a.value] := by
  have hpending : prepareGuardedBatch api.registry.store draw.id a.condition.text a.condition.holds
      (apiLive a.expiry ++ [insertApi a.kind a.scope a.value]) a.value.utf8ByteSize =
        .ok ⟨drawn, api.registry.store.identity, a.body, .insert, a.value.utf8ByteSize, false⟩ := by
    unfold prepareGuardedBatch PreparedMutation.new
    rw [hid]
    rfl
  have hfront : ∃ t, (apiLive a.expiry).run (bodyStart submit.host db) = .ok (t, []) ∧ t.toDatabase = db := by
    rw [hexpiry]
    exact ⟨_, rfl, rfl⟩
  obtain ⟨db', hsubmit, happended⟩ : ∃ db', Storage.submit api.registry.store
      ⟨a.id, api.registry.store.identity, a.body, .insert, a.value.utf8ByteSize, true⟩ submit.host db =
        (db', .committed a.id [[Nat.repr (db.tables.lastId + 1)], ["1"]]) ∧
      Appended db.tables db'.tables [apiRow a.kind a.scope a.value] := by
    obtain ⟨db', hsubmit, happended, -⟩ := submit_row_quiet hhost hadmits hholds hfront
    exact ⟨db', hsubmit, happended⟩
  have hrow : rowOutcome (.committed a.id [[Nat.repr (db.tables.lastId + 1)], ["1"]]) =
      .ok (some ((db.tables.lastId + 1 : Nat) : Int)) := by
    unfold rowOutcome
    simp only [List.head?_cons, Option.bind_some]
    rw [numberI64_repr hadmits.room, Result.ok_bind, if_neg (by omega)]
  refine ⟨db', ?_, happended⟩
  unfold Coordinator.append
  rw [run_try_bind]
  have hdraw : (liftM (Call.draw : Call OutboxTables String) : ApiCall String).run.run StoreOp.exec
      (draw :: submit :: rest) db = (db, some (.ok draw.id, submit :: rest)) := rfl
  rw [hdraw]
  simp only
  rw [hpending, Except.mapError, check_bind_ok, run_try_bind]
  have hstep : ∀ pending : PreparedMutation OutboxTables,
      (liftM (Call.submit api.registry.store pending) : ApiCall MutationOutcome).run.run StoreOp.exec (submit :: rest)
        db = ((Storage.submit api.registry.store pending submit.host db).1,
          some (.ok (Storage.submit api.registry.store pending submit.host db).2, rest)) := fun _ => rfl
  have hticket : (⟨drawn, api.registry.store.identity, a.body, .insert, a.value.utf8ByteSize, false⟩ :
      PreparedMutation OutboxTables).withOperation a.id =
        ⟨a.id, api.registry.store.identity, a.body, .insert, a.value.utf8ByteSize, true⟩ := rfl
  rw [hticket, hstep, hsubmit]
  simp only
  rw [run_try_bind]
  have hpure : ∀ out : MutationOutcome, (liftM (pure out : Call OutboxTables MutationOutcome) :
      ApiCall MutationOutcome).run.run StoreOp.exec rest db' = (db', some (.ok out, rest)) := fun _ => rfl
  rw [hpure]
  simp only
  rw [hrow, check_bind_ok]
  rfl

/-- A call for a new operation of a scope without intents remembers it, where nothing fails. -/
theorem run_remember_quiet (api : Coordinator) {db : Database OutboxTables} (hdb : Access.Kept db)
    (hbound : (admissions db.tables).length ≤ api.gate.store.bounds.maxReplayRows) (hpaths : api.paths.require = .ok ())
    (e : Entry) (hop : IsApi e.op) (hdraft : e.kind = .draft) (hempty : scopeLog e.scope db = [])
    {credential : Credential} {row : IssueRow} {actor : ActorContext} {now : Nat}
    (hopens : Opens (admissions db.tables) now e.scope .publisher credential row actor)
    (hexpires : row.policy.expiresAtMs = none) {history capture look check draw submit : Moment}
    (hhistory : history.read = none) (hcapture : capture.read = none) (hlook : look.read = none)
    (hwall : check.wall = some now) {drawn id : OperationId} (hdrawn : OperationId.parse draw.id = .ok drawn)
    (hid : child journalFront e.op = .ok id) (hhost : submit.host.Quiet)
    (hadmits : Admits api.registry.store id (Value.text (e.intent (actorText actor)).bytes).toJson.utf8ByteSize db)
    (rest : List Moment) :
    ∃ db', (api.remember credential e.scope e.op e.kind e.subject e.parent e.request false).run.run StoreOp.exec
        (history :: capture :: look :: check :: draw :: submit :: rest) db =
        (db', some (.ok { e.intent (actorText actor) with rowId := ((db.tables.lastId + 1 : Nat) : Int) }, rest)) ∧
      Appended db.tables db'.tables
        [apiRow eventText e.scope (Value.text (e.intent (actorText actor)).bytes).toJson] := by
  -- the history is empty
  have hrows : (readRows (selectIntents e.scope)).run.run StoreOp.exec
      (history :: capture :: look :: check :: draw :: submit :: rest) db =
        (db, some (.ok [], capture :: look :: check :: draw :: submit :: rest)) := by
    show (db, some ((execScript history (selectIntents e.scope) db).mapError ApiError.storage, _)) = _
    unfold execScript
    rw [hhistory]
    exact congrArg (fun rows : List OutboxRecord => (db, some (Except.ok ((rows.take (maxWork + 1)).map intentColumns),
      capture :: look :: check :: draw :: submit :: rest))) hempty
  have hintents : (intents e.scope).run.run StoreOp.exec
      (history :: capture :: look :: check :: draw :: submit :: rest) db =
        (db, some (.ok [], capture :: look :: check :: draw :: submit :: rest)) := by
    unfold intents
    rw [run_try_bind, hrows]
    rfl
  obtain ⟨guard, hauthority, hguard⟩ := run_authority .drive hdb hbound hopens hpaths hcapture hlook hwall
    (draw :: submit :: rest)
  have hgranted : (api.authority (some credential) e.scope .drive).run.run StoreOp.exec
      (capture :: look :: check :: draw :: submit :: rest) db =
        (db, some (.ok ⟨actor.report, guard⟩, draw :: submit :: rest)) := run_mapErr_ok hauthority _
  have hadmitted : admitIntent [] e.kind e.subject e.parent = .ok () := by
    rw [hdraft]
    rfl
  -- the append
  have hexpiry : (e.append id ⟨actor.report, guard⟩ 0).expiry = none := by
    have hrow : actor.report.actor.row = row := hopens.row_eq
    show actor.report.actor.row.policy.expiresAtMs = none
    rw [hrow, hexpires]
  have hfresh : findReceipt db.receipts (journalFront ++ "-" ++ e.op.text) = none := by
    rw [← (child_eq_ok hid).1]
    exact hadmits.fresh
  have hholds : (e.append id ⟨actor.report, guard⟩ 0).condition.holds (db.begin submit.host.clock).tick = true := by
    show (guard.holds db.tables && countIs (isIntentOf e.scope) 0 db.tables &&
      (findReceipt db.receipts (journalFront ++ "-" ++ e.op.text)).isNone) = true
    have hcount : countIs (isIntentOf e.scope) 0 db.tables = true := decide_eq_true (congrArg List.length hempty)
    rw [hguard db.tables rfl, hcount, hfresh]
    rfl
  obtain ⟨db', hrun, happended⟩ := run_append_quiet api (e.append id ⟨actor.report, guard⟩ 0) hexpiry hdrawn hhost
    hadmits hholds rest
  refine ⟨db', ?_, happended⟩
  unfold Coordinator.remember
  rw [operation_of_isApi hop, check_bind_ok, run_try_bind, hintents]
  simp only
  rw [run_try_bind]
  have hrole : (if (false : Bool) = true then BindingRole.sense else .drive) = .drive := rfl
  rw [hrole, hgranted]
  simp only [List.find?_nil]
  rw [hadmitted, check_bind_ok, hid, check_bind_ok]
  exact run_try_ok.2 ⟨_, db', rest, hrun, rfl⟩

/-! ### A draft of more bytes -/

namespace Oversize

/-- One byte more than a read of the journal takes. -/
def text : String := String.ofList (List.replicate 65537 'a')

theorem size_text : text.utf8ByteSize = 65537 := by
  have hone : Char.utf8Size 'a' = 1 := by decide
  unfold text
  rw [utf8ByteSize_ofList, List.map_replicate, List.sum_replicate, hone, smul_eq_mul]

theorem draft_valid : IsId "api-draft-1" := by decide

def draft : OperationId := ⟨"api-draft-1", draft_valid⟩

theorem parent_api : ∀ p ∈ (none : Option OperationId), IsApi p := by
  rintro p ⟨⟩

def entry (scope : TrustedScope) : Entry where
  scope := scope
  op := draft
  kind := .draft
  subject := draft
  parent := none
  request := text
  own _ := ⟨rfl, rfl⟩
  subject_api := .inl rfl
  parent_api := Oversize.parent_api

/-- A coordinator whose store takes values of `n` bytes. -/
def coordinator (n : Nat) : Coordinator where
  gate := ⟨⟨"main", StoreBounds.tiny⟩⟩
  registry :=
    ⟨⟨"main", { StoreBounds.tiny with maxValueBytes := n, maxDbBytes := n }⟩, (Replay.start 0).memory, 0, countAccess 0⟩
  paths := ⟨.ok "main", .ok "main"⟩

theorem not_short (scope : TrustedScope) (actor : String) : ¬ Short ((entry scope).intent actor) := by
  have hfield : text ∈ ((entry scope).intent actor).fields := by
    unfold Intent.fields
    simp [Entry.intent, entry]
  have hsize := utf8ByteSize_le_encodeFrames hfield
  rw [size_text] at hsize
  unfold Short
  exact Nat.not_le_of_lt hsize

/-- A call alone for a draft of more bytes than a read takes commits it, and its scope is not read again. -/
theorem draft_closes_scope : ¬ ∀ (start : EmptyJournal) (turns : List (Turn JournalRequest Moment))
    (scope : TrustedScope) (m : Moment) (rest : List Moment), m.read = none →
      ∃ history, (intents scope).run.run StoreOp.exec (m :: rest) (journalRun start turns) =
        (journalRun start turns, some (.ok history, rest)) := by
  intro h
  let gate : AccessGate := ⟨⟨"main", StoreBounds.tiny⟩⟩
  obtain ⟨rows, hrows⟩ := ReviewerRotation.rows_made gate
  have hlen : rows.length = 3 := by
    obtain ⟨_, _, _, _, -, -, rfl⟩ := bootstrapRows_eq_ok hrows
    rfl
  obtain ⟨hkept, hlog⟩ := kept_tablesOf (.bootstrap gate rfl rfl rfl hrows : Access.Commit 0 [] none rows) (by omega)
  obtain ⟨scope, row, actor, hopens, hexpires⟩ := opens_bootstrapped hrows (by omega : 1000 < 2 ^ 63)
  have hforeign : logOf isApiRow (tablesOf rows) = [] := by
    refine logOf_tablesOf rows fun r hr => ?_
    simp only [List.mem_cons, List.not_mem_nil, or_false] at hr
    unfold isApiRow
    rcases hr with hr | hr | hr <;> rw [hr] <;> decide
  let start : EmptyJournal := ⟨⟨tablesOf rows, []⟩, hkept.ordered, hforeign, fun _ hr => nomatch hr⟩
  have hempty : scopeLog scope start.db = [] :=
    scopeLog_eq (s := ⟨OutboxTables.empty, []⟩) (t := start.db) hforeign
  -- the store takes the value of the draft
  let n := (Value.text ((entry scope).intent (actorText actor)).bytes).toJson.utf8ByteSize
  have hspace : saturatingAdd 0 n ≤ n := by
    unfold saturatingAdd
    omega
  have hroom : rows.length + 1 < 2 ^ 63 := by omega
  have hadmits : Admits (coordinator n).registry.store ⟨"api-journal-api-draft-1", by decide⟩ n start.db :=
    ⟨rfl, Nat.le_refl _, hspace, hroom⟩
  have hquiet : (Moment.quiet "" 1000).host.Quiet := ⟨rfl, rfl, rfl, rfl, rfl, rfl⟩
  have hop : IsApi draft := by decide
  have hid : child journalFront draft = .ok ⟨"api-journal-api-draft-1", by decide⟩ := by
    have hparse : OperationId.parse (journalFront ++ "-" ++ draft.text) = .ok ⟨"api-journal-api-draft-1", by decide⟩ :=
      parseId_of_isId (by decide)
    unfold child
    rw [operation_of_isApi hop, Result.ok_bind, hparse]
    rfl
  have hdrawn : OperationId.parse (Moment.quiet "storage-1" 1000).id = .ok ⟨"storage-1", by decide⟩ :=
    parseId_of_isId (by decide)
  have hreplay : (admissions start.db.tables).length ≤ StoreBounds.tiny.maxReplayRows := by
    rw [hlog, hlen]
    decide
  obtain ⟨db', hrun, happended⟩ := run_remember_quiet (coordinator n) hkept hreplay rfl (entry scope)
    hop rfl hempty (by rw [hlog]; exact hopens) hexpires (rfl : (Moment.quiet "" 1000).read = none)
    (rfl : (Moment.quiet "" 1000).read = none) (rfl : (Moment.quiet "" 1000).read = none)
    (rfl : (Moment.quiet "" 1000).wall = some 1000) hdrawn hid hquiet hadmits []
  let turns : List (Turn JournalRequest Moment) :=
    .ask (.remember (coordinator n) (entry scope) ReviewerRotation.publisher false) ::
      ([.quiet "" 1000, .quiet "" 1000, .quiet "" 1000, .quiet "" 1000, .quiet "storage-1" 1000, .quiet "" 1000] :
        List Moment).map (Turn.step 0)
  have hend : journalRun start turns = db' := by
    unfold journalRun
    refine (Pool.played_alone StoreOp.exec (fun _ (r : JournalRequest) => r.call.run) (Pool.idle start.db) _ _).trans ?_
    have hcall : ((JournalRequest.remember (coordinator n) (entry scope) ReviewerRotation.publisher false).call).run.run
        StoreOp.exec [.quiet "" 1000, .quiet "" 1000, .quiet "" 1000, .quiet "" 1000, .quiet "storage-1" 1000,
          .quiet "" 1000] start.db = (db', some (.ok (), [])) := run_try_ok.2 ⟨_, db', [], hrun, rfl⟩
    exact congrArg Prod.fst hcall
  have hcommitted : Committed (journalRun start turns) scope ((entry scope).intent (actorText actor)) := by
    rw [hend]
    let row : OutboxRecord :=
      (apiRow eventText scope (Value.text ((entry scope).intent (actorText actor)).bytes).toJson).record (rows.length + 1)
    have hadded : scopeLog scope db' = scopeLog scope start.db ++ [row].filter (isIntentOf scope) :=
      happended.logOf_eq (isIntentOf scope)
    refine ⟨row, ?_, ⟨rfl, hop, hop, nofun⟩⟩
    · rw [hadded, hempty, List.nil_append]
      refine List.mem_filter.2 ⟨List.mem_singleton.2 rfl, ?_⟩
      unfold isIntentOf row
      simp [NewRow.record, apiRow]
  exact not_short scope _ (((scribed_journalRun start turns).reads_iff scope rfl []).1
    (h start turns scope (.quiet "" 1000) [] rfl) _ hcommitted)

end Oversize

end Verdant.Api
