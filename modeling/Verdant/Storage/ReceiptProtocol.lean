import Verdant.Storage.Outbox

/-!
# The receipt protocol over whole runs

Any number of handles prepare tickets, rebuild them under persisted identities, and submit and reconcile them in any
order, while the host may fail every step.  The state is the database with the tickets still held; a ticket and its
clones are one entry because they share the `attempted` flag.  `Records` is the abstract picture: the database is what
a log of applications, one for each operation identity, leaves, and the receipts are exactly the log.
`receipt_protocol_iff` says when the answers are honest as well.
-/

namespace Verdant.Storage

variable {ρ : Type}

/-! ### Runs -/

/-- A ticket whose body writes the owners' tables only. -/
structure RowTicket (ρ : Type) extends PreparedMutation ρ where
  leavesReceipts : body.LeavesReceipts

structure World (ρ : Type) where
  db : Database ρ
  tickets : List (RowTicket ρ)

/-- A script with the proof that it leaves the receipts alone. -/
structure RowBody (ρ : Type) where
  script : Script ρ
  leavesReceipts : script.LeavesReceipts

inductive Event (ρ : Type) where
  | prepare (store : SqliteStore) (id : String) (body : RowBody ρ) (shape : Shape) (payloadBytes : Nat)
  | rebuild (ticket : Nat) (operation : OperationId)
  | submit (store : SqliteStore) (ticket : Nat) (host : Host)
  | reconcile (store : SqliteStore) (ticket : Nat) (host : Host)

/-- What a call answered: the ticket, what the host did and the outcome. -/
structure Answer (ρ : Type) where
  pending : PreparedMutation ρ
  host : Host
  outcome : MutationOutcome

def World.step (w : World ρ) : Event ρ → World ρ
  | .prepare store id body shape payloadBytes =>
    match h : PreparedMutation.new store id body.script shape with
    | .ok pending =>
      let ticket : RowTicket ρ := ⟨{ pending with payloadBytes := payloadBytes }, by
        rw [show pending.body = body.script from PreparedMutation.new_body h]
        exact body.leavesReceipts⟩
      { w with tickets := w.tickets ++ [ticket] }
    | .error _ => w
  | .rebuild i operation =>
    match w.tickets[i]? with
    | some t => { w with tickets := w.tickets ++ [⟨t.withOperation operation, t.leavesReceipts⟩] }
    | none => w
  | .submit store i host =>
    match w.tickets[i]? with
    | some t =>
      { db := (Storage.submit store t.toPreparedMutation host w.db).1
        tickets := w.tickets.set i ⟨t.dispatched, t.leavesReceipts⟩ }
    | none => w
  | .reconcile _ _ _ => w

def World.answer (w : World ρ) : Event ρ → Option (Answer ρ)
  | .submit store i host =>
    (w.tickets[i]?).map fun t => ⟨t.toPreparedMutation, host, (Storage.submit store t.toPreparedMutation host w.db).2⟩
  | .reconcile store i host =>
    (w.tickets[i]?).map fun t => ⟨t.toPreparedMutation, host, Storage.reconcile store t.toPreparedMutation host w.db⟩
  | _ => none

/-- A run from a store without receipts. -/
def World.run (tables : ρ) (events : List (Event ρ)) : World ρ :=
  events.foldl World.step ⟨⟨tables, []⟩, []⟩

theorem World.run_snoc (tables : ρ) (events : List (Event ρ)) (e : Event ρ) :
    World.run tables (events ++ [e]) = (World.run tables events).step e := by
  simp [World.run]

/-! ### The abstract picture -/

/-- The database is what the applications of `log` leave, and its receipts are exactly these applications. -/
structure Records (tables : ρ) (log : List (Application ρ)) (db : Database ρ) : Prop where
  history : Ledger.History (fun a => a.mutation.operation) Application.apply ⟨tables, []⟩ log db
  receipts : db.receipts = log.map Application.receipt
  shaped : ∀ a ∈ log, validateRows a.mutation.shape a.rows = .ok ()

theorem Records.nil (tables : ρ) : Records tables [] ⟨tables, []⟩ :=
  ⟨Ledger.History.nil _ _ _, rfl, by simp⟩

theorem Records.mem_of_receipt {tables : ρ} {log : List (Application ρ)} {db : Database ρ}
    (h : Records tables log db) {r : ReceiptRow} (hr : r ∈ db.receipts) :
    ∃ a ∈ log, a.receipt = r ∧ decodeResponse r.response = .ok a.rows := by
  rw [h.receipts, List.mem_map] at hr
  obtain ⟨a, ha, rfl⟩ := hr
  exact ⟨a, ha, rfl, decodeResponse_encodeResponse (framed_of_validateRows (h.shaped a ha))⟩

/-- A request that finds no receipt extends the log by its application. -/
theorem Records.append {tables : ρ} {log : List (Application ρ)} {db next : Database ρ}
    (h : Records tables log db) {pending : PreparedMutation ρ} {clock : Nat → Int64}
    {rows : Rows} (hbody : pending.body.LeavesReceipts)
    (hnone : findReceipt db.receipts pending.operation.text = none)
    (happly : (⟨pending, clock, rows⟩ : Application ρ).apply db = some next)
    (hshape : validateRows pending.shape rows = .ok ()) :
    Records tables (log ++ [⟨pending, clock, rows⟩]) next := by
  have hfresh : pending.operation ∉ log.map (fun a => a.mutation.operation) := by
    intro hmem
    obtain ⟨a, ha, hop⟩ := List.mem_map.1 hmem
    refine findReceipt_none.1 hnone a.receipt ?_ (congrArg OperationId.text hop)
    rw [h.receipts]
    exact List.mem_map_of_mem ha
  obtain ⟨s, hrun, hnext⟩ := Application.apply_eq_some.1 happly
  refine ⟨h.history.append hfresh happly, ?_, ?_⟩
  · have hleft : s.receipts = db.receipts := hbody (db.begin clock) s rows hrun
    rw [hnext]
    simp [hleft, h.receipts]
  · intro a ha
    rcases List.mem_append.1 ha with ha | ha
    · exact h.shaped a ha
    · rw [List.mem_singleton] at ha
      subst ha
      exact hshape

/-! ### Honest answers -/

/-- The detail of the conflict that a committed change without affected rows is reported as. -/
def zeroChanges : String := "zero affected rows (claim owner/state or entity mismatch)"

/-- The single application of `operation` carries this ticket's request and returned these rows. -/
def Applied (log : List (Application ρ)) (pending : PreparedMutation ρ) (operation : OperationId) (rows : Rows) :
    Prop :=
  operation = pending.operation ∧
    ∃ a ∈ log, a.mutation.operation = operation ∧ a.mutation.request = pending.request ∧ a.rows = rows

/-- What an answer may say about the database before and after the call. -/
structure Honest (log : List (Application ρ)) (before after : Database ρ) (a : Answer ρ) : Prop where
  committed : ∀ operation rows, a.outcome = .committed operation rows → Applied log a.pending operation rows
  unchanged : ∀ operation, a.outcome = .conflict operation zeroChanges →
    a.pending.shape = .change ∧ Applied log a.pending operation [["0"]]
  notCommitted : ∀ operation error, a.outcome = .notCommitted operation error →
    ∀ r ∈ after.receipts, r.operation ≠ operation.text
  mismatch : ∀ r ∈ before.receipts, r.operation = a.pending.operation.text → r.request ≠ a.pending.request →
    after = before ∧ (a.host.admission = none → a.host.lookup = none →
      ∃ detail, a.outcome = .conflict a.pending.operation detail)

/-- An outcome that says nothing about the store. -/
private theorem honest_unknown (log : List (Application ρ)) (before after : Database ρ)
    (pending : PreparedMutation ρ) (host : Host) (detail : String)
    (h : ∀ r ∈ before.receipts, r.operation = pending.operation.text → r.request ≠ pending.request →
      after = before ∧ ¬ (host.admission = none ∧ host.lookup = none)) :
    Honest log before after ⟨pending, host, .unknown pending.operation detail⟩ where
  committed := by simp
  unchanged := by simp
  notCommitted := by simp
  mismatch r hr hop hreq := ⟨(h r hr hop hreq).1, fun ha hl => absurd ⟨ha, hl⟩ (h r hr hop hreq).2⟩

private theorem honest_conflict (log : List (Application ρ)) (db : Database ρ) (pending : PreparedMutation ρ)
    (host : Host) {detail : String} (h : detail ≠ zeroChanges) :
    Honest log db db ⟨pending, host, .conflict pending.operation detail⟩ where
  committed := by simp
  unchanged := by
    intro operation heq
    simp only [MutationOutcome.conflict.injEq] at heq
    exact absurd heq.2 h
  notCommitted := by simp
  mismatch _ _ _ _ := ⟨rfl, fun _ _ => ⟨detail, rfl⟩⟩

private theorem honest_notCommitted (log : List (Application ρ)) {db : Database ρ} (pending : PreparedMutation ρ)
    (host : Host) (e : StorageError) (h : findReceipt db.receipts pending.operation.text = none) :
    Honest log db db ⟨pending, host, .notCommitted pending.operation e⟩ where
  committed := by simp
  unchanged := by simp
  notCommitted := by
    intro operation error heq r hr
    simp only [MutationOutcome.notCommitted.injEq] at heq
    rw [← heq.1]
    exact findReceipt_none.1 h r hr
  mismatch r hr hop _ := absurd hop (findReceipt_none.1 h r hr)

/-- The outcome of an application is honest wherever that application is in the log. -/
private theorem honest_outcome {log : List (Application ρ)} {before after : Database ρ}
    (pending : PreparedMutation ρ) (host : Host) {rows : Rows} (h : Applied log pending pending.operation rows)
    (hmatch : ∀ r ∈ before.receipts, r.operation = pending.operation.text → r.request = pending.request) :
    Honest log before after ⟨pending, host, outcome pending.shape pending.operation rows⟩ := by
  unfold outcome
  split
  · rename_i hzero
    refine ⟨by simp, ?_, by simp, fun r hr hop hreq => absurd (hmatch r hr hop) hreq⟩
    intro operation heq
    simp only [MutationOutcome.conflict.injEq] at heq
    rw [← heq.1]
    exact ⟨hzero.1, hzero.2 ▸ h⟩
  · refine ⟨?_, by simp, by simp, fun r hr hop hreq => absurd (hmatch r hr hop) hreq⟩
    intro operation rows' heq
    simp only [MutationOutcome.committed.injEq] at heq
    rw [← heq.1, ← heq.2]
    exact h

/-- Receipts of one operation are one receipt. -/
private theorem receipt_unique {tables : ρ} {log : List (Application ρ)} {db : Database ρ}
    (h : Records tables log db) {r r' : ReceiptRow} (hr : r ∈ db.receipts) (hr' : r' ∈ db.receipts)
    (hop : r.operation = r'.operation) : r = r' := by
  obtain ⟨a, ha, rfl, -⟩ := h.mem_of_receipt hr
  obtain ⟨b, hb, rfl, -⟩ := h.mem_of_receipt hr'
  rw [h.history.entry_unique ha hb (OperationId.ext_text hop)]

/-- The answer read from a receipt with the ticket's own request. -/
private theorem honest_recorded {tables : ρ} {log : List (Application ρ)} {db : Database ρ}
    (h : Records tables log db) (pending : PreparedMutation ρ) (host : Host) {receipt : ReceiptRow}
    (hr : findReceipt db.receipts pending.operation.text = some receipt)
    (hreq : receipt.request = pending.request) :
    Honest log db db ⟨pending, host,
      match decodeResponse receipt.response with
      | .error e => .unknown pending.operation e.display
      | .ok rows =>
        match validateRows pending.shape rows with
        | .error e => .unknown pending.operation e.display
        | .ok () => outcome pending.shape pending.operation rows⟩ := by
  obtain ⟨hmem, hop⟩ := findReceipt_some hr
  obtain ⟨a, ha, hreceipt, hdecode⟩ := h.mem_of_receipt hmem
  have hmatch : ∀ r ∈ db.receipts, r.operation = pending.operation.text → r.request = pending.request := by
    intro r hr' hop'
    rw [receipt_unique h hr' hmem (hop'.trans hop.symm), hreq]
  have hunknown := fun detail => honest_unknown log db db pending host detail
    fun r hr' hop' hreq' => absurd (hmatch r hr' hop') hreq'
  rw [hdecode]
  dsimp only
  cases validateRows pending.shape a.rows with
  | error e => exact hunknown _
  | ok _ =>
    refine honest_outcome pending host ⟨rfl, a, ha, ?_, ?_, rfl⟩ hmatch
    · apply OperationId.ext_text
      rw [← hop, ← hreceipt]
      rfl
    · rw [← hreq, ← hreceipt]
      rfl

/-! ### One step -/

/-- A call refused admission whose ticket still carries a fresh flag while its operation has a receipt. -/
def RefusedFresh (w : World ρ) : Event ρ → Prop
  | .submit store i host => ∃ t, w.tickets[i]? = some t ∧ t.store = store.identity ∧ t.attempted = false ∧
      host.admission ≠ none ∧ (findReceipt w.db.receipts t.operation.text).isSome
  | _ => False

private theorem submit_honest {tables : ρ} {log : List (Application ρ)} {db : Database ρ}
    (h : Records tables log db) (store : SqliteStore) (t : RowTicket ρ) (host : Host)
    (hfresh : ¬ (t.store = store.identity ∧ t.attempted = false ∧ host.admission ≠ none ∧
      (findReceipt db.receipts t.operation.text).isSome)) :
    ∃ log', Records tables log' (submit store t.toPreparedMutation host db).1 ∧ log <+: log' ∧
      Honest log' db (submit store t.toPreparedMutation host db).1
        ⟨t.toPreparedMutation, host, (submit store t.toPreparedMutation host db).2⟩ := by
  have hcases := submit_cases store t.toPreparedMutation host db
  generalize (submit store t.toPreparedMutation host db).1 = next at hcases ⊢
  generalize (submit store t.toPreparedMutation host db).2 = out at hcases ⊢
  have hnomatch (hr : findReceipt db.receipts t.operation.text = none) :
      ∀ r ∈ db.receipts, r.operation = t.operation.text → r.request = t.request :=
    fun r hmem hop => absurd hop (findReceipt_none.1 hr r hmem)
  cases hcases with
  | foreign hstore => exact ⟨log, h, List.prefix_rfl, honest_conflict log db _ host (by decide)⟩
  | refused hstore e he =>
    refine ⟨log, h, List.prefix_rfl, ?_⟩
    split
    · exact honest_unknown log db db _ host _ fun _ _ _ _ => ⟨rfl, by simp [he]⟩
    · rename_i hattempted
      refine honest_notCommitted log _ host e ?_
      rw [← Option.not_isSome_iff_eq_none]
      exact fun hsome => hfresh ⟨hstore, by simpa using hattempted, by simp [he], hsome⟩
  | unread hstore ha e he =>
    exact ⟨log, h, List.prefix_rfl, honest_unknown log db db _ host _ fun _ _ _ _ => ⟨rfl, by simp [he]⟩⟩
  | replayed hstore ha hl receipt hr =>
    refine ⟨log, h, List.prefix_rfl, ?_⟩
    unfold replay
    split
    · exact honest_conflict log db _ host (by decide)
    · rename_i hreq
      exact honest_recorded h _ host hr (not_not.1 hreq)
  | rolledBack hstore hr e he => exact ⟨log, h, List.prefix_rfl, honest_notCommitted log _ host e hr⟩
  | applied hstore hr _ rows hs hc =>
    obtain ⟨happly, hvalid⟩ := stage_eq_ok hs
    refine ⟨_, h.append t.leavesReceipts hr happly hvalid, List.prefix_append _ _, ?_⟩
    exact honest_outcome _ host ⟨rfl, _, List.mem_append_right _ (List.mem_singleton_self _), rfl, rfl, rfl⟩
      (hnomatch hr)
  | unseen hstore hr staged rows hs applied e hc =>
    have hunknown := fun log after => honest_unknown log db after t.toPreparedMutation host
      e.toStorageError.display fun r hmem hop hreq => absurd (hnomatch hr r hmem hop) hreq
    cases applied with
    | false => exact ⟨log, h, List.prefix_rfl, hunknown log db⟩
    | true =>
      obtain ⟨happly, hvalid⟩ := stage_eq_ok hs
      exact ⟨_, h.append t.leavesReceipts hr happly hvalid, List.prefix_append _ _, hunknown _ staged⟩

private theorem reconcile_honest {tables : ρ} {log : List (Application ρ)} {db : Database ρ}
    (h : Records tables log db) (store : SqliteStore) (pending : PreparedMutation ρ) (host : Host) :
    Honest log db db ⟨pending, host, reconcile store pending host db⟩ := by
  unfold reconcile barrierLookup lookupReceipt
  cases ha : host.admission with
  | some e => exact honest_unknown log db db _ host _ fun _ _ _ _ => ⟨rfl, by simp [ha]⟩
  | none =>
    cases hl : host.lookup with
    | some e => exact honest_unknown log db db _ host _ fun _ _ _ _ => ⟨rfl, by simp [hl]⟩
    | none =>
      cases hr : findReceipt db.receipts pending.operation.text with
      | some receipt =>
        dsimp only
        split
        · rename_i hreq
          exact honest_recorded h pending host hr hreq.1
        · exact honest_conflict log db pending host (by decide)
      | none =>
        dsimp only
        split
        · exact honest_notCommitted log pending host _ hr
        · exact honest_conflict log db pending host (by decide)

/-- One step keeps the records and, unless it is a refused fresh submit, answers honestly. -/
theorem World.step_records {tables : ρ} {log : List (Application ρ)} {w : World ρ}
    (h : Records tables log w.db) (e : Event ρ) :
    ∃ log', Records tables log' (w.step e).db ∧ log <+: log' ∧
      (¬ RefusedFresh w e → ∀ a, w.answer e = some a → Honest log' w.db (w.step e).db a) := by
  cases e with
  | prepare store id body shape payloadBytes =>
    refine ⟨log, ?_, List.prefix_rfl, fun _ a ha => nomatch ha⟩
    simp only [World.step]
    split <;> exact h
  | rebuild i operation =>
    refine ⟨log, ?_, List.prefix_rfl, fun _ a ha => nomatch ha⟩
    simp only [World.step]
    split <;> exact h
  | reconcile store i host =>
    refine ⟨log, h, List.prefix_rfl, fun _ a ha => ?_⟩
    simp only [World.answer, Option.map_eq_some_iff] at ha
    obtain ⟨t, -, rfl⟩ := ha
    exact reconcile_honest h store t.toPreparedMutation host
  | submit store i host =>
    cases ht : w.tickets[i]? with
    | none =>
      refine ⟨log, by simpa [World.step, ht] using h, List.prefix_rfl, fun _ a ha => ?_⟩
      simp [World.answer, ht] at ha
    | some t =>
      simp only [World.step, World.answer, ht, Option.map_some, Option.some.injEq]
      by_cases hfresh : RefusedFresh w (.submit store i host)
      · rcases submit_step store t.toPreparedMutation host w.db with hsame | ⟨-, hnone, -⟩
        · exact ⟨log, by rw [hsame]; exact h, List.prefix_rfl, fun hn => absurd hfresh hn⟩
        · obtain ⟨t', ht', -, -, -, hsome⟩ := hfresh
          rw [ht] at ht'
          cases ht'
          rw [hnone] at hsome
          exact nomatch hsome
      · obtain ⟨log', hrecords, hprefix, hhonest⟩ := submit_honest h store t host
          fun hbad => hfresh ⟨t, ht, hbad⟩
        refine ⟨log', hrecords, hprefix, fun _ a ha => ?_⟩
        rw [← ha]
        exact hhonest

/-- Every run keeps the records: each request is applied at most once, and the receipts are the applications. -/
theorem World.run_records (tables : ρ) (events : List (Event ρ)) :
    ∃ log, Records tables log (World.run tables events).db := by
  induction events using List.reverseRecOn with
  | nil => exact ⟨[], Records.nil tables⟩
  | append_singleton events e ih =>
    obtain ⟨log, hlog⟩ := ih
    obtain ⟨log', hlog', -⟩ := World.step_records hlog e
    rw [World.run_snoc]
    exact ⟨log', hlog'⟩

/-! ### The protocol -/

/-- At every step of the run the records hold before and after it, the log only grows, and the answer is honest. -/
def ProtocolHolds (tables : ρ) (events : List (Event ρ)) : Prop :=
  ∀ done e rest, events = done ++ e :: rest →
    ∃ log log', Records tables log (World.run tables done).db ∧
      Records tables log' (World.run tables (done ++ [e])).db ∧ log <+: log' ∧
      ∀ a, (World.run tables done).answer e = some a →
        Honest log' (World.run tables done).db (World.run tables (done ++ [e])).db a

/-- A refused fresh submit reports `NotCommitted` although the receipt is there. -/
private theorem not_protocolHolds {tables : ρ} {done rest : List (Event ρ)} {e : Event ρ}
    (h : RefusedFresh (World.run tables done) e) : ¬ ProtocolHolds tables (done ++ e :: rest) := by
  intro hprotocol
  obtain ⟨log, log', -, -, -, hhonest⟩ := hprotocol done e rest rfl
  cases e with
  | submit store i host =>
    obtain ⟨t, ht, hstore, hflag, hadmission, hreceipt⟩ := h
    obtain ⟨error, herror⟩ := Option.ne_none_iff_exists'.1 hadmission
    have hsubmit : submit store t.toPreparedMutation host (World.run tables done).db =
        ((World.run tables done).db, .notCommitted t.operation error) := by
      simp [submit, hstore, herror, hflag]
    have hdb : (World.run tables (done ++ [.submit store i host])).db = (World.run tables done).db := by
      rw [World.run_snoc]
      simp [World.step, ht, hsubmit]
    obtain ⟨r, hr, hop⟩ := findReceipt_isSome.1 hreceipt
    have hanswer := hhonest ⟨t.toPreparedMutation, host, .notCommitted t.operation error⟩
      (by simp [World.answer, ht, hsubmit])
    rw [hdb] at hanswer
    exact hanswer.notCommitted t.operation error rfl r hr hop
  | prepare | rebuild | reconcile => exact h

/-- The receipt protocol holds over a run exactly when no step of it refuses admission to a ticket with a fresh flag
whose operation already has a receipt. -/
theorem receipt_protocol_iff (tables : ρ) (events : List (Event ρ)) :
    ProtocolHolds tables events ↔
      ∀ done e rest, events = done ++ e :: rest → ¬ RefusedFresh (World.run tables done) e := by
  constructor
  · rintro h done e rest rfl hfresh
    exact not_protocolHolds hfresh h
  · intro h done e rest hevents
    obtain ⟨log, hlog⟩ := World.run_records tables done
    obtain ⟨log', hlog', hprefix, hhonest⟩ := World.step_records hlog e
    rw [World.run_snoc]
    exact ⟨log, log', hlog, hlog', hprefix, hhonest (h done e rest hevents)⟩

/-! ### The run that breaks it -/

def tinyStore : SqliteStore := ⟨"store", .tiny⟩

def claimBody : RowBody OutboxTables where
  script := [claimUpdate "worker" 1]
  leavesReceipts := by
    apply Script.leavesReceipts_of_forall
    intro statement hmem s t rows hexec
    rw [List.mem_singleton] at hmem
    subst hmem
    exact Statement.onTables_receipts hexec

/-- A first claim ticket is kept back while a second one, rebuilt under its identity, commits. -/
def rebuiltFirst : List (Event OutboxTables) :=
  [.prepare tinyStore "storage-1-2-3" claimBody .rows 0,
   .prepare tinyStore "storage-1-2-4" claimBody .rows 0,
   .rebuild 1 ⟨"storage-1-2-3", by decide⟩,
   .submit tinyStore 2 .quiet]

/-- The first submit of the ticket kept back is refused admission. -/
def refusedSubmit : Event OutboxTables :=
  .submit tinyStore 0 { Host.quiet with admission := some (.busy "database is locked") }

theorem receipt_protocol_broken : ¬ ProtocolHolds OutboxTables.empty (rebuiltFirst ++ [refusedSubmit]) := by
  apply not_protocolHolds
  refine ⟨(World.run OutboxTables.empty rebuiltFirst).tickets.head (by decide), ?_, rfl, rfl, ?_, ?_⟩
  · rfl
  · simp
  · rfl

end Verdant.Storage
