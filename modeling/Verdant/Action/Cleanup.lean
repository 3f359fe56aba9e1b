import Verdant.Action.JournalCodec
import Verdant.Action.Rediscovery

/-!
# Cleanup obligations

A terminal set stays a cleanup obligation for fifteen minutes.  The discovery filters twice, in its statement and on
every row it reads back; on the seconds the store's clock can produce both are the same predicate over the integers, so
a page is exactly a window of the ordered obligations.  Admissions and transitions only add obligations at a fixed time,
except for a transition that overwrites a terminal state, so a scan beside callers that overwrite none finds every
obligation it started with.
-/

namespace Verdant.Action

open Storage Window

/-- A terminal set of the scope whose age is within the horizon, over the integers. -/
def IsObligation (scope : TrustedScope) (now : Int) (tables : JournalTables) (r : JournalRow) : Prop :=
  r.scope = scope.text ∧ tables.lifecycleState r.operation = .terminal ∧ r.actionKind = some .set ∧
    0 ≤ now - r.created ∧ now - r.created < 900

instance (scope : TrustedScope) (now : Int) (tables : JournalTables) (r : JournalRow) :
    Decidable (IsObligation scope now tables r) := by
  unfold IsObligation
  infer_instance

/-- The obligations of a scope, in the order of their operations. -/
def obligations (scope : TrustedScope) (now : Int) (tables : JournalTables) : List JournalRow :=
  orderByOperation (tables.journal.filter (IsObligation scope now tables))

theorem mem_obligations {scope : TrustedScope} {now : Int} {tables : JournalTables} {r : JournalRow} :
    r ∈ obligations scope now tables ↔ r ∈ tables.journal ∧ IsObligation scope now tables r := by
  rw [obligations, orderByOperation, List.mem_insertionSort, List.mem_filter, decide_eq_true_iff]

/-- The seconds `strftime('%s')` produces. -/
def SqliteSeconds (created : Int) : Prop := -210866760000 ≤ created ∧ created ≤ 253402300799

instance (created : Int) : Decidable (SqliteSeconds created) := inferInstanceAs (Decidable (_ ∧ _))

/-- Operations are a primary key, and the store's clock wrote the creation times. -/
structure JournalContent (db : Database JournalTables) : Prop where
  unique : UniqueOperations db
  clock : ∀ r ∈ db.tables.journal, SqliteSeconds r.created

/-! ### The two filters -/

theorem horizonSecs_cleanup : horizonSecs cleanupHorizonSecs = 900 := by decide

theorem isCleanupDue_iff (created now : Int) :
    isCleanupDue created now cleanupHorizonSecs = true ↔ 0 ≤ now - created ∧ now - created < 900 := by
  unfold isCleanupDue checkedElapsed
  rw [horizonSecs_cleanup]
  by_cases hrange : -2 ^ 63 ≤ now - created ∧ now - created < 2 ^ 63
  · rw [if_pos hrange]
    by_cases hneg : now - created < 0
    · simp only [hneg, if_true]
      constructor
      · intro h
        exact nomatch h
      · intro h
        omega
    · simp only [hneg, if_false, decide_eq_true_eq]
      omega
  · rw [if_neg hrange]
    constructor
    · intro h
      exact nomatch h
    · intro h
      omega

theorem lifecycle_terminal {tables : JournalTables} {operation : String} :
    (tables.findLifecycle operation).map LifecycleRow.state = some .terminal ↔
      tables.lifecycleState operation = .terminal := by
  unfold JournalTables.lifecycleState
  cases hstate : (tables.findLifecycle operation).map LifecycleRow.state with
  | none => simp
  | some state => simp

/-- What the statement lists is an obligation. -/
theorem isObligation_of_listed {scope : TrustedScope} {now : Int} {tables : JournalTables} {r : JournalRow}
    (h : r ∈ cleanupRows scope now cleanupHorizonSecs tables) : r ∈ obligations scope now tables := by
  rw [cleanupRows, orderByOperation, List.mem_insertionSort, List.mem_filter, decide_eq_true_iff,
    lifecycle_terminal] at h
  obtain ⟨hmem, hscope, hterminal, hkind, hpast, hcutoff⟩ := h
  refine mem_obligations.2 ⟨hmem, hscope, hterminal, hkind, by omega, ?_⟩
  unfold cleanupCutoff at hcutoff
  rw [horizonSecs_cleanup] at hcutoff
  split at hcutoff
  · omega
  · omega

/-- On the seconds of the store's clock the statement lists every obligation. -/
theorem cleanupRows_eq (scope : TrustedScope) (now : Int64) {tables : JournalTables}
    (hclock : ∀ r ∈ tables.journal, SqliteSeconds r.created) :
    cleanupRows scope now.toInt cleanupHorizonSecs tables = obligations scope now.toInt tables := by
  have hnow := Int64.le_toInt now
  unfold cleanupRows obligations
  congr 1
  refine List.filter_congr fun r hr => decide_eq_decide.2 ?_
  rw [lifecycle_terminal, IsObligation]
  refine and_congr_right fun _ => and_congr_right fun _ => and_congr_right fun _ => ?_
  obtain ⟨hfrom, -⟩ := hclock r hr
  unfold cleanupCutoff
  rw [horizonSecs_cleanup]
  split
  · omega
  · omega

/-! ### Pages -/

/-- The row reads back: its columns decode, and the value is marked as reconciled. -/
def ReadsBackAs (scope : TrustedScope) (tables : JournalTables) (r : JournalRow) (found : Admitted) : Prop :=
  ∃ read, decodeRow (r.columns (tables.findLifecycle r.operation)) scope = .ok read ∧
    found = { read with reconciled := true }

/-- What both filters listed, the second check keeps. -/
theorem cleanupKeeps_of_reads {scope : TrustedScope} {now : Int} {tables : JournalTables} {r : JournalRow}
    (h : IsObligation scope now tables r) {read : Admitted}
    (hread : decodeRow (r.columns (tables.findLifecycle r.operation)) scope = .ok read) :
    cleanupKeeps scope now { read with reconciled := true } = .ok (some { read with reconciled := true }) := by
  have hreads := decodeRow_reads hread
  obtain ⟨-, hterminal, hkind, hage⟩ := h
  have hlifecycle : read.lifecycle = .terminal := hreads.lifecycle.trans hterminal
  have hset : read.actionKind = some .set := hreads.actionKind.trans hkind
  have hdue : isCleanupDue read.createdSecs now cleanupHorizonSecs = true := by
    rw [isCleanupDue_iff, hreads.created]
    exact hage
  have hscope : read.scope.text = scope.text := congrArg TrustedScope.text hreads.scope_eq.1
  simp [cleanupKeeps, hlifecycle, hset, hdue, hscope]

/-- A listed row answers with its own content, and nothing drops it. -/
theorem cleanupAnswer_listed {scope : TrustedScope} {now : Int} {db : Database JournalTables}
    (hkeys : UniqueOperations db) {r : JournalRow} (hr : r ∈ obligations scope now db.tables)
    {found : Option Admitted} :
    cleanupAnswer scope now db.tables [r.operation] = .ok found ↔
      ∃ row, found = some row ∧ ReadsBackAs scope db.tables r row := by
  obtain ⟨hmem, hobligation⟩ := mem_obligations.1 hr
  unfold cleanupAnswer reconciledAnswer
  simp only [Result.bind_eq_ok, require_eq_ok, toOption_eq_some]
  constructor
  · rintro ⟨operation, hparse, row, hrow, hkeeps⟩
    have htext := OperationId.text_of_parse hparse
    rw [rowAnswer_of_mem hkeys hmem htext.symm hobligation.1] at hrow
    cases hdecode : decodeRow (r.columns (db.tables.findLifecycle r.operation)) scope with
    | error e =>
      rw [hdecode] at hrow
      exact nomatch hrow
    | ok read =>
      rw [hdecode] at hrow
      cases hrow
      rw [cleanupKeeps_of_reads hobligation hdecode] at hkeeps
      exact ⟨_, (Except.ok.inj hkeeps).symm, read, hdecode, rfl⟩
  · rintro ⟨row, rfl, read, hdecode, rfl⟩
    have htext := (decodeRow_reads hdecode).operation
    refine ⟨read.operation, ?_, { read with reconciled := true }, ?_, cleanupKeeps_of_reads hobligation hdecode⟩
    · rw [← htext]
      exact OperationId.parse_text _
    · rw [rowAnswer_of_mem hkeys hmem htext.symm hobligation.1, hdecode]
      rfl

theorem cleanupObligations_reads (store : SqliteStore) (scope : TrustedScope) (limit offset : Nat) (now : Int) :
    (cleanupObligationsWithNow store scope limit offset now).run.Issues NoSubmit := by
  have hread : ∀ query : Query JournalTables, NoSubmit (.read query) := fun _ => trivial
  have hrow : ∀ cells, (cleanupRow scope now cells).run.Issues NoSubmit := by
    intro cells
    unfold cleanupRow
    split
    · refine Prog.issues_check.tryBind fun operation => ?_
      refine Prog.Issues.tryBind ?_ fun found => Prog.issues_check
      exact Prog.Issues.bind (readRow_issues hread operation scope) fun found => trivial
    · exact Prog.issues_check
  exact Prog.Issues.tryBind (Prog.Issues.mapErr (read_issues hread _)) fun rows => hydrate_issues hrow rows

theorem cleanupObligations_read (store : SqliteStore) (scope : TrustedScope) (limit : Nat) (now : Int) :
    PageRead (fun offset => cleanupObligationsWithNow store scope limit offset now)
      fun offset => cleanupPageAnswer store scope limit offset now where
  reads offset := cleanupObligations_reads store scope limit offset now
  settles offset db := settles_cleanupObligations store scope limit offset now db

/-- A page answers exactly where every row of its window reads back, with those rows. -/
theorem cleanupPageAnswer_eq_ok {store : SqliteStore} {scope : TrustedScope} {limit offset : Nat} {now : Int}
    {db : Database JournalTables} (hkeys : UniqueOperations db) {out : List Admitted} :
    cleanupPageAnswer store scope limit offset now db.tables = .ok out ↔
      List.Forall₂ (ReadsBackAs scope db.tables)
        (window (pageBound store limit) offset (cleanupRows scope now cleanupHorizonSecs db.tables)) out := by
  have hlisted : ∀ r ∈ window (pageBound store limit) offset (cleanupRows scope now cleanupHorizonSecs db.tables),
      r ∈ obligations scope now db.tables := fun r hr => isObligation_of_listed (mem_of_mem_window hr)
  unfold cleanupPageAnswer
  rw [hydrated_eq_ok, List.forall₂_map_left_iff]
  · refine Pointwise.congr_mem fun r hr found => ?_
    rw [cleanupAnswer_listed hkeys (hlisted r hr)]
    simp
  · intro cells hcells hnone
    obtain ⟨r, hr, rfl⟩ := List.mem_map.1 hcells
    obtain ⟨row, hnot, -⟩ := (cleanupAnswer_listed hkeys (hlisted r hr)).1 hnone
    exact nomatch hnot

theorem ReadsBackAs.operation {scope : TrustedScope} {tables : JournalTables} {r : JournalRow} {found : Admitted}
    (h : ReadsBackAs scope tables r found) : found.operation.text = r.operation := by
  obtain ⟨read, hdecode, rfl⟩ := h
  exact (decodeRow_reads hdecode).operation

/-- The discovery of one page is exact. -/
structure PageExact (store : SqliteStore) (scope : TrustedScope) (limit offset : Nat) (now : Int)
    (db : Database JournalTables) : Prop where
  /-- What is returned are the rows of the window of the obligations, each with its own content. -/
  returned : ∀ (E : Moment → Prop) (left : Database JournalTables) (out : List Admitted),
    Prog.Runs StoreOp.exec E (cleanupObligationsWithNow store scope limit offset now).run db left (some (.ok out)) →
      left = db ∧ List.Forall₂ (ReadsBackAs scope db.tables)
        (window (pageBound store limit) offset (obligations scope now db.tables)) out
  /-- Where no read fails and the rows of the window decode, the page is returned. -/
  answers : (∀ r ∈ window (pageBound store limit) offset (obligations scope now db.tables),
      ∃ found, ReadsBackAs scope db.tables r found) →
    ∀ (E : Moment → Prop) (left : Database JournalTables) (result : Except WriterError (List Admitted)),
      (∀ m, E m → CalmMoment m) → Prog.Runs StoreOp.exec E
        (cleanupObligationsWithNow store scope limit offset now).run db left (some result) → ∃ out, result = .ok out
  /-- A run comes to an end. -/
  finishes : ∃ left result, Prog.Runs StoreOp.exec CalmMoment
    (cleanupObligationsWithNow store scope limit offset now).run db left (some result)

theorem page_exact (store : SqliteStore) (scope : TrustedScope) (limit offset : Nat) (now : Int64)
    {db : Database JournalTables} (h : JournalContent db) : PageExact store scope limit offset now.toInt db where
  returned E left out hrun := by
    obtain ⟨hleft, hanswer⟩ := (settles_cleanupObligations store scope limit offset now.toInt db).value E left out hrun
    have hrows := (cleanupPageAnswer_eq_ok h.unique).1 hanswer
    rw [cleanupRows_eq scope now h.clock] at hrows
    exact ⟨hleft, hrows⟩
  answers hreads E left result hcalm hrun := by
    obtain ⟨-, hresult⟩ := (settles_cleanupObligations store scope limit offset now.toInt db).calm E left result hcalm hrun
    rw [← cleanupRows_eq scope now h.clock] at hreads
    obtain ⟨out, hout⟩ := Pointwise.exists_of_forall hreads
    exact ⟨out, hresult.trans ((cleanupPageAnswer_eq_ok h.unique).2 hout)⟩
  finishes := Prog.exists_run (E := CalmMoment) ⟨Moment.quiet "" 0, rfl⟩ _ db

/-- The row of an admission reads back in every state its operation went through. -/
theorem readsBackAs_of_holds {a : Admission} (hchecked : a.Checked) {created : Int64} {tables : JournalTables}
    (h : Holds a created.toInt tables) : ∃ found, ReadsBackAs a.scope tables (a.row created.toInt) found := by
  obtain ⟨l, hl, hlink⟩ := h.link
  have hdecode := decodeRow_admission hchecked created hlink
  rw [← hl] at hdecode
  exact ⟨_, _, hdecode, rfl⟩

/-! ### Scans beside admissions and transitions -/

/-- A transition or a submit starts, or the `i`-th call performs its next operation. -/
inductive CallerEvent where
  | transition (transition : Transition)
  | submission (submission : Submission)
  | step (i : Nat) (moment : Moment)

def CallerEvent.event : CallerEvent → JournalEvent
  | .transition t => .start t.call
  | .submission s => .start (submitAdmission s.handle s.pending)
  | .step i m => .step i m

theorem CallerEvent.issues {e : CallerEvent} {p} (h : e.event = .start p) : p.Issues JournalOp := by
  cases e with
  | transition t =>
    cases h
    exact t.issues.mono fun _ => TransitionOp.journalOp
  | submission s =>
    cases h
    exact s.issues.mono fun _ => SubmitOp.journalOp
  | step i m => exact nomatch h

/-- The callers and their store after an interleaving. -/
def callerPool (db : Database JournalTables) (events : List CallerEvent) : JournalPool :=
  (Prog.Pool.idle db).after StoreOp.exec (events.map CallerEvent.event)

section Scan

variable (store : SqliteStore) (scope : TrustedScope) (limit : Nat) (now : Int)

/-- The scan over the pages of obligations at one fixed time. -/
def cleanupScan (s : Scan) (events : List (ScanEvent CallerEvent)) : Scan :=
  s.after CallerEvent.event (fun offset => cleanupObligationsWithNow store scope limit offset now) events

/-- A scan that ended returned every obligation of its start. -/
def FindsObligations (s : Scan) (events : List (ScanEvent CallerEvent)) : Prop :=
  (cleanupScan store scope limit now s events).ended = true →
    ∀ r ∈ obligations scope now s.pool.state.tables,
      r.operation ∈ (cleanupScan store scope limit now s events).operations

/-- The operation overwrites the terminal state of no obligation. -/
def Preserves (_ : Scan) (x : IssuedOp) : Prop :=
  ∀ operation newState, Moves operation newState x → newState ≠ .terminal →
    ∀ r ∈ obligations scope now x.before.tables, r.operation ≠ operation.text

/-- No operation of the callers overwrites the terminal state of an obligation until the scan ends. -/
def PreservingRun (s : Scan) (events : List (ScanEvent CallerEvent)) : Prop :=
  Scan.CallersMeet CallerEvent.event (fun offset => cleanupObligationsWithNow store scope limit offset now)
    (Preserves scope now) s events

end Scan

section Run

variable {store : SqliteStore} {scope : TrustedScope} {limit : Nat} {now : Int} {s : Scan}

/-- The operations the statement lists. -/
def listed (scope : TrustedScope) (now : Int) (tables : JournalTables) : List String :=
  (cleanupRows scope now cleanupHorizonSecs tables).map JournalRow.operation

theorem mem_listed {tables : JournalTables} {operation : String} :
    operation ∈ listed scope now tables ↔ ∃ r ∈ tables.journal, r.operation = operation ∧ r.scope = scope.text ∧
      tables.lifecycleState operation = .terminal ∧ r.actionKind = some .set ∧ r.created ≤ now ∧
      cleanupCutoff now cleanupHorizonSecs < r.created := by
  unfold listed cleanupRows orderByOperation
  simp only [List.mem_map, List.mem_insertionSort, List.mem_filter, decide_eq_true_iff, lifecycle_terminal]
  constructor
  · rintro ⟨r, ⟨hr, hscope, hterminal, hrest⟩, rfl⟩
    exact ⟨r, hr, rfl, hscope, hterminal, hrest⟩
  · rintro ⟨r, hr, rfl, hscope, hterminal, hrest⟩
    exact ⟨r, ⟨hr, hscope, hterminal, hrest⟩, rfl⟩

theorem listed_pairwise {db : Database JournalTables} (h : UniqueOperations db) :
    (listed scope now db.tables).Pairwise (· < ·) := orderByOperation_pairwise (nodup_filter_operations h _)

/-- Where the journal keeps its rows and no listed operation leaves the terminal state, what is listed stays listed. -/
theorem listed_mono {before after : JournalTables} (hrows : ∀ r ∈ before.journal, r ∈ after.journal)
    (hstates : ∀ operation ∈ listed scope now before, after.lifecycleState operation = .terminal) :
    ∀ operation ∈ listed scope now before, operation ∈ listed scope now after := by
  intro operation hmem
  obtain ⟨r, hr, hop, hscope, -, hrest⟩ := mem_listed.1 hmem
  exact mem_listed.2 ⟨r, hrows r hr, hop, hscope, hstates operation hmem, hrest⟩

/-- An operation that overwrites no obligation only adds to the list. -/
theorem Preserves.grows {x : IssuedOp} (h : Preserves scope now s x) (hop : JournalOp x.op) :
    ∀ operation ∈ listed scope now x.before.tables, operation ∈ listed scope now (leftBy x).tables := by
  by_cases hsame : leftBy x = x.before
  · rw [hsame]
    exact fun _ hmem => hmem
  cases hx : x.op with
  | draw | reconcile | reconcileOperation | read | wall | poll =>
    refine absurd ?_ hsame
    unfold leftBy
    rw [hx]
    rfl
  | submit handle ticket =>
    have hleft : leftBy x = (submit handle ticket x.env.host x.before).1 := by
      unfold leftBy
      rw [hx]
      rfl
    rw [hx] at hop
    rcases hop with ⟨a, store', hchecked, rfl⟩ | ⟨store', operation, newState, hticket⟩
    · rcases submit_admission handle store' a x.env.host x.before with hnothing | ⟨-, hadmits, -⟩
      · exact absurd (hleft.trans hnothing) hsame
      rw [← hleft] at hadmits
      obtain ⟨updated, hafter⟩ := hadmits.after_eq
      rw [hafter]
      refine listed_mono (fun r hr => List.mem_append_left _ hr) fun y hy => ?_
      obtain ⟨r, hr, hop, -, hterminal, -⟩ := mem_listed.1 hy
      -- the admitted operation is new, so its row is not one of the list
      have hne : a.operation.text ≠ y := by
        rintro rfl
        exact JournalTables.findJournal_eq_none.1 hadmits.fresh (List.mem_map.2 ⟨r, hr, hop⟩)
      rw [JournalTables.lifecycleState_admitted hne]
      exact hterminal
    · have hmoves : Moves operation newState x := ⟨handle, store', ticket, hx, hticket, hsame⟩
      have htransits := hmoves.transits
      refine listed_mono (fun r hr => ?_) fun y hy => ?_
      · obtain ⟨journal, updated, -, hafter⟩ := htransits
        rw [hafter]
        exact hr
      · rw [htransits.lifecycleState]
        by_cases hkey : operation.text = y
        · rw [if_pos hkey]
          by_contra hopen
          obtain ⟨r, hr, hop⟩ := List.mem_map.1 hy
          exact h operation newState hmoves hopen r (isObligation_of_listed hr) (hop.trans hkey.symm)
        · rw [if_neg hkey]
          obtain ⟨r, -, -, -, hterminal, -⟩ := mem_listed.1 hy
          exact hterminal

/-- The scan has returned the operation, or it is not behind the next window. -/
def Due (scope : TrustedScope) (now : Int) (s : Scan) (operation : String) : Prop :=
  operation ∈ s.operations ∨
    (s.ended = false ∧ Ahead operation s.operations (listed scope now s.pool.state.tables))

theorem cleanupPageAnswer_operations {offset : Nat} {db : Database JournalTables} (hkeys : UniqueOperations db)
    {out : List Admitted} (h : cleanupPageAnswer store scope limit offset now db.tables = .ok out) :
    (out.map fun found => found.operation.text) =
      window (pageBound store limit) offset (listed scope now db.tables) := by
  rw [listed, ← map_window]
  exact Pointwise.map_eq ((cleanupPageAnswer_eq_ok hkeys).1 h) fun _ _ => ReadsBackAs.operation

theorem Due.page {operation : String} (h : Due scope now s operation) (hkeys : UniqueOperations s.pool.state)
    (moments : List Moment) : Due scope now (cleanupScan store scope limit now s [.page moments]) operation := by
  unfold cleanupScan
  rw [Scan.after_singleton]
  rcases (cleanupObligations_read store scope limit now).cases CallerEvent.event s moments with
    hsame | ⟨hended, hanswer, hend⟩ | ⟨rows, hended, hanswer, hmore⟩
  · rw [hsame]
    exact h
  · have hwindow := cleanupPageAnswer_operations hkeys hanswer
    rw [← Scan.length_operations] at hwindow
    rw [hend]
    refine .inl ?_
    rcases h with hmem | ⟨-, hahead⟩
    · exact hmem
    · exact hahead.complete (listed_pairwise hkeys) (pageBound_pos store limit) hwindow.symm
  · have hwindow := cleanupPageAnswer_operations hkeys hanswer
    rw [← Scan.length_operations] at hwindow
    have hoperations : Scan.operations { s with returned := s.returned ++ rows } =
        s.operations ++ window (pageBound store limit) s.operations.length (listed scope now s.pool.state.tables) := by
      rw [Scan.operations, List.map_append, hwindow]
      rfl
    rw [hmore]
    rcases h with hmem | ⟨-, hahead⟩
    · refine .inl ?_
      rw [hoperations]
      exact List.mem_append_left _ hmem
    · refine .inr ⟨hended, ?_⟩
      rw [hoperations]
      exact hahead.read (listed_pairwise hkeys) (pageBound store limit)

theorem Due.caller {operation : String} (h : Due scope now s operation) (hcalls : s.pool.AllIssue JournalOp)
    (hkeys : UniqueOperations s.pool.state) {e : CallerEvent}
    (hpreserves : s.ended = false → ∀ x ∈ s.pool.issued e.event, Preserves scope now s x) :
    Due scope now (cleanupScan store scope limit now s [.caller e]) operation := by
  rcases h with hmem | ⟨hended, hahead⟩
  · exact .inl hmem
  refine .inr ⟨hended, ?_⟩
  rcases Prog.Pool.issued_cases StoreOp.exec s.pool e.event with
    ⟨-, hstate⟩ | ⟨i, op, m, next, -, hcall, hissued, hstep⟩
  · have hsame : (cleanupScan store scope limit now s [.caller e]).pool.state = s.pool.state := hstate
    rw [hsame]
    exact hahead
  · have hop : JournalOp op := (hcalls _ (List.mem_of_getElem? hcall)).1
    have hleft : (cleanupScan store scope limit now s [.caller e]).pool.state = leftBy ⟨i, op, m, s.pool.state⟩ :=
      congrArg Prog.Pool.state hstep
    have hx := hpreserves hended ⟨i, op, m, s.pool.state⟩ (by rw [hissued]; exact List.mem_singleton_self _)
    rw [hleft]
    exact hahead.grow ((listed_pairwise hkeys).imp ne_of_lt) (hx.grows hop)

theorem Due.run {operation : String} (events : List (ScanEvent CallerEvent)) (h : Due scope now s operation)
    (hcalls : s.pool.AllIssue JournalOp) (hkeys : UniqueOperations s.pool.state)
    (hpreserving : PreservingRun store scope limit now s events) :
    Due scope now (cleanupScan store scope limit now s events) operation := by
  induction events generalizing s with
  | nil => exact h
  | cons e events ih =>
    obtain ⟨hcalls', hkeys'⟩ := (cleanupObligations_read store scope limit now).invariant CallerEvent.event
      (fun _ _ => CallerEvent.issues) (fun op m db hop hinv => hinv.exec hop m) hcalls hkeys [e]
    cases e with
    | caller e =>
      have hdue : Due scope now (cleanupScan store scope limit now s [.caller e]) operation :=
        h.caller hcalls hkeys hpreserving.1
      exact ih hdue hcalls' hkeys' hpreserving.2
    | page moments => exact ih (h.page hkeys moments) hcalls' hkeys' hpreserving

theorem callerPool_issues (db : Database JournalTables) (events : List CallerEvent) :
    (callerPool db events).AllIssue JournalOp := by
  have hstart : ∀ p, .start p ∈ events.map CallerEvent.event → p.Issues JournalOp := by
    intro p hp
    obtain ⟨e, -, he⟩ := List.mem_map.1 hp
    exact CallerEvent.issues he
  have hidle : (Prog.Pool.idle db : JournalPool).AllIssue JournalOp := fun p hp => nomatch hp
  exact hidle.after StoreOp.exec _ hstart

theorem findsObligations {now : Int64} {pool : JournalPool} (hcalls : pool.AllIssue JournalOp)
    (hcontent : JournalContent pool.state) {events : List (ScanEvent CallerEvent)}
    (hpreserving : PreservingRun store scope limit now.toInt (.start pool) events) :
    FindsObligations store scope limit now.toInt (.start pool) events := by
  intro hended r hr
  have hlisted : r.operation ∈ listed scope now.toInt pool.state.tables := by
    rw [listed, cleanupRows_eq scope now hcontent.clock]
    exact List.mem_map_of_mem hr
  have hstart : Due scope now.toInt (.start pool) r.operation := .inr ⟨rfl, Ahead.start hlisted⟩
  rcases hstart.run events hcalls hcontent.unique hpreserving with hmem | ⟨hopen, -⟩
  · exact hmem
  · rw [hended] at hopen
    exact nomatch hopen

end Run

/-- Every obligation is still terminal after the operation. -/
def StaysTerminal (scope : TrustedScope) (now : Int) (_ : Scan) (x : IssuedOp) : Prop :=
  ∀ r ∈ obligations scope now x.before.tables, (leftBy x).tables.lifecycleState r.operation = .terminal

instance (scope : TrustedScope) (now : Int) (s : Scan) (x : IssuedOp) : Decidable (StaysTerminal scope now s x) := by
  unfold StaysTerminal
  infer_instance

theorem StaysTerminal.preserves {scope : TrustedScope} {now : Int} {s : Scan} {x : IssuedOp}
    (h : StaysTerminal scope now s x) : Preserves scope now s x := by
  intro operation newState hmoves hopen r hr hkey
  have hleft := h r hr
  rw [hkey, hmoves.transits.lifecycleState, if_pos rfl] at hleft
  exact hopen hleft

/-- A journal with a dispatched and a terminal set. -/
def cleanupStore : Database JournalTables where
  tables := {
    journal := [admittedRow "op-1" 0, admittedRow "op-2" 1]
    targets := [⟨"scope-1", "ahu-1", 2⟩]
    lifecycle := [⟨"op-1", "op-1", .dispatched, 100, none⟩, ⟨"op-2", "op-2", .terminal, 100, none⟩] }
  receipts := []

theorem cleanupStore_content : JournalContent cleanupStore := ⟨by decide +kernel, by decide +kernel⟩

/-- One page of the discovery, none of its reads failing. -/
def quietDiscovery : ScanEvent CallerEvent := .page [.quiet "" 200, .quiet "" 200]

/-- The first operation is marked terminal after the first page. -/
def growingScan : List (ScanEvent CallerEvent) :=
  [quietDiscovery, .caller (.transition ⟨journalStore, dispatchedOperation, dispatchedScope, .terminal⟩),
    .caller (.step 0 (.quiet "" 201)), .caller (.step 0 (.quiet "storage-1-2-3" 201)),
    .caller (.step 0 (.quiet "" 201)), quietDiscovery, quietDiscovery]

/-- One handle reads the dispatched row to mark it unresolved; a second one marks it terminal. -/
def overtakenMark : List CallerEvent :=
  [.transition ⟨journalStore, dispatchedOperation, dispatchedScope, .unresolved⟩, .step 0 (.quiet "" 101),
    .transition ⟨journalStore, dispatchedOperation, dispatchedScope, .terminal⟩, .step 1 (.quiet "" 102),
    .step 1 (.quiet "storage-1-2-3" 102), .step 1 (.quiet "" 102)]

/-- The first handle goes on with its write between two pages. -/
def losingScan : List (ScanEvent CallerEvent) :=
  [quietDiscovery, .caller (.step 0 (.quiet "storage-1-2-4" 201)), .caller (.step 0 (.quiet "" 201)), quietDiscovery]

end Verdant.Action
