import Verdant.Action.Scan
import Verdant.Action.TerminalFinal
import Verdant.Library.Pointwise

/-!
# Rediscovery of outstanding operations

A scan over the outstanding pages shall return every operation that stays outstanding exactly once.  The page is a
window over the operations that are outstanding when it is read, so an operation that leaves them behind the last
returned one moves the rest forward, past the next window.  A scan is complete in every run whose transitions spare what
it has passed.
-/

namespace Verdant.Action

open Storage Window

/-- The outstanding operations of a scope, in order. -/
def outstanding (scope : TrustedScope) (tables : JournalTables) : List String :=
  (outstandingRows scope tables).map JournalRow.operation

/-- The operation has a journal row in the scope. -/
def InScope (scope : TrustedScope) (tables : JournalTables) (operation : String) : Prop :=
  ∃ r ∈ tables.journal, r.operation = operation ∧ r.scope = scope.text

theorem mem_outstanding {scope : TrustedScope} {tables : JournalTables} {operation : String} :
    operation ∈ outstanding scope tables ↔
      InScope scope tables operation ∧ tables.lifecycleState operation ≠ .terminal := by
  unfold outstanding InScope
  rw [List.mem_map]
  constructor
  · rintro ⟨r, hr, rfl⟩
    obtain ⟨hmem, hscope, hopen⟩ := mem_outstandingRows.1 hr
    exact ⟨⟨r, hmem, rfl, hscope⟩, hopen⟩
  · rintro ⟨⟨r, hmem, rfl, hscope⟩, hopen⟩
    exact ⟨r, mem_outstandingRows.2 ⟨hmem, hscope, hopen⟩, rfl⟩

theorem outstanding_pairwise {scope : TrustedScope} {db : Database JournalTables} (h : UniqueOperations db) :
    (outstanding scope db.tables).Pairwise (· < ·) := orderByOperation_pairwise (nodup_filter_operations h _)

/-! ### Pages of outstanding operations -/

theorem outstandingPage_reads (store : SqliteStore) (scope : TrustedScope) (limit offset : Nat) :
    (outstandingPage store scope limit offset).run.Issues NoSubmit := by
  have hread : ∀ query : Query JournalTables, NoSubmit (.read query) := fun _ => trivial
  have hrow : ∀ cells, (outstandingRow scope cells).run.Issues NoSubmit := by
    intro cells
    unfold outstandingRow
    split
    · refine Prog.issues_check.tryBind fun operation => ?_
      exact Prog.Issues.tryBind (readRow_issues hread operation scope) fun found => Prog.issues_check
    · exact Prog.issues_check
  refine Prog.Issues.tryBind (Prog.Issues.mapErr (read_issues hread _)) fun rows => hydrate_issues hrow rows

theorem outstandingPage_read (store : SqliteStore) (scope : TrustedScope) (limit : Nat) :
    PageRead (outstandingPage store scope limit) fun offset => outstandingPageAnswer store scope limit offset where
  reads := outstandingPage_reads store scope limit
  settles offset db := settles_outstandingPage store scope limit offset db

/-- A page that answers holds the operations of its window. -/
theorem outstandingPageAnswer_operations {store : SqliteStore} {scope : TrustedScope} {limit offset : Nat}
    {tables : JournalTables} {out : List Admitted} (h : outstandingPageAnswer store scope limit offset tables = .ok out) :
    (out.map fun found => found.operation.text) =
      window (pageBound store limit) offset (outstanding scope tables) := by
  have hkept : ∀ cells ∈ (window (pageBound store limit) offset (outstandingRows scope tables)).map
      (outstandingCells tables), outstandingAnswer scope tables cells ≠ .ok none := by
    intro cells hcells hnone
    obtain ⟨r, -, rfl⟩ := List.mem_map.1 hcells
    obtain ⟨operation, -, hrest⟩ := Result.bind_eq_ok.1 hnone
    obtain ⟨found, -, hfound⟩ := Result.bind_eq_ok.1 hrest
    exact nomatch Except.ok.inj hfound
  have hrows := (hydrated_eq_ok hkept).1 h
  rw [List.forall₂_map_left_iff] at hrows
  rw [outstanding, ← map_window]
  refine Pointwise.map_eq hrows fun r found hanswer => ?_
  obtain ⟨operation, hparse, hrest⟩ := Result.bind_eq_ok.1 hanswer
  obtain ⟨read, hread, hfound⟩ := Result.bind_eq_ok.1 hrest
  cases hfound
  rw [rowAnswer_operation hread]
  exact OperationId.text_of_parse (toOption_eq_some.1 (require_eq_ok.1 hparse))

/-! ### Scans -/

section Scan

variable (store : SqliteStore) (scope : TrustedScope) (limit : Nat)

/-- The scan of `rediscover_via_outstanding` after some events. -/
def outstandingScan (s : Scan) (events : List (ScanEvent TransitionEvent)) : Scan :=
  s.after TransitionEvent.event (outstandingPage store scope limit) events

/-- The operation is outstanding in every state until the scan ends. -/
def StaysOutstanding (s : Scan) (events : List (ScanEvent TransitionEvent)) (operation : String) : Prop :=
  ∀ front ∈ events.inits, (outstandingScan store scope limit s front).ended = false →
    operation ∈ outstanding scope (outstandingScan store scope limit s front).pool.state.tables

/-- A scan that ended returned every operation that stayed outstanding, once. -/
def Rediscovers (s : Scan) (events : List (ScanEvent TransitionEvent)) : Prop :=
  (outstandingScan store scope limit s events).ended = true →
    ∀ operation, StaysOutstanding store scope limit s events operation →
      (outstandingScan store scope limit s events).operations.count operation = 1

instance (s : Scan) (events : List (ScanEvent TransitionEvent)) (operation : String) :
    Decidable (StaysOutstanding store scope limit s events operation) := by
  unfold StaysOutstanding
  infer_instance

/-- The operation spares what the scan has passed: it closes nothing there while something outstanding is not yet
returned, and it reopens nothing there. -/
structure Spares (s : Scan) (x : IssuedOp) : Prop where
  closes : ∀ operation, Moves operation .terminal x → operation.text ∈ outstanding scope x.before.tables →
    Passed s.operations operation.text → ∀ y ∈ outstanding scope x.before.tables, y ∈ s.operations
  reopens : ∀ operation newState, Moves operation newState x → newState ≠ .terminal →
    InScope scope x.before.tables operation.text → IsTerminal operation x.before → ¬Passed s.operations operation.text

/-- Every operation of the callers spares what the scan has passed, until the scan ends. -/
def SparingRun (s : Scan) (events : List (ScanEvent TransitionEvent)) : Prop :=
  Scan.CallersMeet TransitionEvent.event (outstandingPage store scope limit) (Spares scope) s events

end Scan

/-! ### What a transition changes -/

/-- The operations of a transition: its own ticket is the only one that writes. -/
def TransitionOp : StoreOp JournalTables → Prop
  | .submit _ ticket => ∃ store operation newState, IsTransitionTicket store operation newState ticket
  | _ => True

theorem TransitionOp.journalOp {op : StoreOp JournalTables} (h : TransitionOp op) : JournalOp op := by
  cases op with
  | submit store ticket => exact .inr h
  | draw | reconcile | reconcileOperation | read | wall | poll => exact trivial

theorem Transition.issues (t : Transition) : t.call.Issues TransitionOp :=
  transition_issues (fun _ => trivial) trivial fun _ hticket => ⟨t.handle, t.operation, t.newState, hticket⟩

theorem TransitionEvent.issues {e : TransitionEvent} {p} (h : e.event = .start p) : p.Issues TransitionOp := by
  cases e with
  | start t =>
    cases h
    exact t.issues
  | step i m => exact nomatch h

theorem Transits.mem_outstanding {operation : OperationId} {newState : LifecycleState} {before after : JournalTables}
    (h : Transits operation newState before after) {scope : TrustedScope} {y : String} :
    y ∈ outstanding scope after ↔
      InScope scope before y ∧ (if operation.text = y then newState else before.lifecycleState y) ≠ .terminal := by
  have hstate := h.lifecycleState y
  obtain ⟨journal, updated, -, rfl⟩ := h
  rw [Action.mem_outstanding, hstate]
  rfl

section Run

variable {store : SqliteStore} {scope : TrustedScope} {limit : Nat} {s : Scan}

/-- Where what was passed is spared, the passed operations that are outstanding stay the same, or the scan has returned
all of them. -/
theorem Spares.change {x : IssuedOp} (h : Spares scope s x) (hop : TransitionOp x.op) :
    (∀ y, Passed s.operations y →
      (y ∈ outstanding scope x.before.tables ↔ y ∈ outstanding scope (leftBy x).tables)) ∨
      ∀ y ∈ outstanding scope (leftBy x).tables, y ∈ s.operations := by
  by_cases hsame : leftBy x = x.before
  · rw [hsame]
    exact .inl fun y _ => Iff.rfl
  cases hx : x.op with
  | draw | reconcile | reconcileOperation | read | wall | poll =>
    refine absurd ?_ hsame
    unfold leftBy
    rw [hx]
    rfl
  | submit handle ticket =>
    rw [hx] at hop
    obtain ⟨store, operation, newState, hticket⟩ := hop
    have hmoves : Moves operation newState x := ⟨handle, store, ticket, hx, hticket, hsame⟩
    have htransits := hmoves.transits
    by_cases hclosed : newState = .terminal
    · subst hclosed
      by_cases hpassed : operation.text ∈ outstanding scope x.before.tables ∧ Passed s.operations operation.text
      · refine .inr fun y hy => h.closes operation hmoves hpassed.1 hpassed.2 y ?_
        rw [htransits.mem_outstanding] at hy
        rw [mem_outstanding]
        refine ⟨hy.1, ?_⟩
        by_cases hkey : operation.text = y
        · simp [hkey] at hy
        · simpa [hkey] using hy.2
      · refine .inl fun y hy => ?_
        rw [htransits.mem_outstanding, mem_outstanding]
        by_cases hkey : operation.text = y
        · subst hkey
          have hout : operation.text ∉ outstanding scope x.before.tables := fun hmem => hpassed ⟨hmem, hy⟩
          rw [mem_outstanding] at hout
          simpa using hout
        · simp [hkey]
    · refine .inl fun y hy => ?_
      rw [htransits.mem_outstanding, mem_outstanding]
      by_cases hkey : operation.text = y
      · subst hkey
        rw [if_pos rfl]
        refine and_congr_right fun hscope => iff_of_true ?_ hclosed
        exact fun hterminal => h.reopens operation newState hmoves hclosed hscope hterminal hy
      · rw [if_neg hkey]

/-! ### Every run that spares what was passed -/

/-- The scan has returned the operation once, or will. -/
def Tracked (scope : TrustedScope) (s : Scan) (operation : String) : Prop :=
  if s.ended then s.operations.count operation = 1
  else Once operation s.operations (outstanding scope s.pool.state.tables)

theorem tracked_ended (hended : s.ended = true) {operation : String} :
    Tracked scope s operation ↔ s.operations.count operation = 1 := by
  rw [Tracked, if_pos hended]

theorem tracked_open (hended : s.ended = false) {operation : String} :
    Tracked scope s operation ↔ Once operation s.operations (outstanding scope s.pool.state.tables) := by
  rw [Tracked, hended, if_neg Bool.false_ne_true]

theorem Tracked.page {operation : String} (h : Tracked scope s operation) (hkeys : UniqueOperations s.pool.state)
    (hmem : s.ended = false → operation ∈ outstanding scope s.pool.state.tables) (moments : List Moment) :
    Tracked scope (outstandingScan store scope limit s [.page moments]) operation := by
  unfold outstandingScan
  rw [Scan.after_singleton]
  rcases (outstandingPage_read store scope limit).cases TransitionEvent.event s moments with
    hsame | ⟨hended, hanswer, hend⟩ | ⟨rows, hended, hanswer, hmore⟩
  · rw [hsame]
    exact h
  · -- the page is empty: nothing that is still outstanding lies behind the returned ones
    have hwindow := outstandingPageAnswer_operations hanswer
    rw [← Scan.length_operations] at hwindow
    rw [hend, tracked_ended rfl]
    exact ((tracked_open hended).1 h).complete (hmem hended) (pageBound_pos store limit) hwindow.symm
  · have hwindow := outstandingPageAnswer_operations hanswer
    rw [← Scan.length_operations] at hwindow
    have hread := ((tracked_open hended).1 h).read (outstanding_pairwise hkeys) (hmem hended) (pageBound store limit)
    rw [hmore]
    refine (tracked_open ?_).2 ?_
    · exact hended
    · rw [Scan.operations, List.map_append, hwindow]
      exact hread

theorem Tracked.caller {operation : String} (h : Tracked scope s operation) (hcalls : s.pool.AllIssue TransitionOp)
    (hkeys : UniqueOperations s.pool.state) {e : TransitionEvent}
    (hspares : s.ended = false → ∀ x ∈ s.pool.issued e.event, Spares scope s x)
    (hmem : s.ended = false → operation ∈ outstanding scope
      (outstandingScan store scope limit s [.caller e]).pool.state.tables) :
    Tracked scope (outstandingScan store scope limit s [.caller e]) operation := by
  by_cases hended : s.ended = true
  · refine (tracked_ended ?_).2 ((tracked_ended hended).1 h)
    exact hended
  rw [Bool.not_eq_true] at hended
  have honce := (tracked_open hended).1 h
  refine (tracked_open ?_).2 ?_
  · exact hended
  rcases Prog.Pool.issued_cases StoreOp.exec s.pool e.event with
    ⟨-, hstate⟩ | ⟨i, op, m, next, -, hcall, hissued, hstep⟩
  · have hsame : (outstandingScan store scope limit s [.caller e]).pool.state = s.pool.state := hstate
    rw [hsame]
    exact honce
  · have hop : TransitionOp op := (hcalls _ (List.mem_of_getElem? hcall)).1
    have hleft : (outstandingScan store scope limit s [.caller e]).pool.state =
        leftBy ⟨i, op, m, s.pool.state⟩ := congrArg Prog.Pool.state hstep
    have hmem := hmem hended
    rw [hleft] at hmem ⊢
    have hspared := hspares hended _ (by rw [hissued]; exact List.mem_singleton_self _)
    have hafter : UniqueOperations (leftBy ⟨i, op, m, s.pool.state⟩) := hkeys.exec hop.journalOp m
    exact honce.change ((outstanding_pairwise hkeys).imp ne_of_lt) ((outstanding_pairwise hafter).imp ne_of_lt) hmem
      (hspared.change hop)

theorem StaysOutstanding.tail {operation : String} {e : ScanEvent TransitionEvent}
    {events : List (ScanEvent TransitionEvent)} (h : StaysOutstanding store scope limit s (e :: events) operation) :
    StaysOutstanding store scope limit (outstandingScan store scope limit s [e]) events operation := by
  intro front hfront
  exact h (e :: front) ((List.mem_inits _ _).2 (List.cons_prefix_cons.2 ⟨rfl, (List.mem_inits _ _).1 hfront⟩))

theorem StaysOutstanding.here {operation : String} {events : List (ScanEvent TransitionEvent)}
    (h : StaysOutstanding store scope limit s events operation) (hended : s.ended = false) :
    operation ∈ outstanding scope s.pool.state.tables :=
  h [] ((List.mem_inits _ _).2 List.nil_prefix) hended

theorem Tracked.run {operation : String} (events : List (ScanEvent TransitionEvent)) (h : Tracked scope s operation)
    (hcalls : s.pool.AllIssue TransitionOp) (hkeys : UniqueOperations s.pool.state)
    (hsparing : SparingRun store scope limit s events)
    (hstays : StaysOutstanding store scope limit s events operation) :
    Tracked scope (outstandingScan store scope limit s events) operation := by
  induction events generalizing s with
  | nil => exact h
  | cons e events ih =>
    obtain ⟨hcalls', hkeys'⟩ := (outstandingPage_read store scope limit).invariant TransitionEvent.event
      (fun _ _ => TransitionEvent.issues) (fun op m db hop hinv => hinv.exec hop.journalOp m) hcalls hkeys [e]
    cases e with
    | caller e =>
      exact ih (h.caller hcalls hkeys hsparing.1 hstays.tail.here) hcalls' hkeys' hsparing.2 hstays.tail
    | page moments => exact ih (h.page hkeys hstays.here moments) hcalls' hkeys' hsparing hstays.tail

theorem transitionPool_unique {db : Database JournalTables} (hkeys : UniqueOperations db)
    (events : List TransitionEvent) :
    UniqueOperations (transitionPool db events).state ∧ (transitionPool db events).AllIssue TransitionOp := by
  refine Prog.Pool.invariant (fun op m db hop h => h.exec hop.journalOp m) _ ?_ (fun p hp => nomatch hp) hkeys
  intro p hp
  obtain ⟨e, -, he⟩ := List.mem_map.1 hp
  exact TransitionEvent.issues he

/-- Beside callers that spare what it has passed, a scan returns every operation that stays outstanding, once. -/
theorem outstanding_scan_complete (store : SqliteStore) (scope : TrustedScope) (limit : Nat)
    {db : Database JournalTables} (hkeys : UniqueOperations db) (earlier : List TransitionEvent)
    (events : List (ScanEvent TransitionEvent))
    (hsparing : SparingRun store scope limit (.start (transitionPool db earlier)) events) :
    Rediscovers store scope limit (.start (transitionPool db earlier)) events := by
  intro hended operation hstays
  obtain ⟨hunique, hcalls⟩ := transitionPool_unique hkeys earlier
  have hstart : Tracked scope (.start (transitionPool db earlier)) operation :=
    (tracked_open rfl).2 (Once.start operation _)
  exact (tracked_ended hended).1 (hstart.run events hcalls hunique hsparing hstays)

end Run

/-! ### The scan that passes an operation over -/

/-- A row of an admitted set without a lifecycle row. -/
def admittedRow (operation : String) (generation : Nat) : JournalRow where
  operation := operation
  scope := "scope-1"
  equipment := "ahu-1"
  bindingRevision := 1
  acceptedRevision := 1
  expectedGeneration := generation
  targetGeneration := generation + 1
  payload := "payload"
  deadlineSecs := 5
  ceiling := 8
  actor := "operator"
  attempt := operation
  created := 100
  wireBits := some 0x41AC0000
  actionKind := some .set
  releaseAdmitted := some false
  releaseTarget := some "ahu-1"

/-- A journal with three outstanding operations. -/
def outstandingStore : Database JournalTables where
  tables := {
    journal := [admittedRow "op-1" 0, admittedRow "op-2" 1, admittedRow "op-3" 2]
    targets := [⟨"scope-1", "ahu-1", 3⟩]
    lifecycle := [] }
  receipts := []

/-- One page of the scan, none of its reads failing. -/
def quietPage : ScanEvent TransitionEvent := .page [.quiet "" 200, .quiet "" 200]

/-- The operation is marked terminal by a call of its own, the `i`-th. -/
def markedTerminal (i : Nat) (operation : OperationId) : List (ScanEvent TransitionEvent) :=
  [.caller (.start ⟨journalStore, operation, dispatchedScope, .terminal⟩), .caller (.step i (.quiet "" 201)),
    .caller (.step i (.quiet "storage-1-2-3" 201)), .caller (.step i (.quiet "" 201)),
    .caller (.step i (.quiet "" 201))]

/-- Pages of one row; the first operation turns terminal after the first page. -/
def passingScan : List (ScanEvent TransitionEvent) :=
  quietPage :: markedTerminal 0 dispatchedOperation ++ [quietPage, quietPage]

/-- A transition that commits between two pages makes the scan pass an operation over. -/
theorem rediscovery_loses : UniqueOperations outstandingStore ∧
    ¬Rediscovers journalStore dispatchedScope 1 (.start (transitionPool outstandingStore [])) passingScan := by
  refine ⟨by decide +kernel, fun h => ?_⟩
  have hcount := h (by decide +kernel) "op-2" (by decide +kernel)
  exact absurd hcount (by decide +kernel)

/-! ### A scan that is spared -/

/-- What changes lies behind the last returned operation. -/
def ChangesAhead (scope : TrustedScope) (s : Scan) (x : IssuedOp) : Prop :=
  (∀ y ∈ outstanding scope x.before.tables, y ∉ outstanding scope (leftBy x).tables → ¬Passed s.operations y) ∧
    ∀ y ∈ outstanding scope (leftBy x).tables, y ∉ outstanding scope x.before.tables → ¬Passed s.operations y

instance (scope : TrustedScope) (s : Scan) (x : IssuedOp) : Decidable (ChangesAhead scope s x) :=
  inferInstanceAs (Decidable (_ ∧ _))

theorem ChangesAhead.spares {scope : TrustedScope} {s : Scan} {x : IssuedOp} (h : ChangesAhead scope s x) :
    Spares scope s x where
  closes operation hmoves hmem hpassed := by
    refine absurd hpassed (h.1 _ hmem fun hleft => ?_)
    rw [hmoves.transits.mem_outstanding, if_pos rfl] at hleft
    exact hleft.2 rfl
  reopens operation newState hmoves hopen hscope hterminal := by
    refine h.2 _ ?_ fun hbefore => (mem_outstanding.1 hbefore).2 hterminal
    rw [hmoves.transits.mem_outstanding, if_pos rfl]
    exact ⟨hscope, hopen⟩

def lastOperation : OperationId := ⟨"op-3", by decide⟩

/-- Pages of one row; the last operation turns terminal after the first page. -/
def sparingScan : List (ScanEvent TransitionEvent) :=
  quietPage :: markedTerminal 0 lastOperation ++ [quietPage, quietPage]

theorem outstanding_scan_complete_ahead :
    Rediscovers journalStore dispatchedScope 1 (.start (transitionPool outstandingStore [])) sparingScan := by
  have hahead : Scan.CallersMeet TransitionEvent.event (outstandingPage journalStore dispatchedScope 1)
      (ChangesAhead dispatchedScope) (.start (transitionPool outstandingStore [])) sparingScan := by decide +kernel
  exact outstanding_scan_complete journalStore dispatchedScope 1 (by decide +kernel) [] sparingScan
    (hahead.mono fun _ _ => ChangesAhead.spares)

end Verdant.Action
