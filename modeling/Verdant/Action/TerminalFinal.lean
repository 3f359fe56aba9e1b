import Verdant.Action.JournalRead

/-!
# When a terminal lifecycle is final

A transition checks the lifecycle on a row it read earlier and writes without looking again.  In an interleaving of
transitions a terminal state is therefore final exactly when no call is overtaken: when no operation turns terminal
between the read and the write of a call that moves it elsewhere.
-/

namespace Verdant.Action

open Storage

/-- One call of `transition` through one handle. -/
structure Transition where
  handle : SqliteStore
  operation : OperationId
  scope : TrustedScope
  newState : LifecycleState

def Transition.call (t : Transition) : Call JournalTables (Except WriterError Admitted) :=
  transition t.handle t.operation t.scope t.newState

/-- A transition starts, or the `i`-th one performs its next operation. -/
inductive TransitionEvent where
  | start (transition : Transition)
  | step (i : Nat) (moment : Moment)

def TransitionEvent.event : TransitionEvent → Prog.Event (StoreOp.Answer (ρ := JournalTables)) Moment
    (Except WriterError Admitted)
  | .start t => .start t.call
  | .step i m => .step i m

abbrev TransitionPool :=
  Prog.Pool (StoreOp.Answer (ρ := JournalTables)) (Database JournalTables) (Except WriterError Admitted)

/-- The handles and their store after an interleaving of transitions. -/
def transitionPool (db : Database JournalTables) (events : List TransitionEvent) : TransitionPool :=
  (Prog.Pool.idle db).after StoreOp.exec (events.map TransitionEvent.event)

/-- The operations of the interleaving, in order. -/
def transitionTrace (db : Database JournalTables) (events : List TransitionEvent) : List IssuedOp :=
  Prog.Pool.trace StoreOp.exec (Prog.Pool.idle db) (events.map TransitionEvent.event)

/-- The durable lifecycle of the operation is terminal. -/
def IsTerminal (operation : OperationId) (db : Database JournalTables) : Prop :=
  db.tables.lifecycleState operation.text = .terminal

instance (operation : OperationId) (db : Database JournalTables) : Decidable (IsTerminal operation db) :=
  inferInstanceAs (Decidable (_ = _))

/-- Once terminal, terminal in every later state. -/
def TerminalFinal (db : Database JournalTables) (events : List TransitionEvent) : Prop :=
  ∀ operation a b c, events = a ++ b ++ c → IsTerminal operation (transitionPool db a).state →
    IsTerminal operation (transitionPool db (a ++ b)).state

/-- The operation reads the row `transition` decides on. -/
def ReadsRow (operation : OperationId) (x : IssuedOp) : Prop :=
  ∃ scope, x.op = .read (readRowSql operation scope)

/-- The operation commits a transition to a state that is not terminal. -/
def MovesElsewhere (operation : OperationId) (x : IssuedOp) : Prop :=
  ∃ handle store ticket newState, x.op = .submit handle ticket ∧ IsTransitionTicket store operation newState ticket ∧
    newState ≠ .terminal ∧ leftBy x ≠ x.before

/-- Between the read and the committed write of one call, the operation it moves elsewhere turned terminal. -/
def Overtaken (trace : List IssuedOp) : Prop :=
  ∃ operation front read between write back, trace = front ++ read :: between ++ write :: back ∧
    read.call = write.call ∧ ReadsRow operation read ∧ MovesElsewhere operation write ∧
    ∃ x ∈ between, ¬ IsTerminal operation x.before ∧ IsTerminal operation (leftBy x)

/-! ### Lifecycle states and transitions -/

theorem upsertLifecycleRow_find (row : LifecycleRow) (lifecycle : List LifecycleRow) (operation : String) :
    ((upsertLifecycleRow row lifecycle).find? fun r => r.operation = operation).map LifecycleRow.state =
      if row.operation = operation then some row.state
      else (lifecycle.find? fun r => r.operation = operation).map LifecycleRow.state := by
  unfold upsertLifecycleRow
  split
  · rename_i hany
    rw [List.find?_map]
    have hkeep : ((fun r : LifecycleRow => decide (r.operation = operation)) ∘ fun r : LifecycleRow =>
        if r.operation = row.operation then { r with state := row.state, updated := row.updated } else r) =
        fun r => decide (r.operation = operation) := by
      funext r
      simp only [Function.comp_apply]
      split <;> rfl
    rw [hkeep]
    cases hfind : lifecycle.find? fun r => r.operation = operation with
    | none =>
      rw [if_neg]
      · rfl
      · rintro rfl
        obtain ⟨r, hr, hop⟩ := List.any_eq_true.1 hany
        exact List.find?_eq_none.1 hfind r hr hop
    | some r =>
      have hop : r.operation = operation := by simpa using List.find?_some hfind
      by_cases hrow : row.operation = operation
      · simp [hrow, hop]
      · simp [hrow, hop, Ne.symm hrow]
  · rename_i hany
    rw [List.find?_append]
    by_cases hrow : row.operation = operation
    · have hnone : (lifecycle.find? fun r => r.operation = operation) = none := by
        rw [List.find?_eq_none]
        intro r hr hop
        exact hany (List.any_eq_true.2 ⟨r, hr, by rw [hrow]; exact hop⟩)
      simp [hnone, hrow]
    · simp [hrow]

/-- A committed transition sets the state of its operation and no other. -/
theorem Transits.lifecycleState {operation : OperationId} {newState : LifecycleState} {before after : JournalTables}
    (h : Transits operation newState before after) (other : String) :
    after.lifecycleState other = if operation.text = other then newState else before.lifecycleState other := by
  obtain ⟨journal, updated, -, rfl⟩ := h
  simp only [JournalTables.lifecycleState, JournalTables.findLifecycle, upsertLifecycleRow_find]
  split <;> rfl

/-! ### What a transition may submit -/

/-- A row of the operation was read by the call while the operation was not terminal. -/
def ReadOpen (trace : List IssuedOp) (i : Nat) (operation : OperationId) : Prop :=
  ∃ r ∈ trace, r.call = i ∧ ReadsRow operation r ∧ ¬ IsTerminal operation r.before

/-- What the `i`-th call may issue: a ticket to a state that is not terminal needs a read that allowed it. -/
def MayIssue (trace : List IssuedOp) (i : Nat) : StoreOp JournalTables → Prop
  | .submit _ ticket => ∃ store operation newState, IsTransitionTicket store operation newState ticket ∧
      (newState ≠ .terminal → ReadOpen trace i operation)
  | _ => True

theorem MayIssue.mono {trace more : List IssuedOp} {i : Nat} {op : StoreOp JournalTables} (h : MayIssue trace i op) :
    MayIssue (trace ++ more) i op := by
  cases op with
  | submit handle ticket =>
    obtain ⟨store, operation, newState, hticket, hread⟩ := h
    refine ⟨store, operation, newState, hticket, fun hne => ?_⟩
    obtain ⟨r, hr, hrest⟩ := hread hne
    exact ⟨r, List.mem_append_left _ hr, hrest⟩
  | draw | reconcile | reconcileOperation | read | wall | poll => exact trivial

theorem readAnswer_eq (operation : OperationId) (scope : TrustedScope) (m : Moment) (db : Database JournalTables) :
    readAnswer operation scope m db = match execScript m (readRowSql operation scope) db with
      | .ok rows => decodeFirst operation scope rows
      | .error e => .error (.ofStorage e) := rfl

/-- A transition reads its row first; what it submits after that depends on the state it read. -/
theorem transition_call (store : SqliteStore) (operation : OperationId) (scope : TrustedScope)
    (newState : LifecycleState) :
    ∃ next, transition store operation scope newState = .call (.read (readRowSql operation scope)) next ∧
      ∀ (m : Moment) (db : Database JournalTables) (Q : StoreOp JournalTables → Prop), (∀ query, Q (.read query)) →
        Q .draw →
        (∀ ticket, IsTransitionTicket store operation newState ticket →
          (newState ≠ .terminal → ¬ IsTerminal operation db) → Q (.submit store ticket)) →
        (next (execScript m (readRowSql operation scope) db)).Issues Q := by
  refine ⟨_, rfl, ?_⟩
  intro m db Q hread hdraw hsubmit
  have hanswer := readAnswer_eq operation scope m db
  cases hexec : execScript m (readRowSql operation scope) db with
  | error e =>
    simp only [Prog.bind, readRowSql_schema hexec, Bool.false_eq_true, if_false]
    exact trivial
  | ok rows =>
    rw [hexec] at hanswer
    simp only [Prog.bind, Prog.pure_eq]
    cases hfirst : decodeFirst operation scope rows with
    | error e => exact trivial
    | ok current =>
      dsimp only
      by_cases hclosed : current.lifecycle = .terminal ∧ newState ≠ .terminal
      · rw [if_pos hclosed]
        exact trivial
      by_cases hsame : current.lifecycle = newState
      · rw [if_neg hclosed, if_pos hsame]
        exact trivial
      rw [if_neg hclosed, if_neg hsame]
      refine writeTransition_issues hread hdraw fun ticket hticket => hsubmit ticket hticket ?_
      intro hne hterminal
      exact hclosed ⟨(readAnswer_lifecycle (hanswer.trans hfirst)).trans hterminal, hne⟩

/-! ### Every call of an interleaving -/

/-- A call is a transition that has not begun, or issues what its reads so far allow. -/
def CallsAllowed (pool : TransitionPool) (trace : List IssuedOp) : Prop :=
  ∀ i p, pool.calls[i]? = some p → (∃ t : Transition, p = t.call) ∨ p.Issues (MayIssue trace i)

theorem CallsAllowed.step {pool : TransitionPool} {trace : List IssuedOp} (h : CallsAllowed pool trace)
    (event : TransitionEvent) :
    CallsAllowed (pool.step StoreOp.exec event.event) (trace ++ pool.issued event.event) := by
  have hold : ∀ i p, pool.calls[i]? = some p →
      (∃ t : Transition, p = t.call) ∨ p.Issues (MayIssue (trace ++ pool.issued event.event) i) :=
    fun i p hp => (h i p hp).imp_right (Prog.Issues.mono fun op => MayIssue.mono)
  cases event with
  | start t =>
    intro i p hp
    simp only [TransitionEvent.event, Prog.Pool.step, List.getElem?_append] at hp
    split at hp
    · exact hold i p hp
    · have hmem := List.mem_of_getElem? hp
      exact .inl ⟨t, List.mem_singleton.1 hmem⟩
  | step j m =>
    rcases Prog.Pool.issued_cases StoreOp.exec pool (TransitionEvent.event (.step j m)) with
      ⟨hissued, -⟩ | ⟨k, op, env, next, hevent, hcall, hissued, hstep⟩
    · -- nothing was issued, so the calls are the same
      intro i p hp
      refine hold i p ?_
      rw [← hp]
      simp only [TransitionEvent.event, Prog.Pool.step, Prog.Pool.issued] at hissued ⊢
      split
      · rename_i op next hcall
        rw [hcall] at hissued
        cases hissued
      · rfl
    · cases hevent
      intro i p hp
      rw [hstep] at hp
      simp only [List.getElem?_set] at hp
      split at hp
      · rename_i hij
        subst hij
        split at hp
        · cases hp
          right
          rcases h j _ hcall with ⟨t, ht⟩ | hissues
          · -- the first read of the call: what it submits later this read allows
            obtain ⟨next', hbegin, hnext⟩ := transition_call t.handle t.operation t.scope t.newState
            have hsame : Prog.call op next = .call (.read (readRowSql t.operation t.scope)) next' := ht.trans hbegin
            cases hsame
            refine hnext m pool.state _ (fun query => trivial) trivial fun ticket hticket hopen => ?_
            refine ⟨_, t.operation, t.newState, hticket, fun hne => ?_⟩
            exact ⟨_, List.mem_append_right _ (by rw [hissued]; exact List.mem_singleton_self _), rfl, ⟨t.scope, rfl⟩,
              hopen hne⟩
          · exact (hissues.2 _).mono fun op => MayIssue.mono
        · cases hp
      · exact hold i p hp

theorem transitionPool_append (db : Database JournalTables) (a b : List TransitionEvent) :
    transitionPool db (a ++ b) = (transitionPool db a).after StoreOp.exec (b.map TransitionEvent.event) := by
  simp [transitionPool]

theorem transitionTrace_append (db : Database JournalTables) (a b : List TransitionEvent) :
    transitionTrace db (a ++ b) = transitionTrace db a ++
      (transitionPool db a).trace StoreOp.exec (b.map TransitionEvent.event) := by
  simp [transitionTrace, transitionPool, Prog.Pool.trace_append]

theorem transitionPool_allowed (db : Database JournalTables) (events : List TransitionEvent) :
    CallsAllowed (transitionPool db events) (transitionTrace db events) := by
  induction events using List.reverseRecOn with
  | nil =>
    intro i p hp
    exact nomatch hp
  | append_singleton events event ih =>
    have hstep := ih.step event
    rw [transitionPool_append, transitionTrace_append]
    simpa [Prog.Pool.after, Prog.Pool.trace] using hstep

/-- A step that ends a terminal state commits a move of a call that had read the row while it was open. -/
theorem CallsAllowed.leaves {pool : TransitionPool} {trace : List IssuedOp} (h : CallsAllowed pool trace)
    {operation : OperationId} {event : TransitionEvent} (hbefore : IsTerminal operation pool.state)
    (hafter : ¬ IsTerminal operation (pool.step StoreOp.exec event.event).state) :
    ∃ x, pool.issued event.event = [x] ∧ MovesElsewhere operation x ∧ ReadOpen trace x.call operation := by
  rcases Prog.Pool.issued_cases StoreOp.exec pool event.event with
    ⟨-, hstate⟩ | ⟨i, op, m, next, -, hcall, hissued, hstep⟩
  · rw [hstate] at hafter
    exact absurd hbefore hafter
  refine ⟨_, hissued, ?_⟩
  rw [hstep] at hafter
  have hmay : MayIssue trace i op := by
    rcases h i _ hcall with ⟨t, ht⟩ | hissues
    · obtain ⟨next', hbegin, -⟩ := transition_call t.handle t.operation t.scope t.newState
      cases ht.trans hbegin
      exact trivial
    · exact hissues.1
  cases op with
  | draw | reconcile | reconcileOperation | read | wall | poll => exact absurd hbefore hafter
  | submit handle ticket =>
    obtain ⟨store, moved, newState, hticket, hread⟩ := hmay
    simp only [StoreOp.exec] at hafter
    rcases submit_transition handle hticket m.host pool.state with hsame | ⟨-, htransits, -⟩
    · rw [hsame] at hafter
      exact absurd hbefore hafter
    · rw [IsTerminal, htransits.lifecycleState] at hafter
      by_cases hkey : moved.text = operation.text
      · rw [if_pos hkey] at hafter
        obtain rfl := OperationId.ext_text hkey
        refine ⟨⟨handle, store, ticket, newState, rfl, hticket, hafter, ?_⟩, hread hafter⟩
        intro hsame
        simp only [leftBy, StoreOp.exec] at hsame
        rw [hsame] at htransits
        have hstays := htransits.lifecycleState moved.text
        rw [if_pos rfl] at hstays
        exact hafter (hstays.symm.trans hbefore)
      · rw [if_neg hkey] at hafter
        exact absurd hbefore hafter

/-! ### Final exactly when no call is overtaken -/

theorem transitionPool_state (db : Database JournalTables) (events : List TransitionEvent) :
    (transitionPool db events).state = Prog.Pool.replay StoreOp.exec db (transitionTrace db events) :=
  Prog.Pool.after_state StoreOp.exec (Prog.Pool.idle db) _

/-- The operation at a place of the trace belongs to an event, and meets the state the events before it leave. -/
theorem transitionTrace_split {db : Database JournalTables} {events : List TransitionEvent} {front back : List IssuedOp}
    {x : IssuedOp} (h : transitionTrace db events = front ++ x :: back) :
    ∃ a event b, events = a ++ event :: b ∧ transitionTrace db a = front ∧
      x.before = (transitionPool db a).state ∧ leftBy x = (transitionPool db (a ++ [event])).state := by
  obtain ⟨a, event, b, hevents, hfront, hissued⟩ := Prog.Pool.trace_split StoreOp.exec h
  obtain ⟨a', rest, rfl, rfl, hrest⟩ := List.map_eq_append_iff.1 hevents
  obtain ⟨event', b', rfl, rfl, rfl⟩ := List.map_eq_cons_iff.1 hrest
  obtain ⟨hbefore, hstate⟩ := Prog.Pool.issued_singleton StoreOp.exec hissued
  refine ⟨a', event', b', rfl, hfront, hbefore, ?_⟩
  rw [transitionPool_append, leftBy, hbefore]
  exact hstate.symm

theorem MovesElsewhere.left_open {operation : OperationId} {x : IssuedOp} (h : MovesElsewhere operation x) :
    ¬ IsTerminal operation (leftBy x) := by
  obtain ⟨handle, store, ticket, newState, hop, hticket, hne, hcommitted⟩ := h
  have hleft : leftBy x = (submit handle ticket x.env.host x.before).1 := by
    rw [leftBy, hop]
    rfl
  rw [hleft] at hcommitted ⊢
  rcases submit_transition handle hticket x.env.host x.before with hsame | ⟨-, htransits, -⟩
  · exact absurd hsame hcommitted
  · rw [IsTerminal, htransits.lifecycleState, if_pos rfl]
    exact hne

theorem not_terminalFinal_of_overtaken {db : Database JournalTables} {events : List TransitionEvent}
    (h : Overtaken (transitionTrace db events)) : ¬ TerminalFinal db events := by
  intro hfinal
  obtain ⟨operation, front, read, between, write, back, htrace, -, -, hmoves, x, hx, -, hmade⟩ := h
  obtain ⟨early, late, rfl⟩ := List.append_of_mem hx
  obtain ⟨a, event, b, rfl, hfront, -, hwritten⟩ := transitionTrace_split htrace
  have hsplit : transitionTrace db a = (front ++ read :: early) ++ x :: late := by
    rw [hfront]
    simp
  obtain ⟨a', event', b', rfl, -, -, hmoved⟩ := transitionTrace_split hsplit
  rw [hmoved] at hmade
  -- terminal after the move that made it so, and not terminal after the write of the overtaken call
  have hend := hfinal operation (a' ++ [event']) (b' ++ [event]) b (by simp) hmade
  apply hmoves.left_open
  rw [hwritten]
  simpa [IsTerminal] using hend

/-- Where a terminal state is lost, one event lost it. -/
theorem exists_leaving_event {db : Database JournalTables} {operation : OperationId} {a b : List TransitionEvent}
    (hterminal : IsTerminal operation (transitionPool db a).state)
    (hopen : ¬ IsTerminal operation (transitionPool db (a ++ b)).state) :
    ∃ b₁ event b₂, b = b₁ ++ event :: b₂ ∧ IsTerminal operation (transitionPool db (a ++ b₁)).state ∧
      ¬ IsTerminal operation (transitionPool db (a ++ b₁ ++ [event])).state := by
  induction b using List.reverseRecOn with
  | nil => exact absurd hterminal (by simpa using hopen)
  | append_singleton b event ih =>
    by_cases hlast : IsTerminal operation (transitionPool db (a ++ b)).state
    · exact ⟨b, event, [], rfl, hlast, by simpa using hopen⟩
    · obtain ⟨b₁, event', b₂, rfl, h⟩ := ih hlast
      exact ⟨b₁, event', b₂ ++ [event], by simp, h⟩

/-- A call that loses a terminal state was overtaken since its read. -/
theorem overtaken_of_leaving {db : Database JournalTables} {operation : OperationId} {a b : List TransitionEvent}
    {event : TransitionEvent} (hbefore : IsTerminal operation (transitionPool db a).state)
    (hafter : ¬ IsTerminal operation (transitionPool db (a ++ [event])).state) :
    Overtaken (transitionTrace db (a ++ event :: b)) := by
  rw [transitionPool_append] at hafter
  obtain ⟨write, hissued, hmoves, read, hread, hcall, hreads, hwasOpen⟩ :=
    (transitionPool_allowed db a).leaves hbefore hafter
  obtain ⟨front, between, hfront⟩ := List.append_of_mem hread
  obtain ⟨_, _, _, _, hprefix, hreadBefore, -⟩ := transitionTrace_split hfront
  rw [transitionPool_state, hprefix] at hreadBefore
  rw [transitionPool_state, hfront, Prog.Pool.replay_append, ← hreadBefore] at hbefore
  -- from the read to the write the operation turned terminal
  obtain ⟨early, x, late, hsplit, hxopen, hxmade⟩ := Prog.Pool.exists_made StoreOp.exec hwasOpen hbefore
  cases early with
  | nil =>
    -- a read makes nothing terminal
    rw [List.nil_append, List.cons.injEq] at hsplit
    obtain ⟨scope, hop⟩ := hreads
    rw [← hsplit.1, hop] at hxmade
    exact absurd hxmade hwasOpen
  | cons r early =>
    rw [List.cons_append, List.cons.injEq] at hsplit
    obtain ⟨rfl, rfl⟩ := hsplit
    have hfront' : transitionTrace db a = (front ++ read :: early) ++ x :: late := by
      rw [hfront]
      simp
    obtain ⟨_, _, _, _, hprefix', hxbefore, -⟩ := transitionTrace_split hfront'
    rw [transitionPool_state, hprefix', Prog.Pool.replay_append, ← hreadBefore] at hxbefore
    rw [← hxbefore] at hxopen hxmade
    have htrace : transitionTrace db (a ++ event :: b) = front ++ read :: (early ++ x :: late) ++ write ::
        (transitionPool db (a ++ [event])).trace StoreOp.exec (b.map TransitionEvent.event) := by
      rw [List.append_cons, transitionTrace_append, transitionTrace_append, hfront]
      simp [Prog.Pool.trace, hissued]
    exact ⟨operation, front, read, early ++ x :: late, write, _, htrace, hcall, hreads, hmoves, x, by simp, hxopen,
      hxmade⟩

/-- A terminal state is final in an interleaving of transitions exactly when none of them is overtaken. -/
theorem terminal_final_iff (db : Database JournalTables) (events : List TransitionEvent) :
    TerminalFinal db events ↔ ¬ Overtaken (transitionTrace db events) := by
  constructor
  · exact fun hfinal hovertaken => not_terminalFinal_of_overtaken hovertaken hfinal
  · intro hnot operation a b c hevents hterminal
    by_contra hopen
    obtain ⟨b₁, event, b₂, rfl, hbefore, hafter⟩ := exists_leaving_event hterminal hopen
    apply hnot
    have hcut : events = (a ++ b₁) ++ event :: (b₂ ++ c) := by
      rw [hevents]
      simp
    rw [hcut]
    exact overtaken_of_leaving hbefore hafter

/-! ### The interleaving that loses a terminal state -/

def dispatchedOperation : OperationId := ⟨"op-1", by decide⟩

def dispatchedScope : TrustedScope := ⟨"scope-1", by decide⟩

/-- A journal with one dispatched set. -/
def dispatchedStore : Database JournalTables where
  tables := {
    journal := [{
      operation := "op-1"
      scope := "scope-1"
      equipment := "ahu-1"
      bindingRevision := 1
      acceptedRevision := 1
      expectedGeneration := 0
      targetGeneration := 1
      payload := "payload"
      deadlineSecs := 5
      ceiling := 8
      actor := "operator"
      attempt := "op-1"
      created := 100
      wireBits := some 0x41AC0000
      actionKind := some .set
      releaseAdmitted := some false
      releaseTarget := some "ahu-1" }]
    targets := [⟨"scope-1", "ahu-1", 1⟩]
    lifecycle := [⟨"op-1", "op-1", .dispatched, 100, none⟩] }
  receipts := []

def journalStore : SqliteStore := ⟨"store", .tiny⟩

/-- One handle reads the dispatched row to mark it unresolved; a second one marks it terminal. -/
def terminalMarked : List TransitionEvent :=
  [.start ⟨journalStore, dispatchedOperation, dispatchedScope, .unresolved⟩, .step 0 (.quiet "" 101),
    .start ⟨journalStore, dispatchedOperation, dispatchedScope, .terminal⟩, .step 1 (.quiet "" 102),
    .step 1 (.quiet "storage-1-2-3" 102), .step 1 (.quiet "" 102)]

/-- The first handle goes on with its write. -/
def unresolvedWritten : List TransitionEvent := [.step 0 (.quiet "storage-1-2-4" 103), .step 0 (.quiet "" 103)]

theorem terminal_not_final : ¬ TerminalFinal dispatchedStore (terminalMarked ++ unresolvedWritten) := by
  intro h
  have hend := h dispatchedOperation terminalMarked unresolvedWritten [] (by simp) (by decide +kernel)
  exact absurd hend (by decide +kernel)

end Verdant.Action
