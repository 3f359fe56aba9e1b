import Verdant.Action.Announce
import Verdant.Action.RateWindow

/-!
# Honest answers of the journal

Any number of journal handles over one store submit admissions, fresh ones and repeated ones, and transition their
lifecycles, every operation of a call being one step of an interleaving and any of them failing.  A handle is busy
during its own submit.  As long as no read fails that follows a commit of its own call, every state reached is honest:
a value stands for a durable row, each handle announces an operation at most once and only when its row is durable, and
an error that is not `unknown` says that the call committed nothing (`answers_honest`).  Without that a failed read-back
is reported like a failed read before the commit (`committed_answered_storage`).
-/

namespace Verdant.Action

open Storage Prog

/-- A call of a journal: a submit through one of the handles, which it keeps busy, or a transition. -/
inductive JournalCall where
  | submit (journal : Nat) (submission : Submission)
  | transition (transition : Transition)

/-- What a call answers, and what it announces on the essential queue of its handle. -/
abbrev HandoffAnswer := Except WriterError Admitted × Option Admitted

def JournalCall.prog : JournalCall → Call JournalTables HandoffAnswer
  | .submit _ s => submitHandoff s.handle s.pending
  | .transition t => t.call >>= fun answer => pure (answer, none)

/-- A call is made, or the `i`-th one performs its next operation. -/
inductive HandleEvent where
  | call (call : JournalCall)
  | step (i : Nat) (moment : Moment)

/-- The handles of one store: the calls made, each with the store it began in, how far they are, and the operations
they issued. -/
structure Handles where
  begun : List (JournalCall × Database JournalTables)
  pool : Pool (StoreOp.Answer (ρ := JournalTables)) (Database JournalTables) HandoffAnswer
  log : List IssuedOp

namespace Handles

def idle (db : Database JournalTables) : Handles := ⟨[], Pool.idle db, []⟩

/-- A submit through the handle is still under way. -/
def busy (h : Handles) (journal : Nat) : Bool :=
  (h.begun.zip h.pool.calls).any fun
    | ((.submit j _, _), .call _ _) => j = journal
    | _ => false

/-- A submit needs its handle for itself. -/
def waits (h : Handles) : JournalCall → Bool
  | .submit journal _ => h.busy journal
  | .transition _ => false

def step (h : Handles) : HandleEvent → Handles
  | .call c =>
    if h.waits c then h
    else ⟨h.begun ++ [(c, h.pool.state)], h.pool.step StoreOp.exec (.start c.prog), h.log⟩
  | .step i m => ⟨h.begun, h.pool.step StoreOp.exec (.step i m), h.log ++ h.pool.issued (.step i m)⟩

def after (h : Handles) (events : List HandleEvent) : Handles := events.foldl step h

/-- What a call that ended announced through the handle. -/
def announcedBy (journal : Nat) :
    (JournalCall × Database JournalTables) × Call JournalTables HandoffAnswer → Option Admitted
  | ((.submit j _, _), .done (_, row)) => if j = journal then row else none
  | _ => none

/-- The essential queue of a handle: what its submits announced, one after the other. -/
def announced (h : Handles) (journal : Nat) : List Admitted :=
  (h.begun.zip h.pool.calls).filterMap (announcedBy journal)

/-- The operations of one call. -/
def actsOf (h : Handles) (i : Nat) : List JournalAct := Pool.actsOf h.log i

end Handles

/-- What a submit names reads back as a name. -/
def JournalCall.Named : JournalCall → Prop
  | .submit _ s => s.pending.admission.Named
  | .transition _ => True

/-- What a call committed names nothing `NULL`, and no read of the call fails after it. -/
def CommitReadsBack (call : JournalCall) (acts : List JournalAct) : Prop :=
  (NoCommit acts ∨ call.Named) ∧ CalmAfterCommit acts

/-- What the answers of the calls so far say of the store. -/
structure Honest (h : Handles) : Prop where
  /-- A value of a submit stands for a row that is durable and identical to the pending admission. -/
  durable : ∀ (i journal : Nat) (submission : Submission) (db : Database JournalTables) (row : Admitted)
    (handed : Option Admitted), h.begun[i]? = some (.submit journal submission, db) →
    h.pool.calls[i]? = some (.done (.ok row, handed)) →
      row.operation = submission.pending.admission.operation ∧ Durable submission.pending.admission h.pool.state.tables
  /-- What is announced is durable. -/
  announced : ∀ journal, ∀ row ∈ h.announced journal, ∃ (i : Nat) (submission : Submission) (db : Database JournalTables),
    h.begun[i]? = some (.submit journal submission, db) ∧ row.operation = submission.pending.admission.operation ∧
      Durable submission.pending.admission h.pool.state.tables
  /-- A handle announces an operation once. -/
  once : ∀ journal, ((h.announced journal).map Admitted.operation).Nodup
  /-- An error that is not `unknown` comes from a call none of whose operations changed the store. -/
  uncommitted : ∀ (i : Nat) (call : JournalCall) (db : Database JournalTables) (e : WriterError)
    (handed : Option Admitted), h.begun[i]? = some (call, db) →
    h.pool.calls[i]? = some (.done (.error e, handed)) → ¬ e.IsUnknown → NoCommit (h.actsOf i)

/-! ### What each call promises -/

def JournalCall.promise (s : Database JournalTables) :
    JournalCall → Pool.Promise (StoreOp JournalTables) Moment (Database JournalTables) HandoffAnswer
  | .submit _ x => ⟨Submits (· = x.pending.ticket), fun acts t out => Written Admission.Named t.tables →
      SubmitHonest x.pending.admission s acts t out⟩
  | .transition t => ⟨Submits (IsTransitionTicket t.handle t.operation t.newState),
      fun acts _ out => TransitionHonest acts out.1 ∧ out.2 = none⟩

theorem Submission.checked (x : Submission) :
    x.pending.admission.Checked ∧ x.pending.ticket = x.pending.admission.ticket x.preparedBy := by
  obtain ⟨hcheck, hticket⟩ := prepareWithPredecessor_eq_ok x.prepared
  exact ⟨(AdmissionRequest.check_eq_ok hcheck).1, hticket⟩

theorem JournalCall.leads (c : JournalCall) {s : Database JournalTables} (hs : Written (fun _ => True) s.tables) :
    JournalLeads (c.promise s).grants (c.promise s).relates s c.prog := by
  cases c with
  | submit journal x =>
    obtain ⟨hchecked, hticket⟩ := x.checked
    exact leads_submit hchecked hticket hs x.handle
  | transition t =>
    refine Leads.bind (leads_transition hs t.handle t.operation t.scope t.newState) fun acts u answer _ hanswer => ?_
    refine leads_done fun v hv => ?_
    rw [List.append_nil]
    exact ⟨hanswer v hv, rfl⟩

/-- A call whose admission is named submits tickets of named admissions only. -/
theorem JournalCall.writesOnly {c : JournalCall} (hnamed : c.Named) {s t : Database JournalTables}
    {op : StoreOp JournalTables} {m : Moment} (h : (c.promise s).grants op m t) : WritesOnly Admission.Named op := by
  cases op with
  | draw | reconcile | reconcileOperation | read | wall | poll => exact trivial
  | submit store ticket =>
    cases c with
    | submit journal x =>
      obtain ⟨hchecked, hticket⟩ := x.checked
      have hown : ticket = x.pending.ticket := h store ticket rfl
      exact .inl ⟨x.pending.admission, x.preparedBy, hchecked, hnamed, hown.trans hticket⟩
    | transition t =>
      exact .inr ⟨t.handle, t.operation, t.newState, h store ticket rfl⟩

/-! ### Every state of a run -/

theorem CommitReadsBack.of_append {call : JournalCall} {acts more : List JournalAct}
    (h : CommitReadsBack call (acts ++ more)) : CommitReadsBack call acts := by
  refine ⟨h.1.imp (fun hidle x hx => hidle x (List.mem_append_left _ hx)) id, ?_⟩
  rintro front write back rfl hwrite read hread
  exact h.2 front write (back ++ more) (by simp) hwrite read (List.mem_append_left _ hread)

/-- The commits of all calls read back. -/
def Handles.AllReadBack (h : Handles) : Prop :=
  ∀ (i : Nat) (call : JournalCall) (db : Database JournalTables), h.begun[i]? = some (call, db) →
    CommitReadsBack call (h.actsOf i)

theorem Handles.AllReadBack.before {h : Handles} {event : HandleEvent} (hreads : (h.step event).AllReadBack) :
    h.AllReadBack := by
  intro i call db hcall
  cases event with
  | call c =>
    simp only [Handles.step] at hreads
    split at hreads
    · exact hreads i call db hcall
    · refine hreads i call db ?_
      rw [List.getElem?_append_left (List.getElem?_eq_some_iff.1 hcall).1]
      exact hcall
  | step j m =>
    have hlater := hreads i call db hcall
    simp only [Handles.actsOf, Handles.step, Pool.actsOf_append] at hlater
    exact hlater.of_append

/-- What holds of the handles in every state of a run whose commits read back. -/
structure Sound (h : Handles) : Prop where
  led : Pool.Led StoreOp.exec journalLaw (fun _ => True) (h.begun.map fun b => b.1.promise b.2) h.log h.pool
  named : Written Admission.Named h.pool.state.tables
  /-- An earlier submit through a handle has ended, and left the receipt of what it announced. -/
  ordered : ∀ (i k journal : Nat) (x y : Submission) (db db' : Database JournalTables), i < k →
    h.begun[i]? = some (.submit journal x, db) → h.begun[k]? = some (.submit journal y, db') →
      ∃ out, h.pool.calls[i]? = some (.done out) ∧ ∀ row, out.2 = some row →
        findReceipt db'.receipts x.pending.admission.operation.text ≠ none

theorem sound_idle {db : Database JournalTables} (hdb : Written Admission.Named db.tables) : Sound (Handles.idle db) where
  led := Pool.led_idle db
  named := hdb
  ordered _ _ _ _ _ _ _ _ hx := nomatch hx

variable {h : Handles}

theorem Sound.promised (hsound : Sound h) {i : Nat} {call : JournalCall} {db : Database JournalTables} {out : HandoffAnswer}
    (hcall : h.begun[i]? = some (call, db)) (hout : h.pool.calls[i]? = some (.done out)) :
    (call.promise db).relates (h.actsOf i) h.pool.state out := by
  refine hsound.led.answer hout ?_ (journalLaw.refl _)
  rw [List.getElem?_map, hcall]
  rfl

theorem Sound.submitted (hsound : Sound h) {i journal : Nat} {x : Submission} {db : Database JournalTables}
    {out : HandoffAnswer} (hcall : h.begun[i]? = some (.submit journal x, db)) (hout : h.pool.calls[i]? = some (.done out)) :
    SubmitHonest x.pending.admission db (h.actsOf i) h.pool.state out :=
  hsound.promised hcall hout hsound.named

/-- A handle that is not busy has ended all its submits. -/
theorem Sound.ended (hsound : Sound h) {i journal : Nat} (hfree : h.busy journal = false) {x : Submission}
    {db : Database JournalTables} (hcall : h.begun[i]? = some (.submit journal x, db)) :
    ∃ out, h.pool.calls[i]? = some (.done out) := by
  have hlen : i < h.pool.calls.length := by
    rw [← hsound.led.length, List.length_map]
    exact (List.getElem?_eq_some_iff.1 hcall).1
  obtain ⟨p, hp⟩ : ∃ p, h.pool.calls[i]? = some p := ⟨_, List.getElem?_eq_getElem hlen⟩
  cases p with
  | done out => exact ⟨out, hp⟩
  | call op next =>
    have hmem : ((JournalCall.submit journal x, db), Prog.call op next) ∈ h.begun.zip h.pool.calls := by
      refine List.mem_of_getElem? (i := i) ?_
      rw [List.getElem?_zip_eq_some]
      exact ⟨hcall, hp⟩
    have hnone := List.any_eq_false.1 hfree _ hmem
    simp at hnone

theorem Sound.call (hsound : Sound h) {c : JournalCall} (hfree : h.waits c = false) :
    Sound ⟨h.begun ++ [(c, h.pool.state)], h.pool.step StoreOp.exec (.start c.prog), h.log⟩ where
  led := by
    rw [List.map_append]
    exact hsound.led.start (c.leads (hsound.named.mono fun _ _ => trivial))
  named := hsound.named
  ordered i k journal x y db db' hik hx hy := by
    have hk : k < h.begun.length ∨ k = h.begun.length := by
      have := (List.getElem?_eq_some_iff.1 hy).1
      rw [List.length_append, List.length_singleton] at this
      omega
    have hi : i < h.begun.length := by omega
    rw [List.getElem?_append_left hi] at hx
    rcases hk with hk | rfl
    · rw [List.getElem?_append_left hk] at hy
      obtain ⟨out, hout, hreceipt⟩ := hsound.ordered i k journal x y db db' hik hx hy
      exact ⟨out, Pool.ended_step StoreOp.exec hout _, hreceipt⟩
    · rw [List.getElem?_append_right (Nat.le_refl _), Nat.sub_self] at hy
      cases hy
      obtain ⟨out, hout⟩ := hsound.ended hfree hx
      exact ⟨out, Pool.ended_step StoreOp.exec hout _, fun row hrow => ((hsound.submitted hx hout).announced row hrow).2.2⟩

theorem Sound.step (hsound : Sound h) (i : Nat) (m : Moment) (hreads : (h.step (.step i m)).AllReadBack) :
    Sound (h.step (.step i m)) where
  led := (hsound.led.step trivial).2
  named := by
    simp only [Handles.step]
    rcases Pool.issued_cases StoreOp.exec h.pool (.step i m) with ⟨-, hsame⟩ | ⟨j, op, e, next, hev, -, hissued, hnext⟩
    · rw [hsame]
      exact hsound.named
    · cases hev
      have hled : Pool.Led StoreOp.exec journalLaw (fun _ => True) (h.begun.map fun b => b.1.promise b.2)
          (h.step (.step i m)).log (h.step (.step i m)).pool := (hsound.led.step trivial).2
      have hmem : (⟨i, op, m, h.pool.state⟩ : IssuedOp) ∈ (h.step (.step i m)).log := by
        simp only [Handles.step, hissued]
        exact List.mem_append_right _ (List.mem_singleton_self _)
      obtain ⟨promise, hpromise, hgrants⟩ := hled.issued _ hmem
      rw [List.getElem?_map] at hpromise
      obtain ⟨⟨c, db⟩, hc, rfl⟩ := Option.map_eq_some_iff.1 hpromise
      rw [hnext]
      rcases (hreads i c db hc).1 with hidle | hnamed
      · have hown : Idle ⟨op, m, h.pool.state⟩ := hidle _ (Pool.mem_actsOf hmem)
        unfold Idle at hown
        rw [hown]
        exact hsound.named
      · exact hsound.named.exec (c.writesOnly hnamed hgrants) m
  ordered i' k journal x y db db' hik hx hy := by
    obtain ⟨out, hout, hreceipt⟩ := hsound.ordered i' k journal x y db db' hik hx hy
    exact ⟨out, Pool.ended_step StoreOp.exec hout _, hreceipt⟩

theorem sound_after {db : Database JournalTables} (hdb : Written Admission.Named db.tables) (events : List HandleEvent)
    (hreads : ((Handles.idle db).after events).AllReadBack) : Sound ((Handles.idle db).after events) := by
  induction events using List.reverseRecOn with
  | nil => exact sound_idle hdb
  | append_singleton events event ih =>
    have hlast : (Handles.idle db).after (events ++ [event]) = ((Handles.idle db).after events).step event := by
      simp [Handles.after]
    rw [hlast] at hreads ⊢
    have hsound := ih hreads.before
    cases event with
    | step i m => exact hsound.step i m hreads
    | call c =>
      simp only [Handles.step]
      split
      · exact hsound
      · rename_i hfree
        exact hsound.call (Bool.not_eq_true _ ▸ hfree)

/-! ### Announcements -/

/-- What is on a queue was announced by a submit through its handle. -/
theorem Handles.announced_at {journal i : Nat} {e : (JournalCall × Database JournalTables) × Call JournalTables HandoffAnswer}
    {row : Admitted} (hi : (h.begun.zip h.pool.calls)[i]? = some e) (hrow : Handles.announcedBy journal e = some row) :
    ∃ (x : Submission) (db : Database JournalTables) (answer : Except WriterError Admitted),
      h.begun[i]? = some (.submit journal x, db) ∧ h.pool.calls[i]? = some (.done (answer, some row)) := by
  unfold Handles.announcedBy at hrow
  split at hrow
  · rename_i j x db answer handed
    split at hrow
    · rename_i hj
      subst hj
      subst hrow
      exact ⟨x, db, answer, List.getElem?_zip_eq_some.1 hi⟩
    · exact nomatch hrow
  · exact nomatch hrow

theorem Sound.once (hsound : Sound h) (journal : Nat) : ((h.announced journal).map Admitted.operation).Nodup := by
  unfold List.Nodup Handles.announced
  rw [List.pairwise_map, List.pairwise_filterMap, List.pairwise_iff_getElem]
  intro i k hi hk hik row hrow row' hrow' hsame
  obtain ⟨x, db, answer, hx, hxdone⟩ := Handles.announced_at (List.getElem?_eq_getElem hi) hrow
  obtain ⟨y, db', answer', hy, hydone⟩ := Handles.announced_at (List.getElem?_eq_getElem hk) hrow'
  have hfirst := hsound.submitted hx hxdone
  have hsecond := hsound.submitted hy hydone
  obtain ⟨hok, -, -⟩ := hfirst.announced row rfl
  obtain ⟨hok', habsent, -⟩ := hsecond.announced row' rfl
  -- the first one left its receipt before the second one looked for it
  obtain ⟨out, hout, hreceipt⟩ := hsound.ordered i k journal x y db db' hik hx hy
  obtain rfl := Prog.done.inj (Option.some.inj (hxdone.symm.trans hout))
  refine hreceipt row rfl ?_
  rw [← (hfirst.durable row hok).2, hsame, (hsecond.durable row' hok').2]
  exact habsent

theorem Sound.honest (hsound : Sound h) (hreads : h.AllReadBack) : Honest h where
  durable i journal x db row handed hcall hout := by
    obtain ⟨hdurable, hoperation⟩ := (hsound.submitted hcall hout).durable row rfl
    exact ⟨hoperation, hdurable⟩
  announced journal row hrow := by
    obtain ⟨e, hmem, hsome⟩ := List.mem_filterMap.1 hrow
    obtain ⟨i, hi⟩ := List.mem_iff_getElem?.1 hmem
    obtain ⟨x, db, answer, hcall, hout⟩ := Handles.announced_at hi hsome
    have hhonest := hsound.submitted hcall hout
    obtain ⟨hok, -, -⟩ := hhonest.announced row rfl
    obtain ⟨hdurable, hoperation⟩ := hhonest.durable row hok
    exact ⟨i, x, db, hcall, hoperation, hdurable⟩
  once := hsound.once
  uncommitted i call db e handed hcall hout hknown := by
    have hcalm := (hreads i call db hcall).2
    cases call with
    | submit journal x => exact (hsound.submitted hcall hout).failed e rfl hknown hcalm
    | transition t => exact (hsound.promised hcall hout).1 e rfl hknown hcalm

/-- As long as the commits read back, the answers and the announcements of every run are honest. -/
theorem answers_honest (db : Database JournalTables) (hdb : Written Admission.Named db.tables)
    (events : List HandleEvent) (hreads : ((Handles.idle db).after events).AllReadBack) :
    Honest ((Handles.idle db).after events) :=
  (sound_after hdb events hreads).honest hreads

/-! ### Runs on a fixed admission -/

/-- Calls and operations of a run are those of its events. -/
theorem Handles.of_events (db : Database JournalTables) (events : List HandleEvent) :
    (∀ b ∈ ((Handles.idle db).after events).begun, .call b.1 ∈ events) ∧
      ∀ x ∈ ((Handles.idle db).after events).log, .step x.call x.env ∈ events := by
  induction events using List.reverseRecOn with
  | nil => exact ⟨(fun _ hb => nomatch hb), fun _ hx => nomatch hx⟩
  | append_singleton events event ih =>
    obtain ⟨hbegun, hlog⟩ := ih
    have hlast : (Handles.idle db).after (events ++ [event]) = ((Handles.idle db).after events).step event := by
      simp [Handles.after]
    rw [hlast]
    refine ⟨fun b hb => ?_, fun x hx => ?_⟩
    · cases event with
      | step i m => exact List.mem_append_left _ (hbegun b hb)
      | call c =>
        simp only [Handles.step] at hb
        split at hb
        · exact List.mem_append_left _ (hbegun b hb)
        · rcases List.mem_append.1 hb with hb | hb
          · exact List.mem_append_left _ (hbegun b hb)
          · rw [List.mem_singleton.1 hb]
            exact List.mem_append_right _ (List.mem_singleton_self _)
    · cases event with
      | call c =>
        simp only [Handles.step] at hx
        split at hx <;> exact List.mem_append_left _ (hlog x hx)
      | step i m =>
        rcases List.mem_append.1 hx with hx | hx
        · exact List.mem_append_left _ (hlog x hx)
        · rcases Pool.issued_cases StoreOp.exec ((Handles.idle db).after events).pool (.step i m) with
            ⟨hnone, -⟩ | ⟨j, op, e, next, hev, -, hissued, -⟩
          · rw [hnone] at hx
            exact nomatch hx
          · cases hev
            rw [hissued] at hx
            rw [List.mem_singleton.1 hx]
            exact List.mem_append_right _ (List.mem_singleton_self _)

/-- A run of named admissions in which no read fails reads every commit back. -/
theorem Handles.allReadBack_of_calm {db : Database JournalTables} {events : List HandleEvent}
    (hnamed : ∀ c, .call c ∈ events → c.Named) (hcalm : ∀ i m, .step i m ∈ events → CalmMoment m) :
    ((Handles.idle db).after events).AllReadBack := by
  obtain ⟨hbegun, hlog⟩ := Handles.of_events db events
  intro i call start hcall
  refine ⟨.inr (hnamed call (hbegun _ (List.mem_of_getElem? hcall))), ?_⟩
  intro front write back hacts _ read hread
  have hmem : read ∈ ((Handles.idle db).after events).actsOf i := by
    rw [hacts]
    exact List.mem_append_right _ (List.mem_cons_of_mem _ hread)
  obtain ⟨x, hx, rfl⟩ := List.mem_map.1 hmem
  exact hcalm _ _ (hlog x (List.mem_filter.1 hx).1)

/-- A submit of the first set, the `i`-th call, and its operations. -/
def firstSet (journal i : Nat) (moments : List Moment) : List HandleEvent :=
  match setSubmission 0 with
  | none => []
  | some s => .call (.submit journal s) :: moments.map (.step i)

theorem named_of_mem_firstSet {journal i : Nat} {moments : List Moment} {c : JournalCall}
    (h : .call c ∈ firstSet journal i moments) : c.Named := by
  have hnamed : (setSubmission 0).all (fun s => decide s.pending.admission.Named) = true := by decide +kernel
  unfold firstSet at h
  split at h
  · exact nomatch h
  · rename_i s hs
    rw [hs] at hnamed
    rcases List.mem_cons.1 h with h | h
    · cases h
      show s.pending.admission.Named
      simpa using hnamed
    · obtain ⟨m, -, hm⟩ := List.mem_map.1 h
      exact nomatch hm

theorem moment_of_mem_firstSet {journal i j : Nat} {moments : List Moment} {m : Moment}
    (h : .step j m ∈ firstSet journal i moments) : m ∈ moments := by
  unfold firstSet at h
  split at h
  · exact nomatch h
  · rcases List.mem_cons.1 h with h | h
    · exact nomatch h
    · obtain ⟨m', hm', hstep⟩ := List.mem_map.1 h
      cases hstep
      exact hm'

theorem markedOperation_valid : IsId "set-0" := by decide

/-- The set is submitted, read back and marked terminal. -/
def markedSet : List HandleEvent :=
  firstSet 0 0 [.quiet "" 100, .quiet "" 100, .quiet "" 101] ++
    [.call (.transition ⟨journalStore, ⟨"set-0", markedOperation_valid⟩, mixedScope, .terminal⟩),
      .step 1 (.quiet "" 102), .step 1 (.quiet "storage-1-2-3" 102), .step 1 (.quiet "" 102), .step 1 (.quiet "" 102)]

theorem answers_honest_marked :
    Honest ((Handles.idle ⟨.empty, []⟩).after markedSet) ∧
      (((Handles.idle ⟨.empty, []⟩).after markedSet).announced 0).map (fun row => row.operation.text) = ["set-0"] := by
  have hcalm : ∀ m ∈ [Moment.quiet "" 100, .quiet "" 100, .quiet "" 101], CalmMoment m := by
    simp [CalmMoment, Moment.quiet]
  refine ⟨answers_honest _ written_empty markedSet (Handles.allReadBack_of_calm ?_ ?_), by decide +kernel⟩
  · intro c hc
    rcases List.mem_append.1 hc with hc | hc
    · exact named_of_mem_firstSet hc
    · simp only [List.mem_cons, HandleEvent.call.injEq, reduceCtorEq, List.not_mem_nil, or_false] at hc
      rw [hc]
      exact trivial
  · intro i m hm
    rcases List.mem_append.1 hm with hm | hm
    · exact hcalm m (moment_of_mem_firstSet hm)
    · simp only [List.mem_cons, HandleEvent.step.injEq, reduceCtorEq, List.not_mem_nil, or_false, false_or] at hm
      rcases hm with ⟨-, rfl⟩ | ⟨-, rfl⟩ | ⟨-, rfl⟩ | ⟨-, rfl⟩ <;> rfl

/-- A moment at which the command line of the store is busy. -/
def busyRead : Moment := { Moment.quiet "" 101 with read := some ⟨.busy "database is locked", rfl⟩ }

/-- The set is submitted, and the read behind its commit finds the store busy. -/
def unreadSet : List HandleEvent := firstSet 0 0 [.quiet "" 100, .quiet "" 100, busyRead]

/-- The call answered with an error of the storage. -/
def answersStorage : Option (Call JournalTables HandoffAnswer) → Bool
  | some (.done (.error (.storage _), _)) => true
  | _ => false

theorem committed_answered_storage :
    ¬ ∀ (db : Database JournalTables) (events : List HandleEvent), Written Admission.Named db.tables →
      Honest ((Handles.idle db).after events) := by
  intro hall
  have hhonest := hall ⟨.empty, []⟩ unreadSet written_empty
  have hbegun : ((Handles.idle ⟨.empty, []⟩).after unreadSet).begun.length = 1 := by decide +kernel
  have hanswer : answersStorage ((Handles.idle ⟨.empty, []⟩).after unreadSet).pool.calls[0]? = true := by decide +kernel
  have hcommit : (((Handles.idle ⟨.empty, []⟩).after unreadSet).log.any fun x =>
      x.call = 0 ∧ (leftBy x).tables.journal.length ≠ x.before.tables.journal.length) = true := by decide +kernel
  obtain ⟨⟨call, start⟩, hcall⟩ := List.length_eq_one_iff.1 hbegun
  unfold answersStorage at hanswer
  split at hanswer
  · rename_i e handed hended
    have hidle := hhonest.uncommitted 0 call start (.storage e) handed (by rw [hcall]; rfl) hended (fun h => h)
    obtain ⟨x, hx, hgrown⟩ := List.any_eq_true.1 hcommit
    obtain ⟨hzero, hlength⟩ := of_decide_eq_true hgrown
    have hact := Pool.mem_actsOf hx
    rw [hzero] at hact
    exact hlength (congrArg (fun db => db.tables.journal.length) (hidle _ hact))
  · exact nomatch hanswer

end Verdant.Action
