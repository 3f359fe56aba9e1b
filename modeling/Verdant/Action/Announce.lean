import Verdant.Action.JournalCodec
import Verdant.Action.Pages
import Verdant.Action.Rediscovery
import Verdant.Library.Leads

/-!
# Answers and announcements of the journal

A submit reconciles its ticket, commits it, reads the row back and announces it; a transition reads, commits and reads
back.  What each call answers is related to the operations it issued, whatever other callers do between them: a value
stands for a durable row, an announcement for a row that had no receipt when the call began, and an error that is not
`unknown` for a call that committed nothing, unless its own commit is followed by a read that fails.
-/

namespace Verdant.Action

open Storage Prog

/-- `Journal::submit` with what it announces on the essential queue: the committed row, and nothing else. -/
def submitHandoff (store : SqliteStore) (pending : PendingAdmission) :
    Call JournalTables (Except WriterError Admitted × Option Admitted) := do
  match ← tryReconcileTicket store pending with
  | .error e => return (.error e, none)
  | .ok (some committed) => return (.ok committed, none)
  | .ok none =>
    match ← admissionAnswer pending (← Call.submit store pending.ticket) with
    | .error e => return (.error e, none)
    | .ok admitted => return (.ok admitted, some admitted)

/-- The answers are those of the submit. -/
theorem submitHandoff_fst (store : SqliteStore) (pending : PendingAdmission) :
    (submitHandoff store pending >>= fun out => (pure out.1 : Call JournalTables _)) =
      submitAdmission store pending := by
  unfold submitHandoff submitAdmission
  rw [bind_bind]
  refine congrArg (tryReconcileTicket store pending >>= ·) (funext fun answer => ?_)
  rcases answer with e | _ | committed
  · rfl
  · simp only [bind_bind]
    refine congrArg (Call.submit store pending.ticket >>= ·) (funext fun out => ?_)
    refine Eq.trans ?_ (bind_done (admissionAnswer pending out))
    refine congrArg (admissionAnswer pending out >>= ·) (funext fun row => ?_)
    cases row <;> rfl
  · rfl

/-! ### What the callers keep -/

/-- Every journal row is the row of an admission that passed its checks and meets `Q`, with its link. -/
def Written (Q : Admission → Prop) (tables : JournalTables) : Prop :=
  ∀ r ∈ tables.journal, ∃ (a : Admission) (created : Int64), a.Checked ∧ Q a ∧ r = a.row created.toInt ∧
    Holds a created.toInt tables

/-- The operations of the callers: the tickets are those of admissions that meet `Q` and of transitions. -/
def WritesOnly (Q : Admission → Prop) : StoreOp JournalTables → Prop
  | .submit _ ticket =>
    (∃ (a : Admission) (store : SqliteStore), a.Checked ∧ Q a ∧ ticket = a.ticket store) ∨
      ∃ (store : SqliteStore) (operation : OperationId) (newState : LifecycleState),
        IsTransitionTicket store operation newState ticket
  | _ => True

variable {Q : Admission → Prop}

theorem WritesOnly.journalOp {op : StoreOp JournalTables} (h : WritesOnly Q op) : JournalOp op := by
  cases op with
  | submit store ticket =>
    rcases h with ⟨a, store, hchecked, -, hticket⟩ | htransition
    · exact .inl ⟨a, store, hchecked, hticket⟩
    · exact .inr htransition
  | draw | reconcile | reconcileOperation | read | wall | poll => exact trivial

theorem written_empty : Written Q .empty := fun _ hr => nomatch hr

theorem Written.mono {Q' : Admission → Prop} {tables : JournalTables} (h : Written Q tables) (hQ : ∀ a, Q a → Q' a) :
    Written Q' tables := by
  intro r hr
  obtain ⟨a, created, hchecked, ha, hrow, hholds⟩ := h r hr
  exact ⟨a, created, hchecked, hQ a ha, hrow, hholds⟩

theorem Written.exec {op : StoreOp JournalTables} (hop : WritesOnly Q op) (m : Moment) {db : Database JournalTables}
    (h : Written Q db.tables) : Written Q (op.exec m db).1.tables := by
  have hstep := hop.journalOp.step m db
  have hold : ∀ r ∈ db.tables.journal, ∃ (a : Admission) (created : Int64), a.Checked ∧ Q a ∧
      r = a.row created.toInt ∧ Holds a created.toInt (op.exec m db).1.tables := by
    intro r hr
    obtain ⟨a, created, hchecked, hQ, hrow, hholds⟩ := h r hr
    exact ⟨a, created, hchecked, hQ, hrow, hholds.step hstep⟩
  cases op with
  | draw | reconcile | reconcileOperation | read | wall | poll => exact hold
  | submit store ticket =>
    intro r hr
    rcases hop with ⟨a, store', hchecked, hQ, rfl⟩ | ⟨store', operation, newState, hticket⟩
    · rcases submit_admission store store' a m.host db with hsame | ⟨-, hadmits, -⟩
      · refine hold r ?_
        simp only [StoreOp.exec, hsame] at hr
        exact hr
      · obtain ⟨updated, hafter⟩ := hadmits.after_eq
        simp only [StoreOp.exec] at hr
        rw [hafter] at hr
        rcases List.mem_append.1 hr with hr | hr
        · exact hold r hr
        · exact ⟨a, _, hchecked, hQ, List.mem_singleton.1 hr, Holds.of_admits hadmits⟩
    · rcases submit_transition store hticket m.host db with hsame | ⟨-, htransits, -⟩
      · refine hold r ?_
        simp only [StoreOp.exec, hsame] at hr
        exact hr
      · obtain ⟨journal, updated, -, hafter⟩ := htransits
        simp only [StoreOp.exec] at hr
        rw [hafter] at hr
        exact hold r hr

/-- An admission that is held is named when every admission of the tables is. -/
theorem Holds.named {a : Admission} {created : Int} {tables : JournalTables} (h : Holds a created tables)
    (hwritten : Written Admission.Named tables) : a.Named := by
  obtain ⟨b, created', -, hnamed, hrow, hholds⟩ := hwritten _ (JournalTables.findJournal_some h.row).1
  have hoperation : a.operation.text = b.operation.text := congrArg JournalRow.operation hrow
  have htarget : a.identity.releaseTarget.text = b.identity.releaseTarget.text :=
    Option.some.inj (congrArg JournalRow.releaseTarget hrow)
  obtain ⟨l, hl, hlink⟩ := h.link
  obtain ⟨k, hk, hlink'⟩ := hholds.link
  rw [← hoperation, hl] at hk
  obtain rfl := Option.some.inj hk
  refine ⟨by rw [htarget]; exact hnamed.1, fun old hold => ?_⟩
  have hsame : b.predecessor.map OperationId.text = some old.text := by
    rw [← hlink', hlink, Option.mem_def.1 hold]
    rfl
  obtain ⟨other, hother, htext⟩ := Option.map_eq_some_iff.1 hsame
  rw [← htext]
  exact hnamed.2 other hother

/-- The tables went on by steps of the journal, and receipts were only added. -/
def Later (s t : Database JournalTables) : Prop :=
  Relation.ReflTransGen JournalStep s.tables t.tables ∧ s.receipts <+: t.receipts

/-- What the callers of a journal rely on and keep. -/
def journalLaw : Law (Database JournalTables) :=
  Law.keeping (fun db => Written (fun _ => True) db.tables) Later (fun _ => ⟨.refl, List.prefix_rfl⟩)
    fun hst htu => ⟨hst.1.trans htu.1, hst.2.trans htu.2⟩

theorem JournalOp.writesOnly {op : StoreOp JournalTables} (h : JournalOp op) : WritesOnly (fun _ => True) op := by
  cases op with
  | submit store ticket =>
    rcases h with ⟨a, store, hchecked, hticket⟩ | htransition
    · exact .inl ⟨a, store, hchecked, trivial, hticket⟩
    · exact .inr htransition
  | draw | reconcile | reconcileOperation | read | wall | poll => exact trivial

theorem JournalOp.law {op : StoreOp JournalTables} (hop : JournalOp op) (m : Moment) (db : Database JournalTables) :
    journalLaw.rel db (op.exec m db).1 := by
  intro hwritten
  refine ⟨hwritten.exec hop.writesOnly m, .single (hop.step m db), ?_⟩
  cases op with
  | draw | reconcile | reconcileOperation | read | wall | poll => exact List.prefix_rfl
  | submit store ticket =>
    rcases hop with ⟨a, store', -, rfl⟩ | ⟨store', operation, newState, hticket⟩
    · rcases submit_admission store store' a m.host db with hsame | ⟨-, -, response, hreceipts⟩
      · simp only [StoreOp.exec, hsame]
        exact List.prefix_rfl
      · simp only [StoreOp.exec, hreceipts]
        exact List.prefix_append _ _
    · rcases submit_transition store hticket m.host db with hsame | ⟨-, -, response, hreceipts⟩
      · simp only [StoreOp.exec, hsame]
        exact List.prefix_rfl
      · simp only [StoreOp.exec, hreceipts]
        exact List.prefix_append _ _

/-! ### Reading a row back -/

/-- A read of a held row that does not fail answers. -/
theorem Holds.readable {a : Admission} (hchecked : a.Checked) {created : Int64} {m : Moment} (hm : CalmMoment m)
    {db : Database JournalTables} (h : Holds a created.toInt db.tables) :
    ∃ found, Action.readAnswer a.operation a.scope m db = .ok found := by
  obtain ⟨l, hl, hlink⟩ := h.link
  have hhead := h.head
  rw [readAnswer_calm hm, rowAnswer]
  cases hrows : readRowWhere a.operation a.scope db.tables with
  | nil =>
    rw [hrows] at hhead
    cases hhead
  | cons r rest =>
    rw [hrows] at hhead
    obtain rfl : r = a.row created.toInt := Option.some.inj hhead
    have hdecode := decodeRow_admission hchecked created hlink
    rw [← hl] at hdecode
    exact ⟨_, hdecode⟩

/-- A row that was read, compared with a pending admission. -/
def compared (pending : PendingAdmission) (reconciled : Bool) :
    Except WriterError Admitted → Except WriterError Admitted
  | .error e => .error e
  | .ok found => (requireIdentical pending found).map fun _ => { found with reconciled := reconciled }

theorem readIdentical_eq (pending : PendingAdmission) (reconciled : Bool) :
    readIdentical pending reconciled =
      (readRow pending.admission.operation pending.admission.scope >>= fun answer =>
        (pure (compared pending reconciled answer) : Call JournalTables _)) := by
  unfold readIdentical
  refine congrArg (readRow pending.admission.operation pending.admission.scope >>= ·) (funext fun answer => ?_)
  cases answer <;> rfl

/-- The answer of a read that is compared with a pending admission. -/
def identicalAnswer (pending : PendingAdmission) (reconciled : Bool) (m : Moment) (db : Database JournalTables) :
    Except WriterError Admitted :=
  compared pending reconciled (readAnswer pending.admission.operation pending.admission.scope m db)

theorem identicalAnswer_eq_ok {pending : PendingAdmission} {reconciled : Bool} {m : Moment}
    {db : Database JournalTables} {row : Admitted} :
    identicalAnswer pending reconciled m db = .ok row ↔
      ∃ found, readAnswer pending.admission.operation pending.admission.scope m db = .ok found ∧
        requireIdentical pending found = .ok () ∧ row = { found with reconciled := reconciled } := by
  unfold identicalAnswer
  cases hread : readAnswer pending.admission.operation pending.admission.scope m db with
  | error e => simp [compared]
  | ok found =>
    cases hidentical : requireIdentical pending found with
    | error e => simp [compared, hidentical, Except.map]
    | ok _ => simp [compared, hidentical, Except.map, eq_comm]

/-- The row of the admission is durable: its payload, its lossless identity and the link of its lifecycle row. -/
def Durable (a : Admission) (tables : JournalTables) : Prop :=
  ∃ r ∈ tables.journal, r.operation = a.operation.text ∧ r.scope = a.scope.text ∧ r.payload = a.payload ∧
    r.wireBits = some a.identity.wireBits.toNat ∧ r.actionKind = some a.identity.kind ∧
    r.releaseAdmitted = some a.identity.releaseAdmitted ∧ r.releaseTarget = some a.identity.releaseTarget.text ∧
    ∃ l, tables.findLifecycle r.operation = some l ∧ l.predecessor = a.predecessor.map OperationId.text

theorem requireIdentical_eq_ok {pending : PendingAdmission} {found : Admitted}
    (h : requireIdentical pending found = .ok ()) :
    found.payload = pending.admission.payload ∧ found.wireBits = some pending.admission.identity.wireBits ∧
      found.actionKind = some pending.admission.identity.kind ∧
      found.releaseAdmitted = some pending.admission.identity.releaseAdmitted ∧
      found.releaseTarget.map InstalledId.text = some pending.admission.identity.releaseTarget.text ∧
      found.predecessor.map OperationId.text = pending.admission.predecessor.map OperationId.text := by
  unfold requireIdentical at h
  by_cases hpayload : found.payload ≠ pending.admission.payload
  · rw [if_pos hpayload] at h
    exact nomatch h
  rw [if_neg hpayload] at h
  by_cases hlegacy : found.wireBits = none
  · rw [if_pos hlegacy] at h
    exact nomatch h
  rw [if_neg hlegacy] at h
  split at h
  · exact nomatch h
  rename_i hidentity
  split at h
  · exact nomatch h
  rename_i hlink
  simp only [ne_eq, not_or, not_not] at hpayload hidentity hlink
  exact ⟨hpayload, hidentity.1, hidentity.2.1, hidentity.2.2.1, hidentity.2.2.2, hlink⟩

/-- A held admission with the content of another one makes that one durable. -/
theorem Holds.durable {a b : Admission} {created : Int} {tables : JournalTables} (h : Holds a created tables)
    (hoperation : a.operation = b.operation) (hscope : a.scope = b.scope) (hpayload : a.payload = b.payload)
    (hbits : a.identity.wireBits = b.identity.wireBits) (hkind : a.identity.kind = b.identity.kind)
    (hrelease : a.identity.releaseAdmitted = b.identity.releaseAdmitted)
    (htarget : a.identity.releaseTarget.text = b.identity.releaseTarget.text)
    (hlink : a.predecessor.map OperationId.text = b.predecessor.map OperationId.text) : Durable b tables := by
  obtain ⟨l, hl, hpredecessor⟩ := h.link
  refine ⟨a.row created, (JournalTables.findJournal_some h.row).1, ?_⟩
  simp only [Admission.row, hoperation, hscope, hpayload, hbits, hkind, hrelease, htarget, true_and]
  exact ⟨l, hoperation ▸ hl, hpredecessor.trans hlink⟩

theorem identicalAnswer_held {pending : PendingAdmission} (hchecked : pending.admission.Checked)
    (hnamed : pending.admission.Named) {reconciled : Bool} {m : Moment} (hm : CalmMoment m) {created : Int64}
    {db : Database JournalTables} (h : Holds pending.admission created.toInt db.tables) :
    ∃ row, identicalAnswer pending reconciled m db = .ok row := by
  obtain ⟨found, hread⟩ := h.readable hchecked hm
  obtain ⟨lifecycle, rfl⟩ := h.readAnswer hchecked hnamed hread
  exact ⟨_, identicalAnswer_eq_ok.2 ⟨_, hread, requireIdentical_admission pending created.toInt lifecycle, rfl⟩⟩

/-- A read row that is identical to the pending admission is durable from then on. -/
theorem identicalAnswer_durable {pending : PendingAdmission} {reconciled : Bool} {m : Moment}
    {db later : Database JournalTables} (hwritten : Written (fun _ => True) db.tables)
    (hsteps : Relation.ReflTransGen JournalStep db.tables later.tables) (hnamed : Written Admission.Named later.tables)
    {row : Admitted} (h : identicalAnswer pending reconciled m db = .ok row) :
    Durable pending.admission later.tables ∧ row.operation = pending.admission.operation := by
  obtain ⟨found, hread, hidentical, rfl⟩ := identicalAnswer_eq_ok.1 h
  obtain ⟨r, hr, hoperation, hscope, -⟩ := readAnswer_eq_ok hread
  obtain ⟨a, created, hchecked, -, rfl, hholds⟩ := hwritten r hr
  have hop : a.operation = pending.admission.operation := OperationId.ext_text hoperation
  have hsc : a.scope = pending.admission.scope := TrustedScope.ext_text hscope
  have hlater := hholds.later hsteps
  rw [← hop, ← hsc] at hread
  obtain ⟨lifecycle, rfl⟩ := hholds.readAnswer hchecked (hlater.named hnamed) hread
  obtain ⟨hpayload, hbits, hkind, hrelease, htarget, hlink⟩ := requireIdentical_eq_ok hidentical
  exact ⟨hlater.durable hop hsc hpayload (Option.some.inj hbits) (Option.some.inj hkind) (Option.some.inj hrelease)
    (Option.some.inj htarget) hlink, hop⟩

/-! ### What a call did -/

abbrev JournalAct := Act (StoreOp JournalTables) Moment (Database JournalTables)

/-- The operation left the store as it met it. -/
def Idle (x : JournalAct) : Prop := (x.op.exec x.env x.before).1 = x.before

/-- The call committed nothing. -/
def NoCommit (acts : List JournalAct) : Prop := ∀ x ∈ acts, Idle x

theorem noCommit_nil : NoCommit [] := fun _ hx => nomatch hx

theorem noCommit_singleton {x : JournalAct} (h : Idle x) : NoCommit [x] := by
  intro y hy
  rwa [List.mem_singleton.1 hy]

theorem NoCommit.append {acts more : List JournalAct} (h : NoCommit acts) (hmore : NoCommit more) :
    NoCommit (acts ++ more) := by
  intro x hx
  rcases List.mem_append.1 hx with hx | hx
  · exact h x hx
  · exact hmore x hx

/-- No read of the call that comes after a commit of its own fails. -/
def CalmAfterCommit (acts : List JournalAct) : Prop :=
  ∀ front write back, acts = front ++ write :: back → ¬ Idle write → ∀ read ∈ back, CalmMoment read.env

theorem CalmAfterCommit.last {acts more : List JournalAct} {read : JournalAct}
    (h : CalmAfterCommit (acts ++ read :: more)) (hcommit : ¬ NoCommit acts) : CalmMoment read.env := by
  unfold NoCommit at hcommit
  push Not at hcommit
  obtain ⟨write, hwrite, hidle⟩ := hcommit
  obtain ⟨front, back, rfl⟩ := List.append_of_mem hwrite
  refine h front write (back ++ read :: more) ?_ hidle read (by simp)
  rw [List.append_assoc, List.cons_append]

theorem CalmAfterCommit.of_append {acts more : List JournalAct} (h : CalmAfterCommit (acts ++ more)) :
    CalmAfterCommit more := by
  rintro front write back rfl hwrite
  exact h (acts ++ front) write back (by rw [List.append_assoc]) hwrite

/-- The outcome is open: the caller has to reconcile the identity. -/
def WriterError.IsUnknown : WriterError → Prop
  | .unknown _ _ => True
  | _ => False

/-- Where a call issues its operations: every ticket it submits meets `P`. -/
def Submits (P : PreparedMutation JournalTables → Prop) (op : StoreOp JournalTables) (_ : Moment)
    (_ : Database JournalTables) : Prop :=
  ∀ store ticket, op = .submit store ticket → P ticket

theorem idle_read (query : Query JournalTables) (m : Moment) (db : Database JournalTables) : Idle ⟨.read query, m, db⟩ :=
  rfl

section Leads

variable {G : StoreOp JournalTables → Moment → Database JournalTables → Prop} {s : Database JournalTables}

/-- `Leads` of a journal call, in every environment. -/
abbrev JournalLeads {α : Type} (G : StoreOp JournalTables → Moment → Database JournalTables → Prop)
    (R : List JournalAct → Database JournalTables → α → Prop) (s : Database JournalTables) (p : Call JournalTables α) :
    Prop :=
  Leads StoreOp.exec journalLaw (fun _ => True) G R s p

theorem leads_read (hG : ∀ query m t, G (.read query) m t) (query : Query JournalTables)
    {R : List JournalAct → Database JournalTables → Except StorageError Rows → Prop}
    (h : ∀ t m, journalLaw.rel s t → ∀ u, journalLaw.rel t u → R [⟨.read query, m, t⟩] u (execScript m query t)) :
    JournalLeads G R s (Call.read query) :=
  leads_issue (StoreOp.read query) fun t hst m _ => ⟨hG query m t, journalLaw.refl t, h t m hst⟩

/-- A read of a row is one operation: the older shapes are never tried. -/
theorem leads_readRow (hG : ∀ query m t, G (.read query) m t) (operation : OperationId) (scope : TrustedScope)
    {R : List JournalAct → Database JournalTables → Except WriterError Admitted → Prop}
    (h : ∀ t m, journalLaw.rel s t → ∀ u, journalLaw.rel t u →
      R [⟨.read (readRowSql operation scope), m, t⟩] u (readAnswer operation scope m t)) :
    JournalLeads G R s (readRow operation scope) := by
  intro t hst m _
  refine ⟨hG _ m t, journalLaw.refl t, ?_⟩
  have hanswer := h t m hst
  unfold readAnswer at hanswer
  simp only [StoreOp.exec]
  cases hexec : execScript m (readRowSql operation scope) t with
  | ok rows =>
    rw [hexec] at hanswer
    exact leads_done hanswer
  | error e =>
    rw [hexec] at hanswer
    simp only [Prog.bind, readRowSql_schema hexec, Bool.false_eq_true, if_false]
    exact leads_done hanswer

theorem leads_readIdentical (hG : ∀ query m t, G (.read query) m t) (pending : PendingAdmission) (reconciled : Bool)
    {R : List JournalAct → Database JournalTables → Except WriterError Admitted → Prop}
    (h : ∀ t m, journalLaw.rel s t → ∀ u, journalLaw.rel t u →
      R [⟨.read (readRowSql pending.admission.operation pending.admission.scope), m, t⟩] u
        (identicalAnswer pending reconciled m t)) :
    JournalLeads G R s (readIdentical pending reconciled) := by
  rw [readIdentical_eq]
  refine Leads.bind (leads_readRow hG _ _ (R := fun acts u answer => R acts u (compared pending reconciled answer)) h) ?_
  intro acts u answer _ hread
  refine leads_done fun v huv => ?_
  rw [List.append_nil]
  exact hread v huv

/-- What became of the ticket of an admission. -/
structure Ticketed (a : Admission) (acts : List JournalAct) (t : Database JournalTables) (out : MutationOutcome) :
    Prop where
  refused : out.Refused → NoCommit acts
  receipted : ∀ operation rows, out = .committed operation rows → findReceipt t.receipts a.operation.text ≠ none
  held : NoCommit acts ∨ ∃ created : Int64, Holds a created.toInt t.tables

theorem leads_ticket {a : Admission} (hchecked : a.Checked) (hs : Written (fun _ => True) s.tables)
    (store store' : SqliteStore) :
    JournalLeads (Submits (· = a.ticket store')) (fun acts t out => Ticketed a acts t out) s
      (Call.submit store (a.ticket store')) := by
  refine leads_issue (StoreOp.submit store (a.ticket store')) fun t hst m _ => ?_
  have hop : JournalOp (.submit store (a.ticket store')) := .inl ⟨a, store', hchecked, rfl⟩
  have hlaw := hop.law m t
  refine ⟨?_, hlaw, fun u htu => ?_⟩
  · rintro other ticket hsubmit
    cases hsubmit
    rfl
  have hnext := (hlaw (hst hs).1).1
  obtain ⟨-, hsteps, hgrown⟩ := htu hnext
  constructor
  · intro hrefused
    have hshape : (a.ticket store').shape ≠ .change := by simp [Admission.ticket]
    exact noCommit_singleton (submit_refused hshape hrefused)
  · intro operation rows hcommitted
    obtain ⟨receipt, hreceipt, hoperation, -⟩ := submit_committed hcommitted
    rw [ne_eq, findReceipt_none]
    exact fun habsent => habsent receipt (hgrown.subset hreceipt) hoperation
  · rcases submit_admission store store' a m.host t with hsame | ⟨-, hadmits, -⟩
    · exact .inl (noCommit_singleton hsame)
    · exact .inr ⟨_, (Holds.of_admits hadmits).later hsteps⟩

/-- One read, and an answer made from its rows. -/
theorem leads_asked {α : Type} (hG : ∀ query m t, G (.read query) m t) (query : Query JournalTables)
    {f : Except StorageError Rows → Call JournalTables α} {P : α → Prop} (hf : ∀ rows, ∃ a, f rows = pure a ∧ P a) :
    JournalLeads G (fun acts _ a => NoCommit acts ∧ P a) s (Call.read query >>= f) := by
  refine Leads.bind (leads_read hG query (R := fun acts _ _ => NoCommit acts) fun t m _ _ _ =>
    noCommit_singleton (idle_read query m t)) fun acts t rows _ hacts => ?_
  obtain ⟨a, ha, hP⟩ := hf rows
  rw [ha]
  refine leads_done fun u hu => ?_
  rw [List.append_nil]
  exact ⟨hacts u hu, hP⟩

/-- A refused ticket is reported, and nothing is committed on the way. -/
theorem leads_refused (hG : ∀ query m t, G (.read query) m t) (a : Admission) (error : StorageError) :
    JournalLeads G (fun acts _ answer => NoCommit acts ∧ ∃ e, answer = .error e) s (admissionRefused a error) := by
  have hreport : ∀ e : WriterError, JournalLeads G (fun acts _ answer => NoCommit acts ∧ ∃ e, answer = .error e) s
      (pure (.error e) : Call JournalTables (Except WriterError Admitted)) :=
    fun e => leads_done fun _ _ => ⟨noCommit_nil, e, rfl⟩
  unfold admissionRefused
  split
  · split
    · unfold durableCurrentGeneration
      rw [Prog.bind_bind]
      refine leads_asked hG _ fun rows => ?_
      cases rows with
      | error e => exact ⟨_, rfl, _, rfl⟩
      | ok rows =>
        cases hgeneration : decodeGeneration rows with
        | error e => exact ⟨.error e, by simp only [hgeneration]; rfl, _, rfl⟩
        | ok current => exact ⟨.error (.staleGeneration a.expectedGeneration current), by simp only [hgeneration]; rfl, _, rfl⟩
    · split
      · unfold rateUsed
        rw [Prog.bind_bind]
        refine leads_asked hG _ fun rows => ?_
        cases rows with
        | error e => exact ⟨_, rfl, _, rfl⟩
        | ok rows =>
          cases hused : decodeRateUsed rows with
          | error e => exact ⟨.error (.rateExceeded ownedRateMaxPerHour ownedRateMaxPerHour), by simp only [hused]; rfl, _, rfl⟩
          | ok used => exact ⟨.error (.rateExceeded used ownedRateMaxPerHour), by simp only [hused]; rfl, _, rfl⟩
      · exact hreport _
  · exact hreport _

theorem journalLaw_written (hst : journalLaw.rel s t) (hs : Written (fun _ => True) s.tables) :
    Written (fun _ => True) t.tables := (hst hs).1

/-- What the read behind a commit answers: a row that is durable, and an error only where it failed. -/
structure ReadBack (a : Admission) (s : Database JournalTables) (acts : List JournalAct) (t : Database JournalTables)
    (answer : Except WriterError Admitted) : Prop where
  single : ∃ x, acts = [x] ∧ Idle x ∧ (CalmMoment x.env → Written Admission.Named t.tables →
    (∃ created : Int64, Holds a created.toInt s.tables) → ∃ row, answer = .ok row)
  durable : ∀ row, answer = .ok row → Written Admission.Named t.tables →
    Durable a t.tables ∧ row.operation = a.operation

theorem leads_readBack (hG : ∀ query m t, G (.read query) m t) (hs : Written (fun _ => True) s.tables)
    (pending : PendingAdmission) (hchecked : pending.admission.Checked) (reconciled : Bool) :
    JournalLeads G (fun acts t answer => ReadBack pending.admission s acts t answer) s
      (readIdentical pending reconciled) := by
  refine leads_readIdentical hG pending reconciled fun t m hst u htu => ?_
  obtain ⟨ht, hsteps, -⟩ := hst hs
  obtain ⟨hu, hmore, -⟩ := htu ht
  constructor
  · refine ⟨_, rfl, idle_read _ m t, fun hcalm hnamed hheld => ?_⟩
    obtain ⟨created, hholds⟩ := hheld
    have hlater := hholds.later hsteps
    exact identicalAnswer_held hchecked ((hlater.later hmore).named hnamed) hcalm hlater
  · exact fun row hrow hnamed => identicalAnswer_durable ht hmore hnamed hrow

/-- What a reconciliation of the ticket of an admission answered. -/
structure Reconciled (a : Admission) (s : Database JournalTables) (acts : List JournalAct) (t : Database JournalTables)
    (answer : Except WriterError (Option Admitted)) : Prop where
  idle : NoCommit acts
  absent : answer = .ok none → findReceipt s.receipts a.operation.text = none
  durable : ∀ row, answer = .ok (some row) → Written Admission.Named t.tables →
    Durable a t.tables ∧ row.operation = a.operation

theorem reconciled_error {a : Admission} {acts : List JournalAct} {t : Database JournalTables} {e : WriterError}
    (h : NoCommit acts) : Reconciled a s acts t (.error e) where
  idle := h
  absent hnone := nomatch hnone
  durable _ hrow := nomatch hrow

theorem leads_reconciled (hG : ∀ query m t, G (.read query) m t) (hreconcile : ∀ store ticket m t, G (.reconcile store ticket) m t)
    (hs : Written (fun _ => True) s.tables) (store store' : SqliteStore) {pending : PendingAdmission}
    (hchecked : pending.admission.Checked) (hticket : pending.ticket = pending.admission.ticket store') :
    JournalLeads G (fun acts t answer => Reconciled pending.admission s acts t answer) s
      (tryReconcileTicket store pending) := by
  unfold tryReconcileTicket
  have hfirst : JournalLeads G (fun acts _ out => NoCommit acts ∧ ∀ operation e, out = .notCommitted operation e →
      findReceipt s.receipts pending.admission.operation.text = none) s (Call.reconcile store pending.ticket) := by
    refine leads_issue (StoreOp.reconcile store pending.ticket) fun t hst m _ => ?_
    refine ⟨hreconcile _ _ m t, journalLaw.refl t, fun u _ => ⟨noCommit_singleton rfl, fun operation e hout => ?_⟩⟩
    obtain ⟨-, -, hgrown⟩ := hst hs
    have hnone := reconcile_notCommitted (by rw [hticket]; simp [Admission.ticket]) hout
    rw [findReceipt_none] at hnone ⊢
    intro receipt hreceipt
    have hfresh := hnone receipt (hgrown.subset hreceipt)
    rwa [hticket] at hfresh
  refine Leads.bind hfirst fun acts t out hst hout => ?_
  have hacts : NoCommit acts := (hout t (journalLaw.refl t)).1
  cases out with
  | committed operation rows =>
    refine Leads.bind (leads_readBack hG (journalLaw_written hst hs) pending hchecked true) fun more u answer hu hread => ?_
    refine leads_done fun v hv => ?_
    rw [List.append_nil]
    obtain ⟨⟨x, hx, hidle, -⟩, hdurable⟩ := hread v hv
    refine ⟨hacts.append (hx ▸ noCommit_singleton hidle), fun hnone => ?_, fun row hrow hnamed => ?_⟩
    · cases answer <;> cases hnone
    · cases answer with
      | error e => cases hrow
      | ok found =>
        cases hrow
        exact hdurable _ rfl hnamed
  | notCommitted operation e =>
    refine leads_done fun u hu => ?_
    rw [List.append_nil]
    exact ⟨hacts, fun _ => (hout u hu).2 _ _ rfl, fun row hrow => by cases hrow⟩
  | conflict operation detail =>
    refine leads_done fun u hu => ?_
    rw [List.append_nil]
    exact reconciled_error hacts
  | unknown operation detail =>
    refine leads_done fun u hu => ?_
    rw [List.append_nil]
    exact reconciled_error hacts

/-- What a ticket that was submitted is answered with, after the operations of its submit. -/
structure Answered (a : Admission) (acts : List JournalAct) (t : Database JournalTables)
    (answer : Except WriterError Admitted) : Prop where
  durable : ∀ row, answer = .ok row → Durable a t.tables ∧ row.operation = a.operation ∧
    findReceipt t.receipts a.operation.text ≠ none
  failed : ∀ e, answer = .error e → ¬ e.IsUnknown → CalmAfterCommit acts → NoCommit acts

theorem leads_answered (hG : ∀ query m t, G (.read query) m t) (hs : Written (fun _ => True) s.tables)
    {pending : PendingAdmission} (hchecked : pending.admission.Checked) {acts : List JournalAct}
    {out : MutationOutcome} (hout : ∀ t, journalLaw.rel s t → Ticketed pending.admission acts t out) :
    JournalLeads G (fun more t answer => Written Admission.Named t.tables →
      Answered pending.admission (acts ++ more) t answer) s (admissionAnswer pending out) := by
  have hhere := hout s (journalLaw.refl s)
  cases out with
  | committed operation rows =>
    refine (leads_readBack hG hs pending hchecked false).mono fun more t answer hst hread hnamed => ?_
    obtain ⟨⟨x, rfl, hidle, hfails⟩, hdurable⟩ := hread
    refine ⟨fun row hrow => ?_, fun e he _ hcalm => ?_⟩
    · obtain ⟨hrow, hoperation⟩ := hdurable row hrow hnamed
      exact ⟨hrow, hoperation, (hout t hst).receipted _ _ rfl⟩
    · by_cases hacts : NoCommit acts
      · exact hacts.append (noCommit_singleton hidle)
      · -- the commit is the call's own, so its row is held and a read that does not fail answers with it
        obtain ⟨row, hrow⟩ := hfails (hcalm.last hacts) hnamed (hhere.held.resolve_left hacts)
        rw [hrow] at he
        exact nomatch he
  | notCommitted operation error =>
    refine (leads_refused hG pending.admission error).mono fun more t answer _ hmore _ => ?_
    obtain ⟨hidle, e, rfl⟩ := hmore
    exact ⟨(fun _ hrow => nomatch hrow), fun _ _ _ _ => (hhere.refused trivial).append hidle⟩
  | conflict operation detail =>
    refine leads_done fun t _ _ => ⟨(fun _ hrow => nomatch hrow), fun _ _ _ _ => ?_⟩
    exact (hhere.refused trivial).append noCommit_nil
  | unknown operation detail =>
    refine leads_done fun t _ _ => ⟨(fun _ hrow => nomatch hrow), fun e he hknown _ => ?_⟩
    cases he
    exact absurd trivial hknown

/-- What one submit answers and announces, from the store it began in to a later one. -/
structure SubmitHonest (a : Admission) (s : Database JournalTables) (acts : List JournalAct)
    (t : Database JournalTables) (out : Except WriterError Admitted × Option Admitted) : Prop where
  durable : ∀ row, out.1 = .ok row → Durable a t.tables ∧ row.operation = a.operation
  announced : ∀ row, out.2 = some row → out.1 = .ok row ∧ findReceipt s.receipts a.operation.text = none ∧
    findReceipt t.receipts a.operation.text ≠ none
  failed : ∀ e, out.1 = .error e → ¬ e.IsUnknown → CalmAfterCommit acts → NoCommit acts

theorem leads_submit {pending : PendingAdmission} (hchecked : pending.admission.Checked)
    {store' : SqliteStore} (hticket : pending.ticket = pending.admission.ticket store')
    (hs : Written (fun _ => True) s.tables) (store : SqliteStore) :
    JournalLeads (Submits (· = pending.ticket)) (fun acts t out => Written Admission.Named t.tables →
      SubmitHonest pending.admission s acts t out) s (submitHandoff store pending) := by
  have hG : ∀ query m t, Submits (· = pending.ticket) (.read query) m t := fun _ _ _ _ _ h => nomatch h
  have hreconcile : ∀ store ticket m t, Submits (· = pending.ticket) (.reconcile store ticket) m t :=
    fun _ _ _ _ _ _ h => nomatch h
  unfold submitHandoff
  refine Leads.bind (leads_reconciled hG hreconcile hs store store' hchecked hticket) fun acts t answer hst hanswer => ?_
  have ht := journalLaw_written hst hs
  have hidle : NoCommit acts := (hanswer t (journalLaw.refl t)).idle
  rcases answer with e | _ | committed
  · refine leads_done fun u _ _ => ⟨(fun _ hrow => nomatch hrow), (fun _ hrow => nomatch hrow), fun _ _ _ _ => ?_⟩
    exact hidle.append noCommit_nil
  · have habsent := (hanswer t (journalLaw.refl t)).absent rfl
    have hown := leads_ticket hchecked ht store store'
    rw [← hticket] at hown
    refine Leads.bind hown fun ticketed u out htu hout => ?_
    refine Leads.bind (leads_answered hG (journalLaw_written htu ht) hchecked hout) fun more v row _ hrow => ?_
    have hlast : ∀ w, journalLaw.rel v w → Written Admission.Named w.tables →
        Answered pending.admission (ticketed ++ more) w row := hrow
    cases row with
    | error e =>
      refine leads_done fun w hw hnamed => ⟨(fun _ hrow => nomatch hrow), (fun _ hrow => nomatch hrow), ?_⟩
      rintro e ⟨⟩ hknown hcalm
      rw [List.append_nil] at hcalm ⊢
      exact hidle.append ((hlast w hw hnamed).failed _ rfl hknown hcalm.of_append)
    | ok admitted =>
      refine leads_done fun w hw hnamed => ?_
      obtain ⟨hdurable, hoperation, hreceipt⟩ := (hlast w hw hnamed).durable _ rfl
      refine ⟨?_, ?_, (fun _ he => nomatch he)⟩
      · rintro row ⟨⟩
        exact ⟨hdurable, hoperation⟩
      · rintro row ⟨⟩
        exact ⟨rfl, habsent, hreceipt⟩
  · refine leads_done fun u hu hnamed => ⟨?_, (fun _ hrow => nomatch hrow), (fun _ he => nomatch he)⟩
    rintro row ⟨⟩
    exact (hanswer u hu).durable _ rfl hnamed

/-- What one transition answers: an error that is not `unknown` only where it committed nothing. -/
def TransitionHonest (acts : List JournalAct) (answer : Except WriterError Admitted) : Prop :=
  ∀ e, answer = .error e → ¬ e.IsUnknown → CalmAfterCommit acts → NoCommit acts

/-- A row of the operation in the scope is held. -/
def Readable (operation : OperationId) (scope : TrustedScope) (tables : JournalTables) : Prop :=
  ∃ (a : Admission) (created : Int64), a.Checked ∧ a.operation = operation ∧ a.scope = scope ∧
    Holds a created.toInt tables

theorem readable_of_read {operation : OperationId} {scope : TrustedScope} {m : Moment} {db : Database JournalTables}
    (hdb : Written (fun _ => True) db.tables) {found : Admitted} (h : readAnswer operation scope m db = .ok found) :
    Readable operation scope db.tables := by
  obtain ⟨r, hr, hoperation, hscope, -⟩ := readAnswer_eq_ok h
  obtain ⟨a, created, hchecked, -, rfl, hholds⟩ := hdb r hr
  exact ⟨a, created, hchecked, OperationId.ext_text hoperation, TrustedScope.ext_text hscope, hholds⟩

theorem Readable.later {operation : OperationId} {scope : TrustedScope} {tables later : JournalTables}
    (h : Readable operation scope tables) (hsteps : Relation.ReflTransGen JournalStep tables later) :
    Readable operation scope later := by
  obtain ⟨a, created, hchecked, hoperation, hscope, hholds⟩ := h
  exact ⟨a, created, hchecked, hoperation, hscope, hholds.later hsteps⟩

theorem Readable.answers {operation : OperationId} {scope : TrustedScope} {m : Moment} {db : Database JournalTables}
    (h : Readable operation scope db.tables) (hm : CalmMoment m) : ∃ found, readAnswer operation scope m db = .ok found := by
  obtain ⟨a, created, hchecked, rfl, rfl, hholds⟩ := h
  exact hholds.readable hchecked hm

theorem leads_transitionTicket {store store' : SqliteStore} {operation : OperationId} {newState : LifecycleState}
    {ticket : PreparedMutation JournalTables} (hticket : IsTransitionTicket store' operation newState ticket) :
    JournalLeads (Submits (IsTransitionTicket store' operation newState))
      (fun acts _ out => out.Refused → NoCommit acts) s (Call.submit store ticket) := by
  refine leads_issue (StoreOp.submit store ticket) fun t hst m _ => ?_
  have hop : JournalOp (.submit store ticket) := .inr ⟨store', operation, newState, hticket⟩
  refine ⟨?_, hop.law m t, fun u _ hrefused => ?_⟩
  · rintro other ticket' hsubmit
    cases hsubmit
    exact hticket
  · exact noCommit_singleton (submit_refused (by rw [hticket.shape_eq]; simp) hrefused)

theorem leads_writeTransition {operation : OperationId} {scope : TrustedScope}
    (hs : Written (fun _ => True) s.tables) (hheld : Readable operation scope s.tables) (store : SqliteStore)
    (newState : LifecycleState) :
    JournalLeads (Submits (IsTransitionTicket store operation newState)) (fun acts _ answer => TransitionHonest acts answer)
      s (writeTransition store operation scope newState) := by
  unfold writeTransition
  have hdraw : JournalLeads (Submits (IsTransitionTicket store operation newState)) (fun acts _ _ => NoCommit acts) s
      (Call.draw : Call JournalTables String) :=
    leads_issue StoreOp.draw fun t _ m _ =>
      ⟨(fun _ _ h => nomatch h), journalLaw.refl t, fun u _ => noCommit_singleton (x := ⟨.draw, m, t⟩) rfl⟩
  refine Leads.bind hdraw fun drawn t id hst hdrawn => ?_
  have hidle : NoCommit drawn := hdrawn t (journalLaw.refl t)
  split
  · exact leads_done fun u _ _ _ _ _ => hidle.append noCommit_nil
  · rename_i ticket hprepared
    refine Leads.bind (leads_transitionTicket (isTransitionTicket_of_prepare hprepared)) fun acts u out htu hout => ?_
    have hrefused : out.Refused → NoCommit acts := hout u (journalLaw.refl u)
    cases out with
    | committed _ rows =>
      refine leads_readRow (fun _ _ _ _ _ h => nomatch h) operation scope fun v m huv w hvw e he hknown hcalm => ?_
      rw [← List.append_assoc] at hcalm ⊢
      by_cases hacts : NoCommit (drawn ++ acts)
      · exact hacts.append (noCommit_singleton (idle_read _ m v))
      · obtain ⟨ht, htsteps, -⟩ := hst hs
        obtain ⟨hu, husteps, -⟩ := htu ht
        obtain ⟨-, hvsteps, -⟩ := huv hu
        obtain ⟨found, hfound⟩ :=
          (((hheld.later htsteps).later husteps).later hvsteps).answers (m := m) (hcalm.last hacts)
        rw [hfound] at he
        exact nomatch he
    | notCommitted _ error =>
      refine leads_done fun v _ _ _ _ _ => ?_
      exact hidle.append ((hrefused trivial).append noCommit_nil)
    | conflict _ detail =>
      refine leads_done fun v _ _ _ _ _ => ?_
      exact hidle.append ((hrefused trivial).append noCommit_nil)
    | unknown other detail =>
      refine leads_done fun v _ e he hknown _ => ?_
      cases he
      exact absurd trivial hknown

theorem leads_transition (hs : Written (fun _ => True) s.tables) (store : SqliteStore) (operation : OperationId)
    (scope : TrustedScope) (newState : LifecycleState) :
    JournalLeads (Submits (IsTransitionTicket store operation newState)) (fun acts _ answer => TransitionHonest acts answer)
      s (transition store operation scope newState) := by
  unfold transition
  refine Leads.bind (leads_readRow (R := fun acts t answer => NoCommit acts ∧
    ∀ found, answer = .ok found → Readable operation scope t.tables) (fun _ _ _ _ _ h => nomatch h) operation scope
      fun t m hst u htu => ?_) fun acts t answer hst hanswer => ?_
  · refine ⟨noCommit_singleton (idle_read _ m t), fun found hfound => ?_⟩
    obtain ⟨ht, -, -⟩ := hst hs
    obtain ⟨-, hsteps, -⟩ := htu ht
    exact (readable_of_read ht hfound).later hsteps
  · obtain ⟨hidle, hheld⟩ := hanswer t (journalLaw.refl t)
    cases answer with
    | error e => exact leads_done fun u _ _ _ _ _ => hidle.append noCommit_nil
    | ok current =>
      simp only
      split
      · exact leads_done fun u _ _ _ _ _ => hidle.append noCommit_nil
      split
      · exact leads_done fun u _ e he => nomatch he
      · refine (leads_writeTransition (journalLaw_written hst hs) (hheld current rfl) store newState).mono ?_
        intro more u answer _ hmore e he hknown hcalm
        exact hidle.append (hmore e he hknown hcalm.of_append)

end Leads

end Verdant.Action
