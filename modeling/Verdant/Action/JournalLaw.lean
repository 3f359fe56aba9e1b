import Verdant.Action.JournalSteps

/-!
# The journal tables along a run

`JournalStep` says everything one operation of a journal call can do to the tables: nothing, one admission or one
transition.  Two laws hold along every run from empty tables: the generations of a target are `1..n` in the order of
its rows with `n` the current one (`TargetLaw`), and every journal row has exactly one lifecycle row (`RowLaw`).
-/

namespace Verdant.Action

open Storage

/-! ### Prepared admissions -/

/-- What the checks before a ticket leave of an admission. -/
structure Admission.Checked (a : Admission) : Prop where
  succ : a.targetGeneration.toNat = a.expectedGeneration.toNat + 1
  deadline : a.deadlineSecs = 5
  payload : a.payload ≠ ""
  actor : checkActor a.actor = .ok ()
  kind : a.identity.kind = .release ↔ a.identity.releaseAdmitted = true

theorem checkPreview_deadline {preview : Preview} (h : checkPreview preview = .ok ()) :
    preview.timing.deadlineSecs = deadlineSecs := by
  unfold checkPreview at h
  simp only [Result.ite_error_eq_ok, not_not] at h
  exact h.2.2.2.2.1

/-- The values of a request that passed its checks. -/
theorem AdmissionRequest.check_eq_ok {store : SqliteStore} {request : AdmissionRequest} {a : Admission}
    (h : request.check store = .ok a) :
    a.Checked ∧ request.preview.target.scope = request.scope ∧
      ∃ targetGeneration, checkedSucc request.expectedGeneration = some targetGeneration ∧
        a = request.admission targetGeneration := by
  unfold AdmissionRequest.check at h
  obtain ⟨⟨⟩, -, h⟩ := Result.bind_eq_ok.1 h
  obtain ⟨⟨⟩, hactor, h⟩ := Result.bind_eq_ok.1 h
  obtain ⟨⟨⟩, hpreview, h⟩ := Result.bind_eq_ok.1 h
  split at h
  · exact nomatch h
  rename_i hscope
  split at h
  · exact nomatch h
  rename_i targetGeneration hsucc
  simp only at h
  split at h
  · exact nomatch h
  rename_i hpayload
  cases h
  rw [not_or] at hpayload
  refine ⟨⟨toNat_of_checkedSucc hsucc, checkPreview_deadline hpreview, hpayload.1, hactor, ?_⟩, not_not.1 hscope,
    targetGeneration, hsucc, rfl⟩
  simp only [AdmissionRequest.admission, Identity.fromPreview, ActionKind.fromPreview]
  cases request.preview.releaseAdmitted <;> simp

/-! ### One operation -/

/-- The operations a journal call issues: every ticket it submits is an admission's or a transition's. -/
def JournalOp : StoreOp JournalTables → Prop
  | .submit _ ticket =>
    (∃ (a : Admission) (store : SqliteStore), a.Checked ∧ ticket = a.ticket store) ∨
      ∃ (store : SqliteStore) (operation : OperationId) (newState : LifecycleState),
        IsTransitionTicket store operation newState ticket
  | _ => True

/-- An operation some journal call issued, with its moment and the store it met. -/
abbrev IssuedOp := Prog.Pool.Issued (StoreOp JournalTables) Moment (Database JournalTables)

/-- The store after the operation. -/
def leftBy (x : IssuedOp) : Database JournalTables := (x.op.exec x.env x.before).1

/-- What one operation did to the tables. -/
inductive JournalStep (before : JournalTables) : JournalTables → Prop where
  | same : JournalStep before before
  | admitted (a : Admission) (guardNow created : Int) (after : JournalTables) (hchecked : a.Checked)
      (h : Admits a guardNow created before after) : JournalStep before after
  | moved (operation : OperationId) (newState : LifecycleState) (after : JournalTables)
      (h : Transits operation newState before after) : JournalStep before after

theorem JournalOp.step {op : StoreOp JournalTables} (h : JournalOp op) (m : Moment) (db : Database JournalTables) :
    JournalStep db.tables (op.exec m db).1.tables := by
  cases op with
  | submit store ticket =>
    rcases h with ⟨a, store', hchecked, rfl⟩ | ⟨store', operation, newState, hticket⟩
    · rcases submit_admission store store' a m.host db with hsame | ⟨-, hadmits, -⟩
      · simp only [StoreOp.exec, hsame]
        exact .same
      · exact .admitted a _ _ _ hchecked hadmits
    · rcases submit_transition store hticket m.host db with hsame | ⟨-, htransits, -⟩
      · simp only [StoreOp.exec, hsame]
        exact .same
      · exact .moved operation newState _ htransits
  | draw | reconcile | reconcileOperation | read | wall | poll => exact .same

/-! ### The laws -/

/-- The generations of a target, in the order of its rows. -/
def JournalTables.generations (tables : JournalTables) (scope equipment : String) : List Nat :=
  (tables.journal.filter (JournalRow.onTarget scope equipment)).map JournalRow.targetGeneration

def JournalTables.targetRows (tables : JournalTables) (scope equipment : String) : List TargetRow :=
  tables.targets.filter fun r => r.scope = scope ∧ r.equipment = equipment

/-- The generations of a target are `1..n`, and `n` is its current one; without a row there is none. -/
def TargetLaw (tables : JournalTables) (scope equipment : String) : Prop :=
  ∃ n, tables.generations scope equipment = List.range' 1 n ∧
    tables.targetRows scope equipment = if n = 0 then [] else [⟨scope, equipment, n⟩]

structure RowLaw (tables : JournalTables) : Prop where
  expected : ∀ r ∈ tables.journal, r.targetGeneration = r.expectedGeneration + 1
  operations : (tables.journal.map JournalRow.operation).Nodup
  lifecycle : tables.lifecycle.map LifecycleRow.operation = tables.journal.map JournalRow.operation

theorem upsertLifecycleRow_operations {row : LifecycleRow} {lifecycle : List LifecycleRow}
    (h : row.operation ∈ lifecycle.map LifecycleRow.operation) :
    (upsertLifecycleRow row lifecycle).map LifecycleRow.operation = lifecycle.map LifecycleRow.operation := by
  have hany : (lifecycle.any fun r => r.operation = row.operation) = true := by
    obtain ⟨r, hr, hop⟩ := List.mem_map.1 h
    exact List.any_eq_true.2 ⟨r, hr, by simpa using hop⟩
  unfold upsertLifecycleRow
  rw [if_pos hany, List.map_map]
  refine List.map_congr_left fun r _ => ?_
  simp only [Function.comp_apply]
  split <;> rfl

theorem JournalTables.findJournal_eq_none {tables : JournalTables} {operation : String} :
    tables.findJournal operation = none ↔ operation ∉ tables.journal.map JournalRow.operation := by
  simp only [findJournal, List.find?_eq_none, decide_eq_true_eq, List.mem_map, not_exists, not_and]

theorem JournalTables.findJournal_some {tables : JournalTables} {operation : String} {r : JournalRow}
    (h : tables.findJournal operation = some r) : r ∈ tables.journal ∧ r.operation = operation := by
  refine ⟨List.mem_of_find?_eq_some h, ?_⟩
  simpa using List.find?_some h

theorem RowLaw.empty : RowLaw .empty := ⟨by simp [JournalTables.empty], List.nodup_nil, rfl⟩

/-- An admission adds a row under a new operation, and a transition adds none. -/
theorem JournalStep.operations_nodup {before after : JournalTables} (hstep : JournalStep before after)
    (h : (before.journal.map JournalRow.operation).Nodup) : (after.journal.map JournalRow.operation).Nodup := by
  cases hstep with
  | same => exact h
  | admitted a guardNow created after hchecked hadmits =>
    obtain ⟨updated, rfl⟩ := hadmits.after_eq
    have hfresh := JournalTables.findJournal_eq_none.1 hadmits.fresh
    simp only [JournalTables.admitted, List.map_append, List.map_cons, List.map_nil, Admission.row_operation]
    rw [List.nodup_append]
    refine ⟨h, by simp, ?_⟩
    intro x hx y hy
    rw [List.mem_singleton.1 hy]
    rintro rfl
    exact hfresh hx
  | moved operation newState after htransits =>
    obtain ⟨journal, updated, -, rfl⟩ := htransits
    exact h

theorem RowLaw.step {before after : JournalTables} (h : RowLaw before) (hstep : JournalStep before after) :
    RowLaw after := by
  have hoperations := hstep.operations_nodup h.operations
  cases hstep with
  | same => exact h
  | admitted a guardNow created after hchecked hadmits =>
    obtain ⟨updated, rfl⟩ := hadmits.after_eq
    refine ⟨fun r hr => ?_, hoperations, ?_⟩
    · rcases List.mem_append.1 hr with hr | hr
      · exact h.expected r hr
      · rw [List.mem_singleton.1 hr]
        exact hchecked.succ
    · simp [JournalTables.admitted, h.lifecycle]
  | moved operation newState after htransits =>
    obtain ⟨journal, updated, hjournal, rfl⟩ := htransits
    obtain ⟨hmem, hop⟩ := JournalTables.findJournal_some hjournal
    refine ⟨h.expected, h.operations, ?_⟩
    simp only
    rw [upsertLifecycleRow_operations, h.lifecycle]
    rw [h.lifecycle, ← hop]
    exact List.mem_map_of_mem hmem

theorem TargetLaw.empty (scope equipment : String) : TargetLaw .empty scope equipment := ⟨0, rfl, rfl⟩

/-- The current generation under the law. -/
theorem TargetLaw.currentGeneration {tables : JournalTables} {scope equipment : String} {n : Nat}
    (h : tables.targetRows scope equipment = if n = 0 then [] else [⟨scope, equipment, n⟩]) :
    tables.currentGeneration scope equipment = n := by
  have hfind : tables.findTarget scope equipment = (tables.targetRows scope equipment).head? := by
    rw [JournalTables.targetRows, List.head?_filter]
    rfl
  rw [JournalTables.currentGeneration, hfind, h]
  by_cases hn : n = 0
  · simp [hn]
  · simp [hn]

theorem upsertTargetRow_filter_self {scope equipment : String} {generation n : Nat} {targets : List TargetRow}
    (h : (targets.filter fun r => r.scope = scope ∧ r.equipment = equipment) =
      if n = 0 then [] else [⟨scope, equipment, n⟩]) :
    ((upsertTargetRow scope equipment generation targets).filter fun r => r.scope = scope ∧ r.equipment = equipment) =
      [⟨scope, equipment, generation⟩] := by
  unfold upsertTargetRow
  by_cases hany : (targets.any fun r => r.scope = scope ∧ r.equipment = equipment) = true
  · rw [if_pos hany]
    have hn : n ≠ 0 := by
      rintro rfl
      obtain ⟨r, hr, hkey⟩ := List.any_eq_true.1 hany
      have hmem : r ∈ targets.filter fun r => r.scope = scope ∧ r.equipment = equipment :=
        List.mem_filter.2 ⟨hr, hkey⟩
      rw [h] at hmem
      simp at hmem
    rw [if_neg hn] at h
    have hkeep : ((fun r : TargetRow => decide (r.scope = scope ∧ r.equipment = equipment)) ∘ fun r : TargetRow =>
        if r.scope = scope ∧ r.equipment = equipment then { r with currentGeneration := generation } else r) =
        fun r => decide (r.scope = scope ∧ r.equipment = equipment) := by
      funext r
      simp only [Function.comp_apply]
      split <;> rfl
    rw [List.filter_map, hkeep, h]
    simp
  · rw [if_neg hany, List.filter_append]
    have hnone : (targets.filter fun r => r.scope = scope ∧ r.equipment = equipment) = [] := by
      rw [List.filter_eq_nil_iff]
      intro r hr hkey
      exact hany (List.any_eq_true.2 ⟨r, hr, hkey⟩)
    rw [hnone]
    simp

theorem upsertTargetRow_filter_other {scope equipment scope' equipment' : String} {generation : Nat}
    {targets : List TargetRow} (h : ¬(scope' = scope ∧ equipment' = equipment)) :
    ((upsertTargetRow scope' equipment' generation targets).filter
        fun r => r.scope = scope ∧ r.equipment = equipment) =
      targets.filter fun r => r.scope = scope ∧ r.equipment = equipment := by
  unfold upsertTargetRow
  split
  · rw [List.filter_map]
    have hkeep : ((fun r : TargetRow => decide (r.scope = scope ∧ r.equipment = equipment)) ∘ fun r : TargetRow =>
        if r.scope = scope' ∧ r.equipment = equipment' then { r with currentGeneration := generation } else r) =
        fun r => decide (r.scope = scope ∧ r.equipment = equipment) := by
      funext r
      simp only [Function.comp_apply]
      split <;> rfl
    rw [hkeep]
    conv_rhs => rw [← List.map_id (targets.filter _)]
    refine List.map_congr_left fun r hr => ?_
    have hkey := (List.mem_filter.1 hr).2
    rw [decide_eq_true_eq] at hkey
    rw [if_neg]
    · rfl
    · rintro ⟨rfl, rfl⟩
      exact h hkey
  · rw [List.filter_append]
    simp [h]

theorem TargetLaw.step {before after : JournalTables} {scope equipment : String} (h : TargetLaw before scope equipment)
    (hstep : JournalStep before after) : TargetLaw after scope equipment := by
  cases hstep with
  | same => exact h
  | moved operation newState after htransits =>
    obtain ⟨journal, updated, -, rfl⟩ := htransits
    exact h
  | admitted a guardNow created after hchecked hadmits =>
    obtain ⟨updated, rfl⟩ := hadmits.after_eq
    obtain ⟨n, hgenerations, htargets⟩ := h
    simp only [TargetLaw, JournalTables.generations, JournalTables.targetRows, JournalTables.admitted,
      List.filter_append, List.map_append] at hgenerations htargets ⊢
    by_cases hkey : a.scope.text = scope ∧ a.equipment.text = equipment
    · obtain ⟨rfl, rfl⟩ := hkey
      have hcurrent : a.expectedGeneration.toNat = n := by
        rw [← hadmits.current]
        exact TargetLaw.currentGeneration htargets
      have htarget : a.targetGeneration.toNat = n + 1 := by rw [hchecked.succ, hcurrent]
      refine ⟨n + 1, ?_, ?_⟩
      · rw [hgenerations, List.range'_concat]
        simp [JournalRow.onTarget, Admission.row, htarget]
        omega
      · rw [upsertTargetRow_filter_self htargets, if_neg (by omega), htarget]
    · refine ⟨n, ?_, ?_⟩
      · rw [hgenerations]
        simp [JournalRow.onTarget, Admission.row, hkey]
      · rw [upsertTargetRow_filter_other hkey]
        exact htargets

/-! ### The calls issue journal operations only -/

section Issues

variable {Q : StoreOp JournalTables → Prop} (hread : ∀ query, Q (.read query))

theorem read_issues (hread : ∀ query, Q (.read query)) (query : Query JournalTables) : (Call.read query).Issues Q :=
  Prog.issues_issue (hread query)

include hread in
theorem readRow_issues (operation : OperationId) (scope : TrustedScope) : (readRow operation scope).Issues Q := by
  unfold readRow
  refine Prog.Issues.bind (read_issues hread _) fun answer => ?_
  split
  · exact trivial
  split
  · refine Prog.Issues.bind (read_issues hread _) fun answer => ?_
    split
    · exact trivial
    split
    · refine Prog.Issues.bind (read_issues hread _) fun answer => ?_
      split <;> exact trivial
    · exact trivial
  · exact trivial

include hread in
theorem readIdentical_issues (pending : PendingAdmission) (reconciled : Bool) :
    (readIdentical pending reconciled).Issues Q := by
  unfold readIdentical
  refine Prog.Issues.bind (readRow_issues hread _ _) fun answer => ?_
  split <;> exact trivial

include hread in
theorem admissionRefused_issues (a : Admission) (error : StorageError) : (admissionRefused a error).Issues Q := by
  unfold admissionRefused
  split
  · split
    · refine Prog.Issues.bind (Prog.Issues.bind (read_issues hread _) fun answer => ?_) fun answer => ?_
      · split <;> exact trivial
      · split <;> exact trivial
    · split
      · refine Prog.Issues.bind (Prog.Issues.bind (read_issues hread _) fun answer => ?_) fun answer => ?_
        · split <;> exact trivial
        · split <;> exact trivial
      · exact trivial
  · exact trivial

include hread in
/-- The only writing operation of a submitted admission is its own ticket. -/
theorem submitAdmission_issues {store : SqliteStore} {pending : PendingAdmission}
    (hreconcile : Q (.reconcile store pending.ticket)) (hsubmit : Q (.submit store pending.ticket)) :
    (submitAdmission store pending).Issues Q := by
  unfold submitAdmission tryReconcileTicket
  refine Prog.Issues.bind (Prog.Issues.bind (Prog.issues_issue hreconcile) fun answer => ?_) fun answer => ?_
  · split
    · exact (readIdentical_issues hread _ _).bind fun _ => trivial
    · exact trivial
    · exact trivial
    · exact trivial
  · split
    · exact trivial
    · exact trivial
    · refine Prog.Issues.bind (Prog.issues_issue hsubmit) fun answer => ?_
      cases answer with
      | committed => exact readIdentical_issues hread _ _
      | notCommitted => exact admissionRefused_issues hread _ _
      | conflict => exact trivial
      | unknown => exact trivial

include hread in
/-- The only writing operation of a transition is its own ticket. -/
theorem writeTransition_issues {store : SqliteStore} {operation : OperationId} {scope : TrustedScope}
    {newState : LifecycleState} (hdraw : Q .draw)
    (hsubmit : ∀ ticket, IsTransitionTicket store operation newState ticket → Q (.submit store ticket)) :
    (writeTransition store operation scope newState).Issues Q := by
  unfold writeTransition
  refine Prog.Issues.bind (Prog.issues_issue hdraw) fun id => ?_
  split
  · exact trivial
  · rename_i ticket hticket
    refine Prog.Issues.bind (Prog.issues_issue (hsubmit ticket (isTransitionTicket_of_prepare hticket))) fun answer => ?_
    split
    · exact readRow_issues hread _ _
    · exact trivial
    · exact trivial
    · exact trivial

include hread in
theorem transition_issues {store : SqliteStore} {operation : OperationId} {scope : TrustedScope}
    {newState : LifecycleState} (hdraw : Q .draw)
    (hsubmit : ∀ ticket, IsTransitionTicket store operation newState ticket → Q (.submit store ticket)) :
    (transition store operation scope newState).Issues Q := by
  unfold transition
  refine Prog.Issues.bind (readRow_issues hread operation scope) fun answer => ?_
  split
  · exact trivial
  split
  · exact trivial
  split
  · exact trivial
  · exact writeTransition_issues hread hdraw hsubmit

end Issues

end Verdant.Action
