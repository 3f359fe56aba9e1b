import Verdant.Action.Dispatch
import Verdant.Action.JournalRead
import Verdant.Library.Settles
import Verdant.Library.Window

/-!
# Pages of the journal

The two paged reads of the journal: the operations that are not terminal, and the terminal sets whose cleanup is due.
Each lists a window of operations with one statement and then hydrates every listed one with a read of its own.  A page
read settles on the hydrated rows of a window of the ordered list (`settles_outstandingPage`,
`settles_cleanupObligations`).
-/

namespace Verdant.Action

open Storage Window
open Prog (Try check attempt mapErr Settles)

/-! ### Listing -/

/-- Rows in the order of their operations. -/
def orderByOperation (rows : List JournalRow) : List JournalRow :=
  rows.insertionSort fun a b => a.operation ≤ b.operation

/-- The rows of a scope that are not terminal; a missing lifecycle row reads as admitted. -/
def outstandingRows (scope : TrustedScope) (tables : JournalTables) : List JournalRow :=
  orderByOperation (tables.journal.filter fun r =>
    r.scope = scope.text ∧ tables.lifecycleState r.operation ≠ .terminal)

def outstandingPageSql (scope : TrustedScope) (limit offset : Nat) : Query JournalTables where
  text := "SELECT j.operation, j.scope, j.equipment, j.target_generation, j.actor, j.attempt, " ++
    "COALESCE(l.state, 'admitted') FROM action_journal j LEFT JOIN action_lifecycle l ON l.operation=j.operation " ++
    s!"WHERE j.scope={sqlQuote scope.text} AND COALESCE(l.state, 'admitted') != 'terminal' ORDER BY j.operation " ++
    s!"LIMIT {max limit 1} OFFSET {offset};"
  rows _ db := .ok <| (window (max limit 1) offset (outstandingRows scope db.tables)).map fun r =>
    [r.operation, r.scope, r.equipment, Nat.repr r.targetGeneration, r.actor, r.attempt,
      (db.tables.lifecycleState r.operation).asStr]

/-- The horizon of the cleanup of a terminal set. -/
def cleanupHorizonSecs : Nat := durationSecs

/-- A horizon as an `i64`. -/
def horizonSecs (horizon : Nat) : Int := if (horizon : Int) < 2 ^ 63 then horizon else 2 ^ 63 - 1

/-- Due from its creation on, until the horizon. -/
def isCleanupDue (created now : Int) (horizon : Nat) : Bool :=
  match checkedElapsed created now with
  | none => false
  | some delta => if delta < 0 then false else delta < horizonSecs horizon

/-- The cutoff of the statement: the subtraction stops at the least `i64`. -/
def cleanupCutoff (now : Int) (horizon : Nat) : Int :=
  if -2 ^ 63 ≤ now - horizonSecs horizon then now - horizonSecs horizon else -2 ^ 63

/-- The rows the statement filters out of the inner join. -/
def cleanupRows (scope : TrustedScope) (now : Int) (horizon : Nat) (tables : JournalTables) : List JournalRow :=
  orderByOperation (tables.journal.filter fun r =>
    r.scope = scope.text ∧ (tables.findLifecycle r.operation).map LifecycleRow.state = some .terminal ∧
      r.actionKind = some .set ∧ r.created ≤ now ∧ cleanupCutoff now horizon < r.created)

def cleanupObligationsSql (scope : TrustedScope) (limit offset : Nat) (now : Int) (horizon : Nat) :
    Query JournalTables where
  text := "SELECT j.operation FROM action_journal j JOIN action_lifecycle l ON l.operation=j.operation WHERE " ++
    s!"j.scope={sqlQuote scope.text} AND l.state='terminal' AND j.action_kind='set' AND j.created <= {now} AND " ++
    s!"j.created > {cleanupCutoff now horizon} ORDER BY j.operation LIMIT {max limit 1} OFFSET {offset};"
  rows _ db := .ok <| (window (max limit 1) offset (cleanupRows scope now horizon db.tables)).map fun r => [r.operation]

/-! ### Reading a page -/

/-- A call of the journal that ends with a typed failure. -/
abbrev JournalTry (α : Type) := Try (StoreOp.Answer (ρ := JournalTables)) WriterError α

def execRows (query : Query JournalTables) : JournalTry Rows := mapErr WriterError.ofStorage (attempt (Call.read query))

/-- Hydrates the listed rows one after the other; a row can be passed over. -/
def hydrate (row : List String → JournalTry (Option Admitted)) : Rows → JournalTry (List Admitted)
  | [] => check (.ok [])
  | cells :: rows => do
    let found ← row cells
    let out ← hydrate row rows
    check (.ok (found.toList ++ out))

theorem hydrate_issues {Q : StoreOp JournalTables → Prop} {row : List String → JournalTry (Option Admitted)}
    (h : ∀ cells, (row cells).run.Issues Q) (rows : Rows) : (hydrate row rows).run.Issues Q := by
  induction rows with
  | nil => exact Prog.issues_check
  | cons cells rows ih => exact (h cells).tryBind fun found => ih.tryBind fun out => Prog.issues_check

/-- The page a caller gets: its limit within the replay horizon, and at least one row. -/
def pageBound (store : SqliteStore) (limit : Nat) : Nat := max (min limit store.bounds.maxReplayRows) 1

def outstandingRow (scope : TrustedScope) : List String → JournalTry (Option Admitted)
  | [operation, _, _, _, _, _, _] => do
    let operation ← check (require "outstanding operation" (OperationId.parse operation).toOption)
    let found ← attempt (readRow operation scope)
    check (.ok (some found))
  | _ => check (.error (.invalid "outstanding row shape"))

/-- `Journal::outstanding_page`. -/
def outstandingPage (store : SqliteStore) (scope : TrustedScope) (limit offset : Nat) : JournalTry (List Admitted) := do
  let rows ← execRows (outstandingPageSql scope (pageBound store limit) offset)
  hydrate (outstandingRow scope) rows

/-- What the second check keeps of a hydrated row. -/
def cleanupKeeps (scope : TrustedScope) (now : Int) (admitted : Admitted) : Except WriterError (Option Admitted) :=
  if admitted.lifecycle ≠ .terminal then .ok none
  else if admitted.actionKind ≠ some .set then .ok none
  else if !isCleanupDue admitted.createdSecs now cleanupHorizonSecs then .ok none
  else if admitted.scope.text ≠ scope.text then .error (.scopeDenied scope.text admitted.scope.text)
  else .ok (some admitted)

def cleanupRow (scope : TrustedScope) (now : Int) : List String → JournalTry (Option Admitted)
  | [operation] => do
    let operation ← check (require "cleanup operation" (OperationId.parse operation).toOption)
    let admitted ← attempt (reconcileRow operation scope)
    check (cleanupKeeps scope now admitted)
  | _ => check (.error (.invalid "cleanup row shape"))

def cleanupObligationsWithNow (store : SqliteStore) (scope : TrustedScope) (limit offset : Nat) (now : Int) :
    JournalTry (List Admitted) := do
  let rows ← execRows (cleanupObligationsSql scope (pageBound store limit) offset now cleanupHorizonSecs)
  hydrate (cleanupRow scope now) rows

/-! ### What a page read settles on -/

/-- A moment at which no read fails. -/
def CalmMoment (m : Moment) : Prop := m.read = none

abbrev SettlesOn {α : Type} (p : JournalTry α) (db : Database JournalTables) (x : Except WriterError α) : Prop :=
  Settles StoreOp.exec CalmMoment p db x

theorem settles_execRows {query : Query JournalTables} {db : Database JournalTables} {rows : Rows}
    (h : ∀ now, query.rows now db = .ok rows) : SettlesOn (execRows query) db (.ok rows) := by
  have hread : Settles StoreOp.exec CalmMoment (attempt (Call.read query)) db (.ok rows : Except StorageError Rows) := by
    refine ⟨fun E t a hrun => ?_, fun E t r hE hrun => ?_⟩
    · rcases Prog.runs_issue.1 hrun with ⟨-, hnone⟩ | ⟨m, -, ht, hr⟩
      · exact nomatch hnone
      · refine ⟨ht, ?_⟩
        have hexec : execScript m query db = .ok a := (Option.some.inj hr).symm
        unfold execScript at hexec
        cases hfault : m.read with
        | some fault => simp [hfault] at hexec
        | none => simpa [hfault, h] using hexec
    · rcases Prog.runs_issue.1 hrun with ⟨-, hnone⟩ | ⟨m, hm, ht, hr⟩
      · exact nomatch hnone
      · refine ⟨ht, (Option.some.inj hr).trans ?_⟩
        have hcalm : m.read = none := hE m hm
        show execScript m query db = .ok rows
        unfold execScript
        simp only [hcalm, h]
  exact hread.mapErr WriterError.ofStorage

/-- The row a read returns when nothing fails. -/
def rowAnswer (operation : OperationId) (scope : TrustedScope) (tables : JournalTables) : Except WriterError Admitted :=
  decodeFirst operation scope
    ((readRowWhere operation scope tables).map fun r => r.columns (tables.findLifecycle r.operation))

theorem readAnswer_calm {operation : OperationId} {scope : TrustedScope} {m : Moment} (hm : m.read = none)
    (db : Database JournalTables) : readAnswer operation scope m db = rowAnswer operation scope db.tables := by
  unfold readAnswer execScript
  simp only [hm, readRowSql_rows]
  rfl

theorem readAnswer_ok {operation : OperationId} {scope : TrustedScope} {m : Moment} {db : Database JournalTables}
    {found : Admitted} (h : readAnswer operation scope m db = .ok found) :
    rowAnswer operation scope db.tables = .ok found := by
  cases hfault : m.read with
  | none => rw [← readAnswer_calm hfault, h]
  | some fault => simp [readAnswer, execScript, hfault] at h

theorem rowAnswer_operation {operation : OperationId} {scope : TrustedScope} {tables : JournalTables} {found : Admitted}
    (h : rowAnswer operation scope tables = .ok found) : found.operation.text = operation.text := by
  have hread := (readAnswer_calm (m := .quiet "" 0) rfl ⟨tables, []⟩).trans h
  obtain ⟨r, -, hoperation, -, hreads⟩ := readAnswer_eq_ok hread
  rw [hreads.operation, hoperation]

theorem settles_readRow (operation : OperationId) (scope : TrustedScope) (db : Database JournalTables) :
    SettlesOn (attempt (readRow operation scope)) db (rowAnswer operation scope db.tables) := by
  refine ⟨fun E t a hrun => ?_, fun E t r hE hrun => ?_⟩
  · obtain ⟨ht, hnone | ⟨m, -, hr⟩⟩ := runs_readRow hrun
    · exact nomatch hnone
    · exact ⟨ht, readAnswer_ok (Option.some.inj hr).symm⟩
  · obtain ⟨ht, hnone | ⟨m, hm, hr⟩⟩ := runs_readRow hrun
    · exact nomatch hnone
    · exact ⟨ht, (Option.some.inj hr).trans (readAnswer_calm (hE m hm) db)⟩

/-- The row `reconcile` returns when nothing fails. -/
def reconciledAnswer (operation : OperationId) (scope : TrustedScope) (tables : JournalTables) :
    Except WriterError Admitted :=
  (rowAnswer operation scope tables).map fun found => { found with reconciled := true }

theorem settles_reconcileRow (operation : OperationId) (scope : TrustedScope) (db : Database JournalTables) :
    SettlesOn (attempt (reconcileRow operation scope)) db (reconciledAnswer operation scope db.tables) := by
  have hread := settles_readRow operation scope db
  refine ⟨fun E t a hrun => ?_, fun E t r hE hrun => ?_⟩
  · rcases Prog.runs_bind hrun with ⟨-, hnone⟩ | ⟨answer, u, hfirst, hdone⟩
    · exact nomatch hnone
    obtain ⟨rfl, ha⟩ := Prog.runs_done.1 hdone
    cases answer with
    | error e => exact nomatch ha
    | ok found =>
      obtain ⟨rfl, hx⟩ := hread.value E _ found hfirst
      refine ⟨rfl, ?_⟩
      unfold reconciledAnswer
      rw [hx]
      exact (Option.some.inj ha).symm
  · rcases Prog.runs_bind hrun with ⟨-, hnone⟩ | ⟨answer, u, hfirst, hdone⟩
    · exact nomatch hnone
    obtain ⟨rfl, ha⟩ := Prog.runs_done.1 hdone
    obtain ⟨rfl, rfl⟩ := hread.calm E _ answer hE hfirst
    exact ⟨rfl, Option.some.inj ha⟩

/-- The results of the listed rows, one after the other. -/
def hydrated (row : List String → Except WriterError (Option Admitted)) : Rows → Except WriterError (List Admitted)
  | [] => .ok []
  | cells :: rows => do
    let found ← row cells
    let out ← hydrated row rows
    .ok (found.toList ++ out)

theorem settles_hydrate {row : List String → JournalTry (Option Admitted)} {db : Database JournalTables}
    {answer : List String → Except WriterError (Option Admitted)} (h : ∀ cells, SettlesOn (row cells) db (answer cells))
    (rows : Rows) : SettlesOn (hydrate row rows) db (hydrated answer rows) := by
  induction rows with
  | nil => exact Prog.settles_check _
  | cons cells rows ih =>
    refine (h cells).bind fun found _ => ?_
    exact ih.bind fun out _ => Prog.settles_check _

def outstandingAnswer (scope : TrustedScope) (tables : JournalTables) :
    List String → Except WriterError (Option Admitted)
  | [operation, _, _, _, _, _, _] => do
    let operation ← require "outstanding operation" (OperationId.parse operation).toOption
    let found ← rowAnswer operation scope tables
    .ok (some found)
  | _ => .error (.invalid "outstanding row shape")

theorem settles_outstandingRow (scope : TrustedScope) (db : Database JournalTables) (cells : List String) :
    SettlesOn (outstandingRow scope cells) db (outstandingAnswer scope db.tables cells) := by
  unfold outstandingRow outstandingAnswer
  split
  · refine (Prog.settles_check _).bind fun operation _ => ?_
    exact (settles_readRow operation scope db).bind fun found _ => Prog.settles_check _
  · exact Prog.settles_check _

def cleanupAnswer (scope : TrustedScope) (now : Int) (tables : JournalTables) :
    List String → Except WriterError (Option Admitted)
  | [operation] => do
    let operation ← require "cleanup operation" (OperationId.parse operation).toOption
    let admitted ← reconciledAnswer operation scope tables
    cleanupKeeps scope now admitted
  | _ => .error (.invalid "cleanup row shape")

theorem settles_cleanupRow (scope : TrustedScope) (now : Int) (db : Database JournalTables) (cells : List String) :
    SettlesOn (cleanupRow scope now cells) db (cleanupAnswer scope now db.tables cells) := by
  unfold cleanupRow cleanupAnswer
  split
  · refine (Prog.settles_check _).bind fun operation _ => ?_
    exact (settles_reconcileRow operation scope db).bind fun found _ => Prog.settles_check _
  · exact Prog.settles_check _

/-! ### The pages -/

theorem max_pageBound (store : SqliteStore) (limit : Nat) : max (pageBound store limit) 1 = pageBound store limit :=
  max_eq_left (le_max_right _ _)

theorem pageBound_pos (store : SqliteStore) (limit : Nat) : 0 < pageBound store limit :=
  Nat.lt_of_lt_of_le Nat.zero_lt_one (le_max_right _ _)

/-- The columns the outstanding statement lists of a row. -/
def outstandingCells (tables : JournalTables) (r : JournalRow) : List String :=
  [r.operation, r.scope, r.equipment, Nat.repr r.targetGeneration, r.actor, r.attempt,
    (tables.lifecycleState r.operation).asStr]

theorem outstandingPageSql_rows (scope : TrustedScope) (limit offset : Nat) (now : Int) (db : Database JournalTables) :
    (outstandingPageSql scope limit offset).rows now db =
      .ok ((window (max limit 1) offset (outstandingRows scope db.tables)).map (outstandingCells db.tables)) := rfl

/-- What a page of outstanding operations holds when nothing fails. -/
def outstandingPageAnswer (store : SqliteStore) (scope : TrustedScope) (limit offset : Nat) (tables : JournalTables) :
    Except WriterError (List Admitted) :=
  hydrated (outstandingAnswer scope tables)
    ((window (pageBound store limit) offset (outstandingRows scope tables)).map (outstandingCells tables))

theorem settles_outstandingPage (store : SqliteStore) (scope : TrustedScope) (limit offset : Nat)
    (db : Database JournalTables) :
    SettlesOn (outstandingPage store scope limit offset) db
      (outstandingPageAnswer store scope limit offset db.tables) := by
  have hlist : SettlesOn (execRows (outstandingPageSql scope (pageBound store limit) offset)) db
      (.ok ((window (pageBound store limit) offset (outstandingRows scope db.tables)).map
        (outstandingCells db.tables))) := by
    refine settles_execRows fun now => (outstandingPageSql_rows scope _ offset now db).trans ?_
    rw [max_pageBound]
  have hpage := hlist.bind (f := hydrate (outstandingRow scope)) (g := hydrated (outstandingAnswer scope db.tables))
    fun rows _ => settles_hydrate (settles_outstandingRow scope db) rows
  rw [Result.ok_bind] at hpage
  exact hpage

theorem cleanupObligationsSql_rows (scope : TrustedScope) (limit offset : Nat) (now : Int) (horizon : Nat) (wall : Int)
    (db : Database JournalTables) :
    (cleanupObligationsSql scope limit offset now horizon).rows wall db =
      .ok ((window (max limit 1) offset (cleanupRows scope now horizon db.tables)).map fun r => [r.operation]) := rfl

/-- What a page of cleanup obligations holds when nothing fails. -/
def cleanupPageAnswer (store : SqliteStore) (scope : TrustedScope) (limit offset : Nat) (now : Int)
    (tables : JournalTables) : Except WriterError (List Admitted) :=
  hydrated (cleanupAnswer scope now tables)
    ((window (pageBound store limit) offset (cleanupRows scope now cleanupHorizonSecs tables)).map fun r =>
      [r.operation])

theorem settles_cleanupObligations (store : SqliteStore) (scope : TrustedScope) (limit offset : Nat) (now : Int)
    (db : Database JournalTables) :
    SettlesOn (cleanupObligationsWithNow store scope limit offset now) db
      (cleanupPageAnswer store scope limit offset now db.tables) := by
  have hlist : SettlesOn (execRows (cleanupObligationsSql scope (pageBound store limit) offset now cleanupHorizonSecs))
      db (.ok ((window (pageBound store limit) offset (cleanupRows scope now cleanupHorizonSecs db.tables)).map fun r =>
        [r.operation])) := by
    refine settles_execRows fun wall => (cleanupObligationsSql_rows scope _ offset now _ wall db).trans ?_
    rw [max_pageBound]
  have hpage := hlist.bind (f := hydrate (cleanupRow scope now)) (g := hydrated (cleanupAnswer scope now db.tables))
    fun rows _ => settles_hydrate (settles_cleanupRow scope now db) rows
  rw [Result.ok_bind] at hpage
  exact hpage

/-- Where every listed row that answers is kept, a page holds them all, in their order. -/
theorem hydrated_eq_ok {answer : List String → Except WriterError (Option Admitted)} {rows : Rows}
    (hkept : ∀ cells ∈ rows, answer cells ≠ .ok none) {out : List Admitted} :
    hydrated answer rows = .ok out ↔ List.Forall₂ (fun cells found => answer cells = .ok (some found)) rows out := by
  induction rows generalizing out with
  | nil =>
    rw [List.forall₂_nil_left_iff]
    simp [hydrated, eq_comm]
  | cons cells rows ih =>
    have hrows : ∀ more, hydrated answer rows = .ok more ↔
        List.Forall₂ (fun cells found => answer cells = .ok (some found)) rows more :=
      fun more => ih fun cells hmem => hkept cells (List.mem_cons_of_mem _ hmem)
    rw [List.forall₂_cons_left_iff, hydrated]
    simp only [Result.bind_eq_ok, Except.ok.injEq]
    constructor
    · rintro ⟨found, hfound, more, hmore, rfl⟩
      cases found with
      | none => exact absurd hfound (hkept cells List.mem_cons_self)
      | some found => exact ⟨found, more, hfound, (hrows more).1 hmore, rfl⟩
    · rintro ⟨found, more, hfound, hmore, rfl⟩
      exact ⟨some found, hfound, more, (hrows more).2 hmore, rfl⟩

/-! ### The rows of a page -/

theorem mem_outstandingRows {scope : TrustedScope} {tables : JournalTables} {r : JournalRow} :
    r ∈ outstandingRows scope tables ↔
      r ∈ tables.journal ∧ r.scope = scope.text ∧ tables.lifecycleState r.operation ≠ .terminal := by
  rw [outstandingRows, orderByOperation, List.mem_insertionSort, List.mem_filter, decide_eq_true_iff]

/-- Rows of distinct operations come out in the strict order of their operations. -/
theorem orderByOperation_pairwise {rows : List JournalRow} (h : (rows.map JournalRow.operation).Nodup) :
    ((orderByOperation rows).map JournalRow.operation).Pairwise (· < ·) := by
  have hsorted : ((orderByOperation rows).map JournalRow.operation).Pairwise (· ≤ ·) := by
    rw [List.pairwise_map]
    exact List.pairwise_insertionSort _ _
  have hnodup : ((orderByOperation rows).map JournalRow.operation).Nodup :=
    ((List.perm_insertionSort _ rows).map JournalRow.operation).nodup_iff.2 h
  exact (hsorted.and hnodup).imp fun hle => lt_of_le_of_ne hle.1 hle.2

theorem nodup_filter_operations {tables : JournalTables} (h : (tables.journal.map JournalRow.operation).Nodup)
    (p : JournalRow → Bool) : ((tables.journal.filter p).map JournalRow.operation).Nodup :=
  h.sublist (List.filter_sublist.map _)

/-- The row a read finds is the only one of its operation. -/
theorem rowAnswer_of_mem {operation : OperationId} {scope : TrustedScope} {tables : JournalTables} {r : JournalRow}
    (hkeys : (tables.journal.map JournalRow.operation).Nodup) (hr : r ∈ tables.journal)
    (hoperation : r.operation = operation.text) (hscope : r.scope = scope.text) :
    rowAnswer operation scope tables = decodeRow (r.columns (tables.findLifecycle r.operation)) scope := by
  have hnodup : (readRowWhere operation scope tables).Nodup := hkeys.of_map.filter _
  have honly : ∀ x ∈ readRowWhere operation scope tables, x = r := by
    intro x hx
    obtain ⟨hx, hkey⟩ := List.mem_filter.1 hx
    rw [decide_eq_true_eq] at hkey
    exact List.inj_on_of_nodup_map hkeys hx hr (hkey.1.trans hoperation.symm)
  have hmem : r ∈ readRowWhere operation scope tables :=
    List.mem_filter.2 ⟨hr, decide_eq_true ⟨hoperation, hscope⟩⟩
  obtain ⟨front, back, hsplit⟩ := List.append_of_mem hmem
  have hhead : ∃ rest, readRowWhere operation scope tables = r :: rest := by
    cases hrows : readRowWhere operation scope tables with
    | nil => simp [hrows] at hmem
    | cons x rest => exact ⟨rest, by rw [honly x (by simp [hrows])]⟩
  obtain ⟨rest, hrest⟩ := hhead
  rw [rowAnswer, hrest]
  rfl

end Verdant.Action
