import Verdant.Storage.OutboxRow

/-!
# The store as a transactional engine

A database is the owners' tables `ρ` together with `storage_receipts`.  A connection inside its write transaction is a
`Session`: the staged database, `last_insert_rowid()` and `changes()`.  A statement is its SQL text with its effect on
the session; a script runs its statements in order and stops at the first error, which is what `.bail on` does, so a
failing script leaves nothing once its connection is dropped.  `'now'` is one reading for each statement: the session
holds the readings still to come, with no order among them.
-/

namespace Verdant.Storage

/-- One row of `storage_receipts`; `operation` is the primary key. -/
structure ReceiptRow where
  operation : String
  request : String
  response : String
  deriving DecidableEq, Repr

/-- The durable contents of one store: the owners' tables and the receipts. -/
structure Database (ρ : Type) where
  tables : ρ
  receipts : List ReceiptRow

/-- The row a primary-key lookup returns. -/
def findReceipt (receipts : List ReceiptRow) (operation : String) : Option ReceiptRow :=
  receipts.find? fun r => r.operation = operation

/-- A connection inside its write transaction. -/
structure Session (ρ : Type) extends Database ρ where
  lastInsertRowid : Nat
  changes : Nat
  clock : Nat → Int64

/-- The session of a connection that has just begun its transaction. -/
def Database.begin {ρ : Type} (db : Database ρ) (clock : Nat → Int64) : Session ρ :=
  { db with lastInsertRowid := 0, changes := 0, clock := clock }

/-- The wall reading of the statement that runs now, in the unit the statement asks for. -/
def Session.now {ρ : Type} (s : Session ρ) : Int := (s.clock 0).toInt

/-- The session of the next statement. -/
def Session.tick {ρ : Type} (s : Session ρ) : Session ρ :=
  { s with clock := fun n => s.clock (n + 1) }

section Tick

variable {ρ : Type} (s : Session ρ)

@[simp] theorem Session.tick_tables : s.tick.tables = s.tables := rfl
@[simp] theorem Session.tick_receipts : s.tick.receipts = s.receipts := rfl
@[simp] theorem Session.tick_lastInsertRowid : s.tick.lastInsertRowid = s.lastInsertRowid := rfl
@[simp] theorem Session.tick_changes : s.tick.changes = s.changes := rfl

@[simp] theorem Database.begin_tables (db : Database ρ) (clock : Nat → Int64) :
    (db.begin clock).tables = db.tables := rfl
@[simp] theorem Database.begin_receipts (db : Database ρ) (clock : Nat → Int64) :
    (db.begin clock).receipts = db.receipts := rfl

end Tick

/-- One SQL statement: its text and what it does to the session. -/
structure Statement (ρ : Type) where
  text : String
  exec : Session ρ → Except String (Session ρ × Rows)

/-- A batch of statements, sent as one text. -/
abbrev Script (ρ : Type) := List (Statement ρ)

def Script.text {ρ : Type} (script : Script ρ) : String :=
  String.intercalate " " (script.map Statement.text)

def Script.run {ρ : Type} : Script ρ → Session ρ → Except String (Session ρ × Rows)
  | [], s => .ok (s, [])
  | statement :: rest, s => do
    let (s, rows) ← statement.exec s
    let (s, more) ← Script.run rest s.tick
    .ok (s, rows ++ more)

section Script

variable {ρ : Type}

@[simp]
theorem Script.run_nil (s : Session ρ) : Script.run [] s = .ok (s, []) := rfl

theorem Script.run_cons_ok {statement : Statement ρ} {rest : Script ρ} {s t : Session ρ} {rows : Rows} :
    Script.run (statement :: rest) s = .ok (t, rows) ↔
      ∃ u first more, statement.exec s = .ok (u, first) ∧ Script.run rest u.tick = .ok (t, more) ∧
        rows = first ++ more := by
  simp only [Script.run]
  cases hfirst : statement.exec s with
  | error e => simp [bind, Except.bind]
  | ok p =>
    obtain ⟨u, first⟩ := p
    cases hrest : Script.run rest u.tick with
    | error e => simp [bind, Except.bind, hrest]
    | ok q =>
      obtain ⟨v, more⟩ := q
      simp only [bind, Except.bind, hrest, Except.ok.injEq, Prod.mk.injEq]
      constructor
      · rintro ⟨rfl, rfl⟩
        exact ⟨u, first, more, ⟨rfl, rfl⟩, hrest, rfl⟩
      · rintro ⟨u', first', more', ⟨rfl, rfl⟩, h, rfl⟩
        rw [hrest] at h
        cases h
        exact ⟨rfl, rfl⟩

theorem Script.run_append_ok {a b : Script ρ} {s t : Session ρ} {rows : Rows} :
    Script.run (a ++ b) s = .ok (t, rows) ↔
      ∃ u first more, Script.run a s = .ok (u, first) ∧ Script.run b u = .ok (t, more) ∧
        rows = first ++ more := by
  induction a generalizing s rows with
  | nil => simp
  | cons statement a ih =>
    simp only [List.cons_append, Script.run_cons_ok, ih]
    constructor
    · rintro ⟨u, first, _, hfirst, ⟨v, mid, more, hmid, hmore, rfl⟩, rfl⟩
      exact ⟨v, first ++ mid, more, ⟨u, first, mid, hfirst, hmid, rfl⟩, hmore, by simp⟩
    · rintro ⟨v, _, more, ⟨u, first, mid, hfirst, hmid, rfl⟩, hmore, rfl⟩
      exact ⟨u, first, mid ++ more, hfirst, ⟨v, mid, more, hmid, hmore, rfl⟩, by simp⟩

/-- The error of a script is the error of one of its statements. -/
theorem Script.fails {p : String → Prop} {script : Script ρ}
    (h : ∀ statement ∈ script, ∀ s, Result.Fails p (statement.exec s)) (s : Session ρ) :
    Result.Fails p (script.run s) := by
  induction script generalizing s with
  | nil => exact .ok
  | cons statement rest ih =>
    refine (h statement List.mem_cons_self s).bind fun out => ?_
    exact (ih (fun later hmem => h later (List.mem_cons_of_mem _ hmem)) out.1.tick).bind fun _ => .ok

/-- A script writes the owners' tables only and leaves the receipts to `submit`. -/
def Script.LeavesReceipts (script : Script ρ) : Prop :=
  ∀ s t rows, script.run s = .ok (t, rows) → t.receipts = s.receipts

/-- What a statement over the owners' tables leaves: tables, session counters and output rows. -/
structure TableEffect (ρ : Type) where
  tables : ρ
  lastInsertRowid : Nat
  changes : Nat
  rows : Rows

/-- A statement that reads the session and writes the owners' tables and the session counters only. -/
def Statement.onTables (text : String) (effect : Session ρ → Except String (TableEffect ρ)) : Statement ρ where
  text := text
  exec s := do
    let e ← effect s
    .ok ({ s with tables := e.tables, lastInsertRowid := e.lastInsertRowid, changes := e.changes }, e.rows)

theorem Statement.onTables_eq_ok {text : String} {effect : Session ρ → Except String (TableEffect ρ)}
    {s t : Session ρ} {rows : Rows} (h : (Statement.onTables text effect).exec s = .ok (t, rows)) :
    ∃ e, effect s = .ok e ∧ rows = e.rows ∧
      t = { s with tables := e.tables, lastInsertRowid := e.lastInsertRowid, changes := e.changes } := by
  simp only [Statement.onTables, Result.bind_eq_ok] at h
  obtain ⟨e, he, h⟩ := h
  simp only [Except.ok.injEq, Prod.mk.injEq] at h
  exact ⟨e, he, h.2.symm, h.1.symm⟩

theorem Statement.onTables_fails {p : String → Prop} {text : String}
    {effect : Session ρ → Except String (TableEffect ρ)} {s : Session ρ} (h : Result.Fails p (effect s)) :
    Result.Fails p ((Statement.onTables text effect).exec s) := h.bind fun _ => .ok

theorem Statement.onTables_receipts {text : String} {effect : Session ρ → Except String (TableEffect ρ)}
    {s t : Session ρ} {rows : Rows} (h : (Statement.onTables text effect).exec s = .ok (t, rows)) :
    t.receipts = s.receipts := by
  obtain ⟨e, -, -, rfl⟩ := Statement.onTables_eq_ok h
  rfl

theorem Script.leavesReceipts_of_forall {script : Script ρ}
    (h : ∀ statement ∈ script, ∀ s t rows, statement.exec s = .ok (t, rows) → t.receipts = s.receipts) :
    script.LeavesReceipts := by
  induction script with
  | nil =>
    intro s t rows hrun
    cases hrun
    rfl
  | cons statement rest ih =>
    intro s t rows hrun
    obtain ⟨u, first, more, hfirst, hmore, -⟩ := Script.run_cons_ok.1 hrun
    rw [ih (fun st hst => h st (List.mem_cons_of_mem _ hst)) u.tick t more hmore]
    exact h statement List.mem_cons_self s u first hfirst

end Script

/-! ### Statements every batch ends with -/

section Counters

variable (ρ : Type)

def selectLastInsertRowid : Statement ρ where
  text := "SELECT last_insert_rowid();"
  exec s := .ok (s, [[Nat.repr s.lastInsertRowid]])

def selectChanges : Statement ρ where
  text := "SELECT changes();"
  exec s := .ok (s, [[Nat.repr s.changes]])

end Counters

end Verdant.Storage
