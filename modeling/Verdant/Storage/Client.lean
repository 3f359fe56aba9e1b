import Verdant.Library.Prog
import Verdant.Storage.Receipts

/-!
# Calls over a store

The calls of the repository's modules are client programs over one store, through handles of it.  Their operations are
`submit` and `reconcile` of a ticket, `reconcileOperation` of an identity, a read-only script, and the readings a call
takes from its process: the identity of a fresh ticket, the wall clock, the cancellation flag.  A `Moment` holds what the
host and the process decide at one operation.
-/

namespace Verdant.Storage

open TextCodec

/-- A read-only script: its text and the rows it returns at a wall reading. -/
structure Query (ρ : Type) where
  text : String
  rows : Int → Database ρ → Except String Rows

/-- The error says that a table or a column is missing, so an older shape of the tables is tried. -/
def StorageError.missingColumn : StorageError → Bool
  | .sqliteFailure detail => containsText detail "no such column"
  | _ => false

def StorageError.missingSchema : StorageError → Bool
  | .sqliteFailure detail => containsText detail "no such column" || containsText detail "no such table"
  | _ => false

/-- A read the host fails; what is missing from the schema only the statement itself reports. -/
structure ReadFault where
  error : StorageError
  schema_present : error.missingSchema = false

/-- One look at a cancellation flag and its deadline. -/
structure CancelReading where
  pastDeadline : Bool
  cancelled : Bool
  deriving DecidableEq, Repr

/-- What the host and the process decide at one operation; `wall` is in the unit the caller asks for, `none` before the
epoch. -/
structure Moment where
  id : String
  host : Host
  read : Option ReadFault
  wall : Option Nat
  cancel : CancelReading

/-- A moment at which nothing fails. -/
def Moment.quiet (id : String) (now : Nat) : Moment where
  id := id
  host := { Host.quiet with clock := fun _ => Int64.ofNat now }
  read := none
  wall := some now
  cancel := ⟨false, false⟩

inductive StoreOp (ρ : Type) where
  | draw
  | submit (store : SqliteStore) (pending : PreparedMutation ρ)
  | reconcile (store : SqliteStore) (pending : PreparedMutation ρ)
  | reconcileOperation (store : SqliteStore) (operation : OperationId)
  | read (query : Query ρ)
  | wall
  | poll

variable {ρ : Type}

def StoreOp.Answer : StoreOp ρ → Type
  | .draw => String
  | .submit _ _ => MutationOutcome
  | .reconcile _ _ => MutationOutcome
  | .reconcileOperation _ _ => MutationOutcome
  | .read _ => Except StorageError Rows
  | .wall => Option Nat
  | .poll => CancelReading

/-- `exec_script` on a store. -/
def execScript (m : Moment) (query : Query ρ) (db : Database ρ) : Except StorageError Rows :=
  match m.read with
  | some fault => .error fault.error
  | none =>
    match query.rows (m.host.clock 0).toInt db with
    | .error detail => .error (failure ("CLI exited exit status: 1: " ++ detail))
    | .ok rows => .ok rows

def StoreOp.exec : (op : StoreOp ρ) → Moment → Database ρ → Database ρ × op.Answer
  | .draw, m, db => (db, m.id)
  | .submit store pending, m, db => Storage.submit store pending m.host db
  | .reconcile store pending, m, db => (db, Storage.reconcile store pending m.host db)
  | .reconcileOperation store operation, m, db => (db, Storage.reconcileOperation store operation m.host db)
  | .read query, m, db => (db, execScript m query db)
  | .wall, m, db => (db, m.wall)
  | .poll, m, db => (db, m.cancel)

/-- A call over a store. -/
abbrev Call (ρ : Type) (α : Type) := Prog (StoreOp.Answer (ρ := ρ)) α

/-! ### The operations as calls -/

namespace Call

def draw : Call ρ String := Prog.issue StoreOp.draw
def submit (store : SqliteStore) (pending : PreparedMutation ρ) : Call ρ MutationOutcome :=
  Prog.issue (StoreOp.submit store pending)
def reconcile (store : SqliteStore) (pending : PreparedMutation ρ) : Call ρ MutationOutcome :=
  Prog.issue (StoreOp.reconcile store pending)
def reconcileOperation (store : SqliteStore) (operation : OperationId) : Call ρ MutationOutcome :=
  Prog.issue (StoreOp.reconcileOperation store operation)
def read (query : Query ρ) : Call ρ (Except StorageError Rows) := Prog.issue (StoreOp.read query)
def wall : Call ρ (Option Nat) := Prog.issue StoreOp.wall
def poll : Call ρ CancelReading := Prog.issue StoreOp.poll

end Call

/-- Only `submit` writes. -/
theorem StoreOp.exec_fst_of_ne_submit {op : StoreOp ρ} (h : ∀ store pending, op ≠ .submit store pending)
    (m : Moment) (db : Database ρ) : (op.exec m db).1 = db := by
  cases op with
  | submit store pending => exact absurd rfl (h store pending)
  | draw | reconcile | reconcileOperation | read | wall | poll => rfl

/-- Every operation but `submit`. -/
def NoSubmit : StoreOp ρ → Prop
  | .submit _ _ => False
  | _ => True

theorem NoSubmit.exec {op : StoreOp ρ} (h : NoSubmit op) (m : Moment) (db : Database ρ) :
    (op.exec m db).1 = db := by
  cases op with
  | submit => exact h.elim
  | draw | reconcile | reconcileOperation | read | wall | poll => rfl

/-- A run that submits nothing leaves the store. -/
theorem runs_noSubmit {α : Type} {E : Moment → Prop} {p : Call ρ α} (hp : p.Issues NoSubmit) {db db' : Database ρ}
    {result : Option α} (h : Prog.Runs StoreOp.exec E p db db' result) : db' = db := by
  have hstep : ∀ op m d, NoSubmit op → d = db → (StoreOp.exec op m d).1 = db :=
    fun op m d hop hd => (hop.exec m d).trans hd
  exact Prog.Runs.invariant hstep hp h rfl

end Verdant.Storage
