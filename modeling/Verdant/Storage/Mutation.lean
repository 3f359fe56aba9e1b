import Verdant.Storage.Engine

/-!
# Prepared mutations: submit and reconcile

A `PreparedMutation` is an immutable request ticket.  `submit` runs its body and records its receipt in one
transaction behind the writer lock, or answers from the receipt that is already there; `reconcile` and
`reconcileOperation` only look.  What the host does during one call (a refused admission, a failing exchange, a lost
commit reply) is the `Host` record: every value of it is possible.
-/

namespace Verdant.Storage

open TextCodec

/-- The rows a mutation answers with. -/
inductive Shape where
  | insert
  | rows
  | change
  deriving DecidableEq, Repr

/-- The name the request text carries. -/
def Shape.debug : Shape → String
  | .insert => "Insert"
  | .rows => "Rows"
  | .change => "Change"

/-- The bounds of a store that the mutations read. -/
structure StoreBounds where
  maxValueBytes : Nat
  maxReplayRows : Nat
  maxWalBytes : Nat
  maxDbBytes : Nat
  maintenanceWindowSecs : Nat
  deriving DecidableEq, Repr

/-- The tiny-test defaults. -/
def StoreBounds.tiny : StoreBounds where
  maxValueBytes := 65536
  maxReplayRows := 64
  maxWalBytes := 8388608
  maxDbBytes := 67108864
  maintenanceWindowSecs := 3600

/-- A store handle: the identity read at open and its bounds. -/
structure SqliteStore where
  identity : String
  bounds : StoreBounds
  deriving DecidableEq, Repr

/-- The file sizes of a database at one moment. -/
structure Disk where
  dbBytes : Nat
  walBytes : Nat
  shmBytes : Nat
  deriving DecidableEq, Repr

/-- Addition that stops at the largest `u64`. -/
def saturatingAdd (a b : Nat) : Nat := min (2 ^ 64 - 1) (a + b)

def Disk.capacityBytes (disk : Disk) : Nat :=
  saturatingAdd (saturatingAdd disk.dbBytes disk.walBytes) disk.shmBytes

def SqliteStore.maintenanceReason (store : SqliteStore) (disk : Disk) : Option String :=
  if store.bounds.maxWalBytes < disk.walBytes then
    some s!"wal {disk.walBytes} bytes exceeds max_wal_bytes {store.bounds.maxWalBytes}: run checkpoint"
  else if store.bounds.maxDbBytes < disk.capacityBytes then
    some <| s!"main + WAL + SHM {disk.capacityBytes} bytes exceeds max_db_bytes {store.bounds.maxDbBytes}: " ++
      s!"operator maintenance window is {store.bounds.maintenanceWindowSecs} s"
  else none

/-- Immutable request ticket; `attempted` is the value of the flag its clones share. -/
structure PreparedMutation (ρ : Type) where
  operation : OperationId
  store : String
  body : Script ρ
  shape : Shape
  payloadBytes : Nat
  attempted : Bool

inductive MutationOutcome where
  | committed (operation : OperationId) (rows : Rows)
  | notCommitted (operation : OperationId) (error : StorageError)
  | conflict (operation : OperationId) (detail : String)
  | unknown (operation : OperationId) (detail : String)
  deriving DecidableEq

def MutationOutcome.intoResult : MutationOutcome → Except StorageError Rows
  | .committed _ rows => .ok rows
  | .notCommitted _ error => .error error
  | .conflict _ detail => .error (.conflict detail)
  | .unknown operation detail => .error (failure
      s!"UNKNOWN outcome for {operation.text}; reconcile that identity, do not retry as new work: {detail}")

/-! ### What the host does during a call -/

/-- The failures an exchange with the child process reports. -/
inductive ChildError where
  | sqliteFailure (detail : String)
  | io (path message : String)
  | deadlineExceeded (timeoutMs : Nat)
  | executionLimit (resource : String) (max : Nat)
  deriving DecidableEq, Repr

def ChildError.toStorageError : ChildError → StorageError
  | .sqliteFailure detail => .sqliteFailure detail
  | .io path message => .io path message
  | .deadlineExceeded timeoutMs => .deadlineExceeded timeoutMs
  | .executionLimit resource max => .executionLimit resource max

/-- The reply to `COMMIT`: seen, or lost with the transaction applied or not. -/
inductive CommitReply where
  | reply
  | lost (applied : Bool) (error : ChildError)
  deriving DecidableEq, Repr

/-- Everything the host decides during one `submit` or `reconcile`; `clock` gives the wall readings of the body. -/
structure Host where
  admission : Option StorageError
  lookup : Option ChildError
  disk : Disk
  body : Option ChildError
  record : Option ChildError
  commit : CommitReply
  clock : Nat → Int64

/-- A host on which nothing fails. -/
def Host.quiet : Host where
  admission := none
  lookup := none
  disk := ⟨0, 0, 0⟩
  body := none
  record := none
  commit := .reply
  clock _ := 0

/-! ### Tickets -/

/-- The identities of the fresh tickets of a run: process, clock and sequence number, never the same twice. -/
structure AutoIds where
  pid : Nat → Nat
  nanos : Nat → Nat
  seq : Nat → Nat
  distinct : Function.Injective fun n => (pid n, nanos n, seq n)

/-- `storage-{pid}-{nanos}-{seq}` of the `n`-th fresh ticket. -/
def AutoIds.text (ids : AutoIds) (n : Nat) : String :=
  joinText '-' ["storage", Nat.repr (ids.pid n), Nat.repr (ids.nanos n), Nat.repr (ids.seq n)]

theorem AutoIds.text_injective (ids : AutoIds) : Function.Injective ids.text := by
  intro m n h
  have hsplit (k : Nat) : splitText '-' (ids.text k) =
      ["storage", Nat.repr (ids.pid k), Nat.repr (ids.nanos k), Nat.repr (ids.seq k)] := by
    apply splitText_joinText
    · simp [minus_not_mem_toDigits]
    · simp
  have hlists := hsplit m
  rw [h, hsplit n] at hlists
  simp only [List.cons.injEq, and_true, true_and] at hlists
  apply ids.distinct
  simp [repr_injective hlists.1, repr_injective hlists.2.1, repr_injective hlists.2.2]

section Ticket

variable {ρ : Type}

/-- Rebuilds a ticket under a persisted operation identity. -/
def PreparedMutation.withOperation (pending : PreparedMutation ρ) (operation : OperationId) : PreparedMutation ρ :=
  { pending with operation := operation, attempted := true }

/-- A fresh ticket under the identity `id` the process has just drawn. -/
def PreparedMutation.new (store : SqliteStore) (id : String) (body : Script ρ) (shape : Shape) :
    Except StorageError (PreparedMutation ρ) :=
  match OperationId.parse id with
  | .error e => .error (failure e.display)
  | .ok operation => .ok {
      operation := operation
      store := store.identity
      body := body
      shape := shape
      payloadBytes := 0
      attempted := false }

/-- The ticket as its holders see it after a `submit`. -/
def PreparedMutation.dispatched (pending : PreparedMutation ρ) : PreparedMutation ρ :=
  { pending with attempted := true }

def PreparedMutation.request (pending : PreparedMutation ρ) : String :=
  hexText (pending.shape.debug ++ ":" ++ pending.store ++ ":" ++ pending.body.text)

end Ticket

/-! ### Rows and responses -/

def scalar : Rows → Except StorageError String
  | [[cell]] => .ok cell
  | _ => .error (failure "expected exactly one scalar")

def validateRows (shape : Shape) (rows : Rows) : Except StorageError Unit :=
  match shape with
  | .insert =>
    match rows with
    | [first, second] => do
      let cell ← scalar [first]
      match (parseI64 cell).filter fun n => 0 < n with
      | some _ => if second = ["1"] then .ok () else .error (failure "malformed insert response")
      | none => .error (failure "malformed insert response")
    | _ => .error (failure "malformed insert response")
  | .rows => rows.forM fun row => do
      let _ ← decodeRow row
      .ok ()
  | .change => do
    let value ← scalar rows
    if value = "0" ∨ value = "1" then .ok () else .error (failure "malformed changes response")

def outcome (shape : Shape) (operation : OperationId) (rows : Rows) : MutationOutcome :=
  if shape = .change ∧ rows = [["0"]] then
    .conflict operation "zero affected rows (claim owner/state or entity mismatch)"
  else .committed operation rows

def unhex (raw : String) : Except StorageError String :=
  match bytesOfHex raw.toList with
  | none => .error (failure "malformed receipt hex")
  | some bytes =>
    match String.fromUTF8? ⟨bytes.toArray⟩ with
    | none => .error (failure "malformed receipt UTF-8")
    | some s => .ok s

def encodeResponse (rows : Rows) : String :=
  joinText ';' (rows.map fun row => joinText ',' (row.map hexText))

def decodeResponse (response : String) : Except StorageError Rows :=
  if response = "" then .ok []
  else (splitText ';' response).mapM fun row => (splitText ',' row).mapM unhex

/-! ### Submit and reconcile -/

section Submit

variable {ρ : Type}

/-- One exchange over the session: the host may fail it, the statements may fail. -/
def exchange (fault : Option ChildError) (script : Script ρ) (s : Session ρ) :
    Except StorageError (Session ρ × Rows) :=
  match fault with
  | some e => .error e.toStorageError
  | none =>
    match script.run s with
    | .error detail => .error (failure ("CLI exited exit status: 1: " ++ detail))
    | .ok out => .ok out

def lookupReceipt (fault : Option ChildError) (db : Database ρ) (operation : OperationId) :
    Except StorageError (Option ReceiptRow) :=
  match fault with
  | some e => .error e.toStorageError
  | none => .ok (findReceipt db.receipts operation.text)

/-- `INSERT INTO storage_receipts`; the operation is the primary key. -/
def insertReceipt (receipt : ReceiptRow) : Statement ρ where
  text := s!"INSERT INTO storage_receipts(operation, request, response) VALUES ({sqlQuote receipt.operation}, " ++
    s!"{sqlQuote receipt.request}, {sqlQuote receipt.response});"
  exec s :=
    if (findReceipt s.receipts receipt.operation).isSome then
      .error "UNIQUE constraint failed: storage_receipts.operation"
    else .ok ({ s with receipts := s.receipts ++ [receipt], changes := 1 }, [])

/-- The space and maintenance conditions an insert rechecks under the writer lock. -/
def insertAdmission (store : SqliteStore) (pending : PreparedMutation ρ) (host : Host) :
    Except StorageError Unit :=
  if pending.shape = .insert then
    if store.bounds.maxValueBytes < pending.payloadBytes then
      .error (.valueTooLarge pending.payloadBytes store.bounds.maxValueBytes)
    else match store.maintenanceReason host.disk with
      | some detail => .error (.maintenanceRequired detail)
      | none =>
        if store.bounds.maxDbBytes < saturatingAdd host.disk.dbBytes pending.payloadBytes then
          .error (.spaceExhausted "synthetic writer-admission space budget")
        else .ok ()
  else .ok ()

/-- The transaction of a request without a receipt: the body, its rows and the receipt row. -/
def stage (store : SqliteStore) (pending : PreparedMutation ρ) (host : Host) (db : Database ρ) :
    Except StorageError (Database ρ × Rows) := do
  insertAdmission store pending host
  let (s, rows) ← exchange host.body pending.body (db.begin host.clock)
  validateRows pending.shape rows
  let receipt : ReceiptRow := ⟨pending.operation.text, pending.request, encodeResponse rows⟩
  let (s, _) ← exchange host.record [insertReceipt receipt] s
  .ok (s.toDatabase, rows)

/-- The answer to a request whose receipt is present. -/
def replay (pending : PreparedMutation ρ) (receipt : ReceiptRow) : MutationOutcome :=
  if receipt.request ≠ pending.request then
    .conflict pending.operation "operation identity reused with different request"
  else
    match decodeResponse receipt.response with
    | .error e => .unknown pending.operation e.display
    | .ok rows =>
      match validateRows pending.shape rows with
      | .error e => .unknown pending.operation e.display
      | .ok () => outcome pending.shape pending.operation rows

def settle (pending : PreparedMutation ρ) (host : Host) (db staged : Database ρ) (rows : Rows) :
    Database ρ × MutationOutcome :=
  match host.commit with
  | .reply => (staged, outcome pending.shape pending.operation rows)
  | .lost applied e =>
    (if applied then staged else db, .unknown pending.operation e.toStorageError.display)

/-- Dispatches or idempotently reconciles the exact ticket. -/
def submit (store : SqliteStore) (pending : PreparedMutation ρ) (host : Host) (db : Database ρ) :
    Database ρ × MutationOutcome :=
  if pending.store ≠ store.identity then
    (db, .conflict pending.operation "request belongs to a different store")
  else
    match host.admission with
    | some e =>
      (db, if pending.attempted then .unknown pending.operation e.display
        else .notCommitted pending.operation e)
    | none =>
      match lookupReceipt host.lookup db pending.operation with
      | .error e => (db, .unknown pending.operation e.display)
      | .ok (some receipt) => (db, replay pending receipt)
      | .ok none =>
        match stage store pending host db with
        | .error (.conflict detail) => (db, .conflict pending.operation detail)
        | .error e => (db, .notCommitted pending.operation e)
        | .ok (staged, rows) => settle pending host db staged rows

/-- The lookup both reconciliations make behind the writer lock. -/
def barrierLookup (host : Host) (db : Database ρ) (operation : OperationId) :
    Except StorageError (Option ReceiptRow) :=
  match host.admission with
  | some e => .error e
  | none => lookupReceipt host.lookup db operation

/-- Read-only reconciliation of a ticket. -/
def reconcile (store : SqliteStore) (pending : PreparedMutation ρ) (host : Host) (db : Database ρ) :
    MutationOutcome :=
  match barrierLookup host db pending.operation with
  | .error e => .unknown pending.operation e.display
  | .ok (some receipt) =>
    if receipt.request = pending.request ∧ pending.store = store.identity then
      match decodeResponse receipt.response with
      | .error e => .unknown pending.operation e.display
      | .ok rows =>
        match validateRows pending.shape rows with
        | .error e => .unknown pending.operation e.display
        | .ok () => outcome pending.shape pending.operation rows
    else .conflict pending.operation "operation identity/request mismatch"
  | .ok none =>
    if pending.store = store.identity then
      .notCommitted pending.operation (failure "no receipt at writer barrier")
    else .conflict pending.operation "request belongs to a different store"

def Shape.parse (raw : String) : Except StorageError Shape :=
  if raw = "Insert" then .ok .insert
  else if raw = "Rows" then .ok .rows
  else if raw = "Change" then .ok .change
  else .error (failure "receipt kind unknown")

/-- The text before and after the first separator. -/
def splitOnce (sep : Char) (s : String) : Option (String × String) :=
  let (front, rest) := s.toList.span (· ≠ sep)
  match rest with
  | [] => none
  | _ :: back => some (String.ofList front, String.ofList back)

/-- The shape and rows a receipt stands for, read from its own texts. -/
def decodeReceipt (store : SqliteStore) (receipt : ReceiptRow) : Except StorageError (Shape × Rows) := do
  let request ← unhex receipt.request
  match splitOnce ':' request with
  | none => .error (failure "receipt request framing")
  | some (shape, rest) =>
    match splitOnce ':' rest with
    | none => .error (failure "receipt store framing")
    | some (storeText, _) =>
      if storeText ≠ store.identity then .error (failure "receipt store identity mismatch")
      else
        let shape ← Shape.parse shape
        let rows ← decodeResponse receipt.response
        validateRows shape rows
        .ok (shape, rows)

/-- Read-only reconciliation of a bare operation identity. -/
def reconcileOperation (store : SqliteStore) (operation : OperationId) (host : Host) (db : Database ρ) :
    MutationOutcome :=
  match barrierLookup host db operation with
  | .error e => .unknown operation e.display
  | .ok (some receipt) =>
    match decodeReceipt store receipt with
    | .error e => .unknown operation e.display
    | .ok (shape, rows) => outcome shape operation rows
  | .ok none => .notCommitted operation (failure "no receipt at writer barrier")

end Submit

end Verdant.Storage
