import Verdant.Library.TryProg
import Verdant.Observation.WindowTables

/-!
# The observation writer

`prepare` turns the difference of two images into one guarded batch under the identity `obw:ticket:<revision>`;
`submit` and `reconcile` answer through the replay horizon, because a receipt that is no longer there proves nothing;
`reconcileSaved` rebuilds the request of a ticket from its saved bytes, for comparison only.
-/

namespace Verdant.Observation

open Storage TextCodec

def replayRows : Nat := 64

/-- A prepared mutation of the window: the ticket, its revision and the bytes its caller saves. -/
structure Ticket where
  mutation : PreparedMutation WindowTables
  revision : Nat
  saved : String

def integer (n : Nat) : Except StorageError Nat :=
  if 2 ^ 63 - 1 < n then .error (invalid "SQLite integer range") else .ok n

def seqOf (raw : String) : Except StorageError Nat := do
  let fields ← object raw
  number fields "seq"

def revisionOf (raw : String) : Except StorageError Nat := do
  let fields ← object raw
  number fields "revision"

/-- The revision a mutation follows. -/
def expectedRevision : Option String → Except StorageError Nat
  | none => .ok 0
  | some raw => revisionOf raw

/-! ### The guard -/

def guardText : Option String → String
  | some raw => "(SELECT response FROM storage_receipts WHERE operation='obw:state' AND request='obw-state-v1')=" ++
      sqlQuote raw
  | none => "NOT EXISTS(SELECT 1 FROM storage_receipts WHERE operation='obw:state') AND NOT EXISTS(SELECT 1 FROM " ++
      "observations) AND NOT EXISTS(SELECT 1 FROM pins) AND NOT EXISTS(SELECT 1 FROM gaps)"

def guardHolds (old : Option String) (s : Session WindowTables) : Bool :=
  match old with
  | some raw => stateText s.receipts = some raw
  | none => !(s.receipts.any fun r => r.operation = stateOperation) && s.tables.observations.isEmpty &&
      s.tables.pins.isEmpty && s.tables.gaps.isEmpty

/-! ### The body -/

def dropPins (old new : Image) : Script WindowTables :=
  (old.pins.filter fun pin => pin ∉ new.pins).map fun pin => deletePin pin.id

def dropRows (scope producer : String) (old new : Image) : Except StorageError (Script WindowTables) := do
  let seqs ← old.rows.mapM fun raw => do integer (← seqOf raw)
  let kept := new.rows.filterMap fun raw => (seqOf raw).toOption
  .ok ((seqs.filter fun seq => seq ∉ kept).map (deleteObservation scope producer))

/-- The rows that are new or changed. -/
def addedRows (old new : Image) : List String := new.rows.filter fun raw => raw ∉ old.rows

def writeRows (scope producer : String) (revision : Nat) (old new : Image) :
    Except StorageError (Script WindowTables) := do
  (addedRows old new).forM fun raw => do
    let _ ← integer (← seqOf raw)
    .ok ()
  .ok ((addedRows old new).map fun raw => upsertObservation scope producer raw revision)

def payloadBytes (state : String) (old new : Image) : Except StorageError Nat :=
  let total := state.utf8ByteSize + ((addedRows old new).map String.utf8ByteSize).sum
  if 2 ^ 64 ≤ total then .error (invalid "payload overflow") else .ok total

def addPins (scope producer : String) (old new : Image) : Except StorageError (Script WindowTables) := do
  let added := new.pins.filter fun pin => pin ∉ old.pins
  added.forM fun pin => do
    let _ ← integer pin.seq
    let _ ← integer pin.admitSeq
    .ok ()
  .ok (added.map (insertPin scope producer))

def replaceGaps (scope producer : String) (old new : Image) : Except StorageError (Script WindowTables) :=
  if new.gaps = old.gaps then .ok []
  else do
    new.gaps.forM fun gap => do
      let _ ← integer gap.first
      let _ ← integer gap.last
      .ok ()
    .ok (deleteGaps scope producer :: new.gaps.map (insertGap scope producer))

/-- Only this owner's attempt receipts are pruned; the state row survives their expiry. -/
def prune (revision : Nat) : Script WindowTables :=
  if replayRows < revision then [pruneTickets (revision - replayRows)] else []

/-- What `prepare` computes from the two images alone. -/
structure Plan where
  revision : Nat
  body : Script WindowTables
  payloadBytes : Nat

def plan (old new : Image) : Except StorageError Plan :=
  match new.state with
  | none => .error (invalid "state missing")
  | some state => do
    let fields ← object state
    let revision ← integer (← number fields "revision")
    let expected ← expectedRevision old.state
    if expected + 1 ≠ revision then .error (invalid "revision must advance once")
    else
      let scope ← text fields "scope"
      let producer ← text fields "producer"
      let drops ← dropRows scope producer old new
      let writes ← writeRows scope producer revision old new
      let payload ← payloadBytes state old new
      let pins ← addPins scope producer old new
      let gaps ← replaceGaps scope producer old new
      .ok {
        revision := revision
        body := [createPayload] ++ dropPins old new ++ drops ++ writes ++ pins ++ gaps ++ prune revision ++
          [upsertState state, insertResult]
        payloadBytes := payload }

/-! ### Calls -/

def identitySql (store : SqliteStore) : Query WindowTables where
  text := "SELECT identity FROM storage_identity WHERE singleton=1;"
  rows _ _ := .ok [[store.identity]]

def identity (store : SqliteStore) : Call WindowTables (Except StorageError String) := do
  match ← Call.read (identitySql store) with
  | .error e => return .error e
  | .ok [[identity]] => return .ok identity
  | .ok _ => return .error (invalid "store identity")

def ticketOperation (revision : Nat) : Except StorageError OperationId :=
  (OperationId.parse (ticketPrefix ++ Nat.repr revision)).mapError fun e => invalid e.display

/-- The bytes a caller keeps across an interruption. -/
def savedBytes (store condition body : String) (revision payload : Nat) : String :=
  encode (put (put (put (put (put [] "store" store) "revision" (Nat.repr revision)) "condition" condition) "body" body)
    "payload" (Nat.repr payload))

def prepare (store : SqliteStore) (old new : Image) : Prog.Try (StoreOp.Answer (ρ := WindowTables)) StorageError Ticket := do
  let plan ← Prog.check (plan old new)
  let operation ← Prog.check (ticketOperation plan.revision)
  let id ← (Call.draw : Call WindowTables String)
  let batch ← Prog.check <|
    prepareGuardedBatch store id (guardText old.state) (guardHolds old.state) plan.body plan.payloadBytes
  let name ← Prog.attempt (identity store)
  return {
    mutation := batch.withOperation operation
    revision := plan.revision
    saved := savedBytes name (guardText old.state) plan.body.text plan.revision plan.payloadBytes }

/-- Whether the absence of a receipt of this revision still proves anything. -/
def horizon (image : Image) (revision : Nat) : Except StorageError Bool :=
  match image.state with
  | none => .ok false
  | some raw => do
    let current ← revisionOf raw
    .ok (current < revision ∨ current - revision < replayRows)

def retainedOutcome (outcome : MutationOutcome) (revision : Nat) : Call WindowTables MutationOutcome :=
  match outcome with
  | .notCommitted operation error => do
    match (← load) >>= fun image => horizon image revision with
    | .ok true => return .notCommitted operation error
    | .ok false =>
      return .unknown operation "outside receipt replay horizon; absence cannot prove original noncommit"
    | .error e => return .unknown operation s!"receipt retention unproved: {e.display}"
  | other => return other

def submit (store : SqliteStore) (ticket : Ticket) : Call WindowTables MutationOutcome := do
  retainedOutcome (← Call.submit store ticket.mutation) ticket.revision

/-- Absence after the replay horizon is not permission to submit fresh work. -/
def reconcile (store : SqliteStore) (ticket : Ticket) : Call WindowTables MutationOutcome := do
  retainedOutcome (← Call.reconcile store ticket.mutation) ticket.revision

/-- A batch body of which only the text is known; it is compared and never run. -/
def savedBody (text : String) : Script WindowTables := [⟨text, fun s => .ok (s, [])⟩]

def reconcileSaved (store : SqliteStore) (saved : String) :
    Prog.Try (StoreOp.Answer (ρ := WindowTables)) StorageError MutationOutcome := do
  let fields ← Prog.check (object saved)
  let owner ← Prog.check (text fields "store")
  let name ← Prog.attempt (identity store)
  if owner ≠ name then Prog.check (.error (invalid "receipt store mismatch"))
  else
    let revision ← Prog.check (do integer (← number fields "revision"))
    let operation ← Prog.check (ticketOperation revision)
    let payload ← Prog.check (number fields "payload")
    let condition ← Prog.check (text fields "condition")
    let body ← Prog.check (text fields "body")
    let id ← (Call.draw : Call WindowTables String)
    let batch ← Prog.check (prepareGuardedBatch store id condition (fun _ => false) (savedBody body) payload)
    (do retainedOutcome (← Call.reconcile store (batch.withOperation operation)) revision :
      Call WindowTables MutationOutcome)

end Verdant.Observation
