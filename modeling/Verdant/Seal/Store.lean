import Verdant.Binding.Registry
import Verdant.Seal.History

/-!
# The seal store

Sealing and releasing.  A seal stages the whole manifest, and commits one row under a guard on the authority, the rows of the
closure, the binding history and the seal history; a manifest that is sealed already gets an alias receipt over a temporary
table and no row.  A release is one more row of the same history.  Only a receipt proves a commit: an uncertain submit is
reconciled, and the row it names is read back.
-/

namespace Verdant.Seal

open TextCodec Storage Access Binding Prog

/-! ### Custody -/

/-- What the native owner and the sidecar of its custody answer to one call: whether the slot holds this guard, the paths of
the databases (`none` where one is not UTF-8) and the sidecar. -/
structure Custody where
  installed : Bool
  own : Except SealError (Option String)
  registry : Except SealError (Option String)
  gate : Except SealError (Option String)
  sidecar : Except SealError Artifact

def canonicalPath (answer : Except SealError (Option String)) : Except SealError String := do
  match ← answer with
  | some path => .ok path
  | none => .error (.invalid "store path UTF-8")

/-- The sidecar is a small regular file of this text. -/
def verifyMarker (sidecar : Except SealError Artifact) (expected : String) : Except SealError Unit := do
  let artifact ← sidecar
  if artifact.regular = false ∨ 8192 < artifact.length then .error (.invalid "custody sidecar")
  else if artifact.bytes.extract 0 8193 ≠ expected.toByteArray then
    .error (.conflict "custody sidecar belongs to another application store or is incomplete")
  else .ok ()

/-- The text of the sidecar of a pair of stores. -/
def custodyPair (own dir : Except SealError (Option String)) : Except SealError String := do
  let own ← canonicalPath own
  let dir ← canonicalPath dir
  .ok (encode ["verdant-custody-v1", own, dir])

/-- An application store with its native owner. -/
structure SealStore where
  store : SqliteStore
  native : NativeHandle
  custody : Custody

namespace SealStore

variable (self : SealStore)

def requireGuard : Except SealError Unit := do
  self.native.lock
  if self.custody.installed = false then .error (.conflict "application custody guard bypass refused")
  else
    let pair ← custodyPair self.custody.own self.native.dir
    verifyMarker self.custody.sidecar pair

def sameDatabase : Except SealError Unit := do
  let own ← canonicalPath self.custody.own
  let registry ← canonicalPath self.custody.registry
  if own ≠ registry then .error (.conflict "seal, binding and authority require the same database")
  else
    let gate ← canonicalPath self.custody.gate
    if own ≠ gate then .error (.conflict "seal, binding and authority require the same database") else .ok ()

end SealStore

/-! ### Batches -/

/-- Outbox identity is the seal; zero timestamps are no claim of a field time. -/
def sealRow (seq : Nat) (event : SealEvent) : NewRow where
  operation := event.operation
  entity := "seal-" ++ event.identity.text
  sensor := "seal-manifest"
  valueJson := (Value.text event.text).toJson
  unit := "count"
  sourceMs := "0"
  receiptMs := "0"
  ingestionMs := "0"
  generation := "gen-1"
  seq := Nat.repr seq

def insertSealText (row : NewRow) : String :=
  "INSERT INTO outbox(operation,entity,sensor,value_json,unit,source_ms,receipt_ms,ingestion_ms,generation,seq,status," ++
    "claimed_by,created_nanos) VALUES (" ++ sqlQuote row.operation ++ "," ++ sqlQuote row.entity ++ ",'seal-manifest'," ++
    sqlQuote row.valueJson ++ ",'count','0','0','0','gen-1','" ++ row.seq ++ "','queued',NULL,'0');"

def insertSeal (row : NewRow) : Statement OutboxTables := insertRow (insertSealText row) row fun _ => true

/-- The guard that the commit is before the expiry; its constraint has no name. -/
def sealLive : Option Int64 → Script OutboxTables
  | some expiry =>
    [{ createGuard "seal_live" "" with text := "CREATE TEMP TABLE seal_live(ok INTEGER NOT NULL CHECK(ok=1));" },
      insertGuard "seal_live" "ok=1" s!"CAST(unixepoch('subsec')*1000 AS INTEGER)<{expiry.toInt}"
        fun s => s.now < expiry.toInt]
  | none => []

def createAlias : Statement OutboxTables where
  text := "CREATE TEMP TABLE seal_alias(id INTEGER PRIMARY KEY);"
  exec s := .ok (s, [])

/-- The temporary row supplies the row id of the seal to the shape of the response; row ids are positive. -/
def insertAlias (rowId : Int) : Statement OutboxTables where
  text := s!"INSERT INTO seal_alias VALUES ({rowId});"
  exec s := .ok ({ s with lastInsertRowid := rowId.toNat, changes := 1 }, [])

def aliasBody (rowId : Int) (expiry : Option Int64) : Script OutboxTables :=
  sealLive expiry ++ [createAlias, insertAlias rowId]

def sealBody (seq : Nat) (event : SealEvent) (expiry : Option Int64) : Script OutboxTables :=
  sealLive expiry ++ [insertSeal (sealRow seq event)]

def rowBody (store : SqliteStore) (history : History) (event : SealEvent) (expiry : Option Int64) :
    Except SealError (Script OutboxTables) :=
  if maxHistory ≤ history.count then .error (.limit "seal history; explicit operator lifecycle required")
  else if store.bounds.maxValueBytes < (Value.text event.text).toJson.utf8ByteSize then .error (.limit "seal row bytes")
  else .ok (sealBody (history.count + 1) event expiry)

/-- `(a) AND (b) AND h`. -/
def aliasGuard (authority references history : Guard) : Guard where
  text := s!"({authority.text}) AND ({references.text}) AND {history.text}"
  holds tables := authority.holds tables && references.holds tables && history.holds tables

def sealGuard (authority references bindings history : Guard) : Guard where
  text := s!"(({authority.text}) AND ({references.text}) AND ({bindings.text})) AND {history.text}"
  holds tables := authority.holds tables && references.holds tables && bindings.holds tables && history.holds tables

def releaseGuard (authority history : Guard) : Guard where
  text := s!"({authority.text}) AND {history.text}"
  holds tables := authority.holds tables && history.holds tables

def committedRow : MutationOutcome → Except SealError Int
  | .committed _ rows =>
    match (((rows.head?.bind List.head?).bind parseI64).filter fun id => 0 < id) with
    | some id => .ok id
    | none => .error (.invalid "receipt row id")
  | .notCommitted _ error => .error (.storage error)
  | .conflict _ detail => .error (.conflict detail)
  | .unknown operation detail => .error (.unknown operation detail)

def authorityExpiry (authority : Authority) : Option Int64 := authority.report.actor.row.policy.expiresAtMs

namespace SealStore

variable (self : SealStore) (sha : Sha256)

def prepare (operation : OperationId) (condition : Guard) (body : Script OutboxTables) (payload : Nat) :
    SealCall (PreparedMutation OutboxTables) := do
  let id ← (Call.draw : Call OutboxTables String)
  let pending ← Prog.check ((prepareGuardedBatch self.store id condition.text (fun s => condition.holds s.tables) body
    payload).mapError SealError.storage)
  return pending.withOperation operation

/-- A submit, reconciled where its outcome is unknown. -/
def dispatch (pending : PreparedMutation OutboxTables) : Call OutboxTables (MutationOutcome × Bool) := do
  let first ← Call.submit self.store pending
  match first with
  | .unknown _ _ => return (← Call.reconcile self.store pending, true)
  | other => return (other, false)

/-! ### Commits -/

def commitOf (history : History) (rowId : Int) (identity : Digest) : Except SealError SealCommit :=
  match (history.get identity).filter fun commit => commit.rowId = rowId with
  | some commit => .ok commit
  | none => .error (.conflict "operation receipt does not identify these seal bytes")

def readCommit (rowId : Int) (identity : Digest) : SealCall SealCommit := do
  let history ← readHistory sha
  Prog.check (commitOf history rowId identity)

def reconcileInner (operation : OperationId) (identity : Digest) : SealCall (Option SealCommit) := do
  let outcome ← (Call.reconcileOperation self.store operation : Call OutboxTables MutationOutcome)
  if absent outcome then return none
  else
    let rowId ← Prog.check (committedRow outcome)
    let commit ← readCommit sha rowId identity
    return some { commit with reconciled := true }

def reconcile (operation : OperationId) (identity : Digest) : SealCall (Option SealCommit) := do
  Prog.check self.requireGuard
  self.reconcileInner sha operation identity

/-- The commit a dispatched ticket proves. -/
def settle (pending : PreparedMutation OutboxTables) (identity : Digest) : SealCall SealCommit := do
  let (outcome, reconciled) ← self.dispatch pending
  let rowId ← Prog.check (committedRow outcome)
  let commit ← readCommit sha rowId identity
  return { commit with reconciled := reconciled }

/-! ### Sealing -/

/-- A content duplicate under another operation: an alias receipt and no row. -/
def sealAlias (history : History) (existing : SealCommit) (authority : Authority) (references : Guard)
    (operation : OperationId) (manifest : Manifest) (identity : Digest) : SealCall SealCommit := do
  Prog.check (if identity ∈ history.released then .error .released
    else if existing.manifest ≠ manifest then .error (.conflict "digest collision: manifest bytes differ")
    else .ok ())
  let pending ← self.prepare operation (aliasGuard authority.guard references history.guard)
    (aliasBody existing.rowId (authorityExpiry authority)) 0
  self.settle sha pending identity

/-- The first row of an identity; `later` is the native store after the commit. -/
def sealFresh (later : NativeHandle) (history : History) (registry : BindingRegistry) (authority : Authority)
    (references : Guard) (operation : OperationId) (draft : Draft) (manifest : Manifest) (identity : Digest) :
    SealCall SealCommit := do
  Prog.check ((registry.requireRevision draft.revision).mapError SealError.binding)
  Prog.check (if maxLiveSeals ≤ history.live.length then .error (.limit "live seal custody") else .ok ())
  let body ← Prog.check (rowBody self.store history (.publish identity manifest) (authorityExpiry authority))
  let pending ← self.prepare operation (sealGuard authority.guard references registry.guard history.guard) body
    (Value.text (SealEvent.publish identity manifest).text).toJson.utf8ByteSize
  let commit ← self.settle sha pending identity
  -- availability is checked again before acceptance
  commit.manifest.verify later sha
  return commit

/-- What is there for a staged manifest: the commit of this operation, or the seal to alias, or nothing. -/
def sealStaged (later : NativeHandle) (registry : BindingRegistry) (authority : Authority) (references : Guard)
    (operation : OperationId) (draft : Draft) (manifest : Manifest) : SealCall SealCommit := do
  let identity ← Prog.check (manifest.identity sha)
  match ← self.reconcileInner sha operation identity with
  | some commit => return commit
  | none =>
    let history ← readHistory sha
    match history.get identity with
    | some existing => self.sealAlias sha history existing authority references operation manifest identity
    | none => self.sealFresh sha later history registry authority references operation draft manifest identity

def «seal» (build : Build) (later : NativeHandle) (operation : OperationId) (draft : Draft) (registry : BindingRegistry)
    (gate : AccessGate) (credential : Credential) (paths : CanonicalPaths) : SealCall (BindingRegistry × SealCommit) := do
  Prog.check self.requireGuard
  Prog.check self.sameDatabase
  let registry ← Prog.mapErr SealError.binding registry.replay
  let authority ← Prog.mapErr SealError.binding (authority gate (some credential) draft.scope .drive paths)
  let publisher := descriptor (actorFields authority.report.actor)
  let (manifest, references) ← Manifest.stage build draft publisher self.native sha
  let commit ← self.sealStaged sha later registry authority references operation draft manifest
  return (registry, commit)

/-! ### Releasing -/

/-- One more row: the end of the custody of an identity. -/
def releaseHeld (history : History) (authority : Authority) (operation : OperationId) (identity : Digest) :
    SealCall Unit := do
  let body ← Prog.check (rowBody self.store history (.release identity) (authorityExpiry authority))
  let pending ← self.prepare operation (releaseGuard authority.guard history.guard) body
    (SealEvent.release identity).text.utf8ByteSize
  let (outcome, _) ← self.dispatch pending
  let _ ← Prog.check (committedRow outcome)
  return ()

def release (operation : OperationId) (identity : Digest) (gate : AccessGate) (credential : Credential)
    (paths : CanonicalPaths) : SealCall Unit := do
  Prog.check self.requireGuard
  Prog.check self.sameDatabase
  let history ← readHistory sha
  match history.get identity with
  | none => throw (.missing identity.text)
  | some commit =>
    let authority ← Prog.mapErr SealError.binding (authority gate (some credential) commit.manifest.scope .drive paths)
    if identity ∈ history.released then return ()
    else self.releaseHeld history authority operation identity

/-! ### Reading -/

/-- The manifest of a seal that is held and available. -/
def captureSimulation (identity : Digest) : SealCall Manifest := do
  Prog.check self.requireGuard
  let history ← readHistory sha
  if identity ∈ history.released then throw .released
  else
    match history.get identity with
    | none => throw (.missing identity.text)
    | some commit =>
      commit.manifest.verify self.native sha
      return commit.manifest

end SealStore

/-! ### Pruning -/

/-- Why native bytes are not pruned. -/
structure CustodyPlan where
  liveSeals : List String
  generations : List Nat
  unavailable : Option SealError

/-- The whole pass is refused while a seal is live, or while the custody cannot be read. -/
def checkPrune (sha : Sha256) (sidecar : Except SealError Artifact) (pair : String) :
    Prog.Try (StoreOp.Answer (ρ := OutboxTables)) CustodyPlan Unit := do
  Prog.check ((verifyMarker sidecar pair).mapError fun e => ⟨[], [], some e⟩)
  let history ← Prog.mapErr (fun e => ⟨[], [], some e⟩) (readHistory sha)
  if history.live = [] then return ()
  else throw ⟨sortDedup (history.live.map fun commit => commit.identity.text),
    sortDedup (history.live.flatMap fun commit => commit.manifest.native.map fun ref => ref.generation.toNat), none⟩

end Verdant.Seal
