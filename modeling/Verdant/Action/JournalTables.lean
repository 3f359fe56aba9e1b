import Verdant.Domain.Types
import Verdant.Storage.Client
import Verdant.Storage.Guarded

/-!
# The tables of the action journal

`action_journal`, `action_targets` and `action_lifecycle` with the statements the journal runs on them.  A statement
fails where a key, a check or a foreign key of the tables refuses it.  No statement deletes a row, so the next row
identity of a table is one more than its number of rows.
-/

namespace Verdant.Action

open Storage TextCodec

/-- Lossless action kind persisted for every admission. -/
inductive ActionKind where
  | set
  | release
  deriving DecidableEq, Repr

def ActionKind.asStr : ActionKind → String
  | .set => "set"
  | .release => "release"

def ActionKind.parse (raw : String) : Option ActionKind :=
  if raw = "set" then some .set else if raw = "release" then some .release else none

@[simp]
theorem ActionKind.parse_asStr (kind : ActionKind) : ActionKind.parse kind.asStr = some kind := by
  cases kind <;> rfl

/-- Durable lifecycle state. -/
inductive LifecycleState where
  | admitted
  | dispatched
  | terminal
  | unresolved
  deriving DecidableEq, Repr

def LifecycleState.asStr : LifecycleState → String
  | .admitted => "admitted"
  | .dispatched => "dispatched"
  | .terminal => "terminal"
  | .unresolved => "unresolved"

def LifecycleState.parse (raw : String) : Option LifecycleState :=
  if raw = "admitted" then some .admitted
  else if raw = "dispatched" then some .dispatched
  else if raw = "terminal" then some .terminal
  else if raw = "unresolved" then some .unresolved
  else none

@[simp]
theorem LifecycleState.parse_asStr (state : LifecycleState) : LifecycleState.parse state.asStr = some state := by
  cases state <;> rfl

/-! ### Rows -/

/-- One row of `action_journal`; the identity columns of a legacy row are NULL.  The column `state` admits one text. -/
structure JournalRow where
  operation : String
  scope : String
  equipment : String
  bindingRevision : Nat
  acceptedRevision : Nat
  expectedGeneration : Nat
  targetGeneration : Nat
  payload : String
  deadlineSecs : Nat
  ceiling : Nat
  actor : String
  attempt : String
  created : Int
  wireBits : Option Nat
  actionKind : Option ActionKind
  releaseAdmitted : Option Bool
  releaseTarget : Option String
  deriving DecidableEq, Repr

/-- One row of `action_targets`; scope and equipment are the primary key. -/
structure TargetRow where
  scope : String
  equipment : String
  currentGeneration : Nat
  deriving DecidableEq, Repr

/-- One row of `action_lifecycle`; `operation` is the primary key. -/
structure LifecycleRow where
  operation : String
  attempt : String
  state : LifecycleState
  updated : Int
  predecessor : Option String
  deriving DecidableEq, Repr

structure JournalTables where
  journal : List JournalRow
  targets : List TargetRow
  lifecycle : List LifecycleRow
  deriving DecidableEq, Repr

def JournalTables.empty : JournalTables := ⟨[], [], []⟩

/-- The row is one of this target. -/
def JournalRow.onTarget (scope equipment : String) (r : JournalRow) : Bool :=
  r.scope = scope ∧ r.equipment = equipment

/-- SET rows, and the legacy rows that count as SET. -/
def JournalRow.isSet (r : JournalRow) : Bool := r.actionKind = some .set ∨ r.actionKind = none

namespace JournalTables

variable (tables : JournalTables)

def findJournal (operation : String) : Option JournalRow :=
  tables.journal.find? fun r => r.operation = operation

def findLifecycle (operation : String) : Option LifecycleRow :=
  tables.lifecycle.find? fun r => r.operation = operation

def findTarget (scope equipment : String) : Option TargetRow :=
  tables.targets.find? fun r => r.scope = scope ∧ r.equipment = equipment

/-- The durable generation of a target, 0 without a row. -/
def currentGeneration (scope equipment : String) : Nat :=
  ((tables.findTarget scope equipment).map TargetRow.currentGeneration).getD 0

/-- The durable lifecycle state of an operation: a missing row reads as admitted. -/
def lifecycleState (operation : String) : LifecycleState :=
  ((tables.findLifecycle operation).map LifecycleRow.state).getD .admitted

/-- The SET rows of a target inside the wall hour before `now`. -/
def rateCount (scope equipment : String) (now : Int) : Nat :=
  (tables.journal.filter fun r => r.onTarget scope equipment && decide (now - 3600 ≤ r.created) && r.isSet).length

end JournalTables

/-! ### Upserts -/

def upsertTargetRow (scope equipment : String) (generation : Nat) (targets : List TargetRow) : List TargetRow :=
  if targets.any fun r => r.scope = scope ∧ r.equipment = equipment then
    targets.map fun r =>
      if r.scope = scope ∧ r.equipment = equipment then { r with currentGeneration := generation } else r
  else targets ++ [⟨scope, equipment, generation⟩]

def upsertLifecycleRow (row : LifecycleRow) (lifecycle : List LifecycleRow) : List LifecycleRow :=
  if lifecycle.any fun r => r.operation = row.operation then
    lifecycle.map fun r =>
      if r.operation = row.operation then { r with state := row.state, updated := row.updated } else r
  else lifecycle ++ [row]

/-! ### The admission batch -/

/-- Lossless identity derived from a preview. -/
structure Identity where
  wireBits : UInt32
  kind : ActionKind
  releaseAdmitted : Bool
  releaseTarget : InstalledId
  deriving DecidableEq

/-- The values one admission batch writes. -/
structure Admission where
  operation : OperationId
  scope : TrustedScope
  equipment : InstalledId
  bindingRevision : BindingRevision
  acceptedRevision : AcceptedRevision
  expectedGeneration : UInt32
  targetGeneration : UInt32
  payload : String
  deadlineSecs : Nat
  ceiling : UInt8
  actor : String
  attempt : OperationId
  identity : Identity
  predecessor : Option OperationId

def Admission.row (a : Admission) (created : Int) : JournalRow where
  operation := a.operation.text
  scope := a.scope.text
  equipment := a.equipment.text
  bindingRevision := a.bindingRevision.value.toNat
  acceptedRevision := a.acceptedRevision.value.toNat
  expectedGeneration := a.expectedGeneration.toNat
  targetGeneration := a.targetGeneration.toNat
  payload := a.payload
  deadlineSecs := a.deadlineSecs
  ceiling := a.ceiling.toNat
  actor := a.actor
  attempt := a.attempt.text
  created := created
  wireBits := some a.identity.wireBits.toNat
  actionKind := some a.identity.kind
  releaseAdmitted := some a.identity.releaseAdmitted
  releaseTarget := some a.identity.releaseTarget.text

def Admission.lifecycleRow (a : Admission) (updated : Int) : LifecycleRow where
  operation := a.operation.text
  attempt := a.attempt.text
  state := .admitted
  updated := updated
  predecessor := a.predecessor.map OperationId.text

@[simp] theorem Admission.row_operation (a : Admission) (created : Int) :
    (a.row created).operation = a.operation.text := rfl

@[simp] theorem Admission.lifecycleRow_operation (a : Admission) (updated : Int) :
    (a.lifecycleRow updated).operation = a.operation.text := rfl

def nowSql : String := "CAST(strftime('%s','now') AS INTEGER)"

def bitSql (b : Bool) : String := if b then "1" else "0"

/-- The first `CHECK` of `action_journal` a row fails. -/
def JournalRow.failedCheck (r : JournalRow) : Option String :=
  if r.targetGeneration ≤ r.expectedGeneration then some "target_generation > expected_generation"
  else if r.deadlineSecs ≠ 5 then some "deadline_secs = 5"
  else none

def insertJournal (a : Admission) : Statement JournalTables :=
  .onTables
    ("INSERT INTO action_journal(operation, scope, equipment, binding_revision, accepted_revision, " ++
      "expected_generation, target_generation, payload, deadline_secs, ceiling, actor, attempt, state, created, " ++
      "wire_bits, action_kind, release_admitted, release_target) VALUES (" ++
      String.intercalate ", " [sqlQuote a.operation.text, sqlQuote a.scope.text, sqlQuote a.equipment.text,
        toString a.bindingRevision.value, toString a.acceptedRevision.value, toString a.expectedGeneration,
        toString a.targetGeneration, sqlQuote a.payload, toString a.deadlineSecs, toString a.ceiling,
        sqlQuote a.actor, sqlQuote a.attempt.text, "'admitted'", nowSql, toString a.identity.wireBits,
        sqlQuote a.identity.kind.asStr, bitSql a.identity.releaseAdmitted, sqlQuote a.identity.releaseTarget.text] ++
      ");")
    fun s =>
      let row := a.row s.now
      match row.failedCheck with
      | some check => .error ("CHECK constraint failed: " ++ check)
      | none =>
        if (s.tables.findJournal row.operation).isSome then
          .error "UNIQUE constraint failed: action_journal.operation"
        else .ok {
          tables := { s.tables with journal := s.tables.journal ++ [row] }
          lastInsertRowid := s.tables.journal.length + 1
          changes := 1
          rows := [] }

def upsertTarget (scope : TrustedScope) (equipment : InstalledId) (generation : UInt32) :
    Statement JournalTables :=
  .onTables
    (s!"INSERT INTO action_targets(scope, equipment, current_generation) VALUES ({sqlQuote scope.text}, " ++
      s!"{sqlQuote equipment.text}, {generation}) ON CONFLICT(scope, equipment) DO UPDATE SET " ++
      "current_generation=excluded.current_generation;")
    fun s => .ok {
      tables := { s.tables with
        targets := upsertTargetRow scope.text equipment.text generation.toNat s.tables.targets }
      lastInsertRowid :=
        if (s.tables.findTarget scope.text equipment.text).isSome then s.lastInsertRowid
        else s.tables.targets.length + 1
      changes := 1
      rows := [] }

/-- `lifecycle_insert_sql`: operation and predecessor are foreign keys into the journal. -/
def insertLifecycle (a : Admission) : Statement JournalTables :=
  .onTables
    (s!"INSERT INTO action_lifecycle(operation, attempt, state, updated, predecessor) VALUES " ++
      s!"({sqlQuote a.operation.text}, {sqlQuote a.attempt.text}, 'admitted', {nowSql}, " ++
      ((a.predecessor.map fun old => sqlQuote old.text).getD "NULL") ++ ");")
    fun s =>
      let row := a.lifecycleRow s.now
      if row.updated < 0 then .error "CHECK constraint failed: updated >= 0"
      else if (s.tables.findLifecycle row.operation).isSome then
        .error "UNIQUE constraint failed: action_lifecycle.operation"
      else if (s.tables.findJournal row.operation).isNone ||
          (row.predecessor.any fun old => (s.tables.findJournal old).isNone) then
        .error "FOREIGN KEY constraint failed"
      else .ok {
        tables := { s.tables with lifecycle := s.tables.lifecycle ++ [row] }
        lastInsertRowid := s.tables.lifecycle.length + 1
        changes := 1
        rows := [] }

/-- The per-target compare-and-swap: the durable generation is still the expected one. -/
def generationGuard (a : Admission) : Script JournalTables :=
  [createGuard "admission_generation" "admission_generation",
    insertGuard "admission_generation" "admission_generation"
      ("((SELECT COALESCE((SELECT current_generation FROM action_targets WHERE " ++
        s!"scope={sqlQuote a.scope.text} AND equipment={sqlQuote a.equipment.text}), 0)) = {a.expectedGeneration})")
      fun s => s.tables.currentGeneration a.scope.text a.equipment.text = a.expectedGeneration.toNat]

/-- `OWNED_RATE_MAX_PER_HOUR`. -/
def ownedRateMaxPerHour : Nat := 6

/-- `rate_guard_sql`: for SET admissions only. -/
def rateGuard (a : Admission) : Script JournalTables :=
  [createGuard "admission_rate" "admission_rate",
    insertGuard "admission_rate" "admission_rate"
      (s!"((SELECT COUNT(*) FROM action_journal WHERE scope={sqlQuote a.scope.text} AND " ++
        s!"equipment={sqlQuote a.equipment.text} AND created >= {nowSql}-3600 AND " ++
        s!"(action_kind='set' OR action_kind IS NULL))) < {ownedRateMaxPerHour}")
      fun s => s.tables.rateCount a.scope.text a.equipment.text s.now < ownedRateMaxPerHour]

def admissionBodyV2 (a : Admission) : Script JournalTables :=
  generationGuard a ++ (if a.identity.kind = .set then rateGuard a else []) ++
    [insertJournal a, upsertTarget a.scope a.equipment a.targetGeneration, insertLifecycle a]

/-! ### The transition batch -/

/-- The upsert to `newState`; it writes nothing without a journal row and keeps the predecessor. -/
def upsertLifecycle (operation : OperationId) (newState : LifecycleState) : Statement JournalTables :=
  .onTables
    (s!"INSERT INTO action_lifecycle(operation, attempt, state, updated, predecessor) SELECT " ++
      s!"{sqlQuote operation.text}, attempt, {sqlQuote newState.asStr}, {nowSql}, NULL FROM action_journal WHERE " ++
      s!"operation={sqlQuote operation.text} ON CONFLICT(operation) DO UPDATE SET state=excluded.state, " ++
      "updated=excluded.updated;")
    fun s =>
      match s.tables.findJournal operation.text with
      | none => .ok { tables := s.tables, lastInsertRowid := s.lastInsertRowid, changes := 0, rows := [] }
      | some journal =>
        if s.now < 0 then .error "CHECK constraint failed: updated >= 0"
        else .ok {
          tables := { s.tables with
            lifecycle := upsertLifecycleRow ⟨operation.text, journal.attempt, newState, s.now, none⟩
              s.tables.lifecycle }
          lastInsertRowid :=
            if (s.tables.findLifecycle operation.text).isSome then s.lastInsertRowid
            else s.tables.lifecycle.length + 1
          changes := 1
          rows := [] }

def transitionBody (operation : OperationId) (newState : LifecycleState) : Script JournalTables :=
  [upsertLifecycle operation newState]

/-! ### Reads -/

def nullable (cell : Option String) : String := cell.getD ""

/-- The twenty columns of the lifecycle join, as the list mode prints them: NULL is the empty text. -/
def JournalRow.columns (r : JournalRow) (l : Option LifecycleRow) : List String :=
  [r.operation, r.scope, r.equipment, Nat.repr r.bindingRevision, Nat.repr r.acceptedRevision,
    Nat.repr r.expectedGeneration, Nat.repr r.targetGeneration, r.payload, Nat.repr r.deadlineSecs,
    Nat.repr r.ceiling, r.actor, r.attempt, "admitted", nullable (r.wireBits.map Nat.repr),
    nullable (r.actionKind.map ActionKind.asStr), nullable (r.releaseAdmitted.map bitSql),
    nullable r.releaseTarget, toString r.created, ((l.map LifecycleRow.state).getD .admitted).asStr,
    nullable (l.bind LifecycleRow.predecessor)]

def readRowWhere (operation : OperationId) (scope : TrustedScope) (tables : JournalTables) : List JournalRow :=
  tables.journal.filter fun r => r.operation = operation.text ∧ r.scope = scope.text

/-- `read_row_sql`. -/
def readRowSql (operation : OperationId) (scope : TrustedScope) : Query JournalTables where
  text := "SELECT j.operation, j.scope, j.equipment, j.binding_revision, j.accepted_revision, " ++
    "j.expected_generation, j.target_generation, j.payload, j.deadline_secs, j.ceiling, j.actor, j.attempt, " ++
    "j.state, j.wire_bits, j.action_kind, j.release_admitted, j.release_target, j.created, " ++
    "COALESCE(l.state, 'admitted'), l.predecessor FROM action_journal j LEFT JOIN action_lifecycle l ON " ++
    s!"l.operation=j.operation WHERE j.operation={sqlQuote operation.text} AND j.scope={sqlQuote scope.text};"
  rows _ db := .ok <|
    (readRowWhere operation scope db.tables).map fun r => r.columns (db.tables.findLifecycle r.operation)

/-- The read of the older shapes: the first `width` columns, without the lifecycle join. -/
def legacyRowSql (width : Nat) (operation : OperationId) (scope : TrustedScope) : Query JournalTables where
  text := "SELECT " ++ String.intercalate ", " (["operation", "scope", "equipment", "binding_revision",
    "accepted_revision", "expected_generation", "target_generation", "payload", "deadline_secs", "ceiling", "actor",
    "attempt", "state", "wire_bits", "action_kind", "release_admitted", "release_target"].take width) ++
    s!" FROM action_journal WHERE operation={sqlQuote operation.text} AND scope={sqlQuote scope.text};"
  rows _ db := .ok <| (readRowWhere operation scope db.tables).map fun r => (r.columns none).take width

def currentGenerationSql (scope : TrustedScope) (equipment : InstalledId) : Query JournalTables where
  text := s!"SELECT current_generation FROM action_targets WHERE scope={sqlQuote scope.text} AND " ++
    s!"equipment={sqlQuote equipment.text};"
  rows _ db := .ok <| (db.tables.targets.filter fun r => r.scope = scope.text ∧ r.equipment = equipment.text).map
    fun r => [Nat.repr r.currentGeneration]

def rateUsedSql (scope : TrustedScope) (equipment : InstalledId) : Query JournalTables where
  text := s!"SELECT COUNT(*) FROM action_journal WHERE scope={sqlQuote scope.text} AND " ++
    s!"equipment={sqlQuote equipment.text} AND created >= {nowSql}-3600 AND " ++
    "(action_kind='set' OR action_kind IS NULL);"
  rows now db := .ok [[Nat.repr (db.tables.rateCount scope.text equipment.text now)]]

end Verdant.Action
