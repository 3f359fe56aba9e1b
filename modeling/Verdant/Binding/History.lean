import Verdant.Access.State
import Verdant.Binding.Entries

/-!
# Binding replay

The memory of a registry and its reconstruction from the rows.  `replay` clears the memory and folds the rows in their
order: sequence, version and revision are checked against what the rows before gave, each row is conjoined to the guard
of the next mutation, and a row that does not read ends the replay with a refusal.
-/

namespace Verdant.Binding

open TextCodec Storage

/-! ### Memory -/

/-- The in-memory maps, sets and lists of a registry with its revision. -/
structure Memory where
  equipment : String → Option EquipmentRecord
  spaces : String → Option SpaceRecord
  sources : String → Option SourceRecord
  points : String → Option PointRecord
  bindings : List ProposedBinding
  findings : List Finding
  retired : Finset String
  retiredAddrs : Finset String
  reassessment : Finset String
  revision : BindingRevision

/-- The map with one more entry. -/
def put {α : Type} (key : String) (value : α) (map : String → Option α) : String → Option α :=
  fun k => if k = key then some value else map k

namespace Memory

def empty : Memory where
  equipment _ := none
  spaces _ := none
  sources _ := none
  points _ := none
  bindings := []
  findings := []
  retired := ∅
  retiredAddrs := ∅
  reassessment := ∅
  revision := ⟨0⟩

/-- `saturating_add(1)`. -/
def bumpRevision (memory : Memory) : Memory :=
  { memory with revision := ⟨(checkedSucc memory.revision.value).getD memory.revision.value⟩ }

variable (memory : Memory)

def replayEquipment (record : EquipmentRecord) : Memory :=
  { memory with
    reassessment :=
      if record.address.text ∈ memory.retiredAddrs then insert record.id.text memory.reassessment
      else memory.reassessment
    equipment := put record.id.text record memory.equipment }.bumpRevision

def replaySpace (record : SpaceRecord) : Memory :=
  { memory with spaces := put record.id.text record memory.spaces }.bumpRevision

def replaySource (record : SourceRecord) : Memory :=
  { memory with sources := put record.id.text record memory.sources }.bumpRevision

def replayPoint (record : PointRecord) : Memory :=
  { memory with
    points := put (pointKey record.equipment.text record.property.text) record memory.points }.bumpRevision

def replayPropose (binding : ProposedBinding) : Memory :=
  { memory with bindings := memory.bindings ++ [binding] }.bumpRevision

def replayRetire (id address : String) : Memory :=
  { memory with
    retired := insert id memory.retired
    retiredAddrs := insert address memory.retiredAddrs }.bumpRevision

def replayFinding (finding : Finding) : Memory := { memory with findings := memory.findings ++ [finding] }

/-- What the row of an event does to the memory. -/
def replay : Event → Memory
  | .equipment record => memory.replayEquipment record
  | .space record => memory.replaySpace record
  | .source record => memory.replaySource record
  | .point record => memory.replayPoint record
  | .propose binding => memory.replayPropose binding
  | .retire id address => memory.replayRetire id address
  | .finding finding => memory.replayFinding finding

end Memory

/-! ### Rows -/

/-- Historical bytes only. -/
structure HistoryRow where
  id : Int
  sequence : Nat
  operation : String
  entity : String
  descriptor : String
  valueJson : String

def isBinding (r : OutboxRecord) : Bool := likePrefix "binding-" r.operation

def bindingColumns (r : OutboxRecord) : List String :=
  [sqlQuote r.operation, sqlQuote r.entity, sqlQuote r.valueJson, Nat.repr r.id, r.seq]

def selectBindings : Query OutboxTables :=
  selectLog ("SELECT quote(operation), quote(entity), quote(value_json), id, seq FROM outbox WHERE operation LIKE " ++
    sqlQuote "binding-%" ++ " ORDER BY id;") isBinding bindingColumns none

/-- A quoted column, with the refusal of a `NULL`. -/
def textColumn (absent : BindingError) (column : String) : Except BindingError String := do
  match ← (unquoteText column).mapError fun _ => unreadable s!"quoted binding column malformed: '{column}'" with
  | some text => .ok text
  | none => .error absent

def rowValue (valueJson : String) : Except BindingError Value :=
  (Value.fromJson valueJson).mapError fun e => unreadable s!"binding value invalid: {e.display}"

def rowId (column : String) : Except BindingError Int :=
  match (parseI64 column).filter fun n => 0 < n with
  | some id => .ok id
  | none => .error (unreadable "binding row identity invalid")

def rowSequence (column : String) : Except BindingError Nat :=
  match parseU64 column with
  | some n => .ok n
  | none => .error (unreadable "binding sequence invalid")

def decodeRow : List String → Except BindingError HistoryRow
  | [c0, c1, c2, c3, c4] => do
    let operation ← textColumn (unreadable "binding operation is NULL") c0
    if operation ∉ bindingOperations then .error (unreadable s!"unexpected binding operation '{operation}'")
    else
      let valueJson ← textColumn (unreadable "binding value is NULL") c2
      let value ← rowValue valueJson
      let entity ← textColumn (unreadable "binding entity is NULL") c1
      let id ← rowId c3
      let sequence ← rowSequence c4
      match value with
      | .text descriptor => .ok ⟨id, sequence, operation, entity, descriptor, valueJson⟩
      | _ => .error (unreadable "binding value is not text")
  | cols => .error (unreadable s!"binding scan row has {cols.length} columns, expected 5")

def decodeRows (rows : Rows) : Except BindingError (List HistoryRow) := rows.mapM decodeRow

/-! ### Replay -/

def countBindings (n : Nat) : Guard where
  text := s!"(SELECT COUNT(*) FROM outbox WHERE operation LIKE 'binding-%')={n}"
  holds := countIs isBinding n

/-- The conjunct of one row. -/
def bindingExists (row : HistoryRow) : String :=
  s!" AND EXISTS(SELECT 1 FROM outbox WHERE id={row.id} AND operation={sqlQuote row.operation} AND " ++
    s!"entity={sqlQuote row.entity} AND value_json={sqlQuote row.valueJson} AND " ++
    s!"seq={sqlQuote (Nat.repr row.sequence)})"

def bindingPresent (row : HistoryRow) : OutboxTables → Bool :=
  present fun r => r.id = row.id && r.operation = row.operation && r.entity = row.entity &&
    r.valueJson = row.valueJson && r.seq = Nat.repr row.sequence

/-- A replay under way. -/
structure Replay where
  memory : Memory
  guard : Guard
  count : Nat

def Replay.start (rows : Nat) : Replay := ⟨.empty, countBindings rows, 0⟩

def Replay.push (state : Replay) (row : HistoryRow) : Except BindingError Replay :=
  if row.sequence ≠ state.count + 1 then
    .error (unreadable "binding history has a duplicate or missing sequence")
  else do
    let guard := state.guard.also (bindingExists row) (bindingPresent row)
    let map ← splitBinding row.descriptor
    let version ← field map "v"
    if version ≠ "2" then .error (unreadable s!"unsupported binding descriptor version '{version}'")
    else
      let revision ← storedRevision map
      if revision ≠ state.memory.revision then
        .error (unreadable "binding row revision does not match durable predecessor")
      else
        let kind ← field map "kind"
        let event ← decodeEvent row.operation kind map
        .ok ⟨state.memory.replay event, guard, state.count + 1⟩

/-- Durable binding registry: a store handle with the memory of its last replay. -/
structure BindingRegistry where
  store : SqliteStore
  memory : Memory
  sequence : Nat
  guard : Guard

/-- A fallible call of the binding module. -/
abbrev BindingCall (α : Type) := Prog.Try (StoreOp.Answer (ρ := OutboxTables)) BindingError α

namespace BindingRegistry

def ofRows (store : SqliteStore) (rows : List HistoryRow) : Except BindingError BindingRegistry := do
  let replay ← rows.foldlM Replay.push (Replay.start rows.length)
  .ok ⟨store, replay.memory, replay.count, replay.guard⟩

def replay (registry : BindingRegistry) : BindingCall BindingRegistry := do
  let rows ← Prog.mapErr BindingError.store (Prog.attempt (Call.read selectBindings))
  Prog.check (decodeRows rows >>= ofRows registry.store)

theorem replay_noSubmit (registry : BindingRegistry) : registry.replay.run.Issues NoSubmit :=
  Prog.Issues.tryBind (Prog.Issues.mapErr (Prog.issues_issue trivial)) fun _ => Prog.issues_check

end BindingRegistry

end Verdant.Binding
