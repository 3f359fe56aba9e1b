import Verdant.Observation.Record

/-!
# The synthetic receiver

An in-memory ledger of producers, records and selected bindings with the `current` table derived from them.  The access
gate is asked first by every call; what it answers is a parameter of the call.  A call passes the receiver, and the
producer it was lent, through: what it had written before it failed stays written.
-/

namespace Verdant.Observation

open Access

structure ProducerCheckpoint where
  scope : TrustedScope
  producer : ProducerId
  generation : SourceGenerationId
  next : Nat
  deriving DecidableEq

/-- A producer handle; it is moved, never copied, and a call that emits updates it. -/
structure Producer where
  checkpoint : ProducerCheckpoint
  incarnation : ProducerIncarnation
  lease : Nat
  deriving DecidableEq

def checkedAdd64 (n : Nat) : Option Nat := if n + 1 < 2 ^ 64 then some (n + 1) else none

def Producer.nextId (producer : Producer) : Except Error (ObservationId × Nat) :=
  match checkedAdd64 producer.checkpoint.next with
  | none => .error (.invalid "producer sequence exhausted")
  | some next => .ok
      (⟨producer.checkpoint.scope, producer.checkpoint.producer,
        ⟨producer.checkpoint.generation, producer.checkpoint.next⟩⟩, next)

structure LedgerEntry where
  checkpoint : ProducerCheckpoint
  lease : Nat
  deriving DecidableEq

structure Stored where
  observation : NormalizedObservation
  freshness : Freshness
  deriving DecidableEq

structure Current where
  scope : TrustedScope
  key : InstalledId
  record : Nat
  deriving DecidableEq

structure SyntheticReceiver where
  namespaceId : SourceGenerationId
  allocation : Nat
  limit : Nat
  producers : List LedgerEntry
  records : List Stored
  bindings : List BindingContext
  current : List Current
  deriving DecidableEq

namespace SyntheticReceiver

def new (namespaceId : SourceGenerationId) (limit : Nat) : Except Error SyntheticReceiver :=
  if limit = 0 ∨ 96 < namespaceId.text.utf8ByteSize then .error (.invalid "receiver namespace/capacity")
  else .ok ⟨namespaceId, 0, limit, [], [], [], []⟩

def allocate (receiver : SyntheticReceiver) : SyntheticReceiver × Except Error (SourceGenerationId × Nat) :=
  match checkedAdd64 receiver.allocation with
  | none => (receiver, .error (.invalid "receiver generation exhausted"))
  | some allocation =>
    match SourceGenerationId.parse (receiver.namespaceId.text ++ ":" ++ Nat.repr allocation) with
    | .error e => (receiver, .error (.domain e))
    | .ok generation => ({ receiver with allocation := allocation }, .ok (generation, allocation))

/-! ### The current table -/

/-- Neither late arrivals nor an incomparable boot can become current. -/
def supersedes (new old : NormalizedObservation) : Bool :=
  (new.time.receiptMark.elapsedSince old.time.receiptMark).isSome &&
    !(decide (new.content.receiptTime < old.content.receiptTime)) &&
    !(match new.time.times.source, old.time.times.source with
      | some n, some o => decide (n < o)
      | _, _ => false)

def consider (records : List Stored) (bindings : List BindingContext) (current : List Current) (index : Nat) :
    List Current :=
  match records[index]? with
  | none => current
  | some stored =>
    let context := stored.observation.binding
    if context ∉ bindings then current
    else match current.findIdx? fun c => c.scope = context.scope ∧ c.key = context.key with
      | some slot =>
        match current[slot]? with
        | none => current
        | some held =>
          match records[held.record]? with
          | none => current
          | some old =>
            if supersedes stored.observation old.observation then current.set slot { held with record := index }
            else current
      | none => current ++ [⟨context.scope, context.key, index⟩]

/-- What `consider` makes of the first `n` records, in order. -/
def currentOf (records : List Stored) (bindings : List BindingContext) (n : Nat) : List Current :=
  (List.range n).foldl (consider records bindings) []

def rebuildCurrent (receiver : SyntheticReceiver) : SyntheticReceiver :=
  { receiver with current := currentOf receiver.records receiver.bindings receiver.records.length }

/-! ### Calls -/

def start (receiver : SyntheticReceiver) (gate : Except AccessError Unit) (scope : TrustedScope)
    (producer : ProducerId) (incarnation : ProducerIncarnation) : SyntheticReceiver × Except Error Producer :=
  match gate with
  | .error e => (receiver, .error (.access e))
  | .ok _ =>
    if receiver.producers.any fun p => p.checkpoint.scope = scope ∧ p.checkpoint.producer = producer then
      (receiver, .error (.conflict "producer exists; reconcile its checkpoint"))
    else if receiver.limit ≤ receiver.producers.length then (receiver, .error (.invalid "producer capacity"))
    else match receiver.allocate with
      | (receiver, .error e) => (receiver, .error e)
      | (receiver, .ok (generation, lease)) =>
        ({ receiver with producers := receiver.producers ++ [⟨⟨scope, producer, generation, 0⟩, lease⟩] },
          .ok ⟨⟨scope, producer, generation, 0⟩, incarnation, lease⟩)

def resume (receiver : SyntheticReceiver) (gate : Except AccessError Unit) (restored : ProducerCheckpoint)
    (incarnation : ProducerIncarnation) : SyntheticReceiver × Except Error Producer :=
  match gate with
  | .error e => (receiver, .error (.access e))
  | .ok _ =>
    match receiver.producers.findIdx? fun p =>
        p.checkpoint.scope = restored.scope ∧ p.checkpoint.producer = restored.producer with
    | none => (receiver, .error (.conflict "receiver has no continuity evidence"))
    | some index =>
      let intact := receiver.producers[index]?.map LedgerEntry.checkpoint = some restored
      -- every resume takes a lease, and so fences a producer still held; a rolled back one gets a generation too
      match receiver.allocate with
      | (receiver, .error e) => (receiver, .error e)
      | (receiver, .ok (freshGeneration, lease)) =>
        let checkpoint : ProducerCheckpoint :=
          if intact then restored else ⟨restored.scope, restored.producer, freshGeneration, 0⟩
        ({ receiver with producers := receiver.producers.set index ⟨checkpoint, lease⟩ },
          .ok ⟨checkpoint, incarnation, lease⟩)

def selectBinding (receiver : SyntheticReceiver) (gate : Except AccessError Unit) (expected : Option BindingContext)
    (selected : BindingContext) : SyntheticReceiver × Except Error Unit :=
  match gate with
  | .error e => (receiver, .error (.access e))
  | .ok _ =>
    let old := receiver.bindings.findIdx? fun b => b.scope = selected.scope ∧ b.key = selected.key
    let held := old.bind fun i => receiver.bindings[i]?
    if held ≠ expected then (receiver, .error (.conflict "selection changed"))
    else match old, held with
      | some i, some binding =>
        if binding = selected then (receiver, .ok ())
        else if selected.activeGeneration ≤ binding.activeGeneration then
          (receiver, .error (.conflict "selection requires a newer activation"))
        else (({ receiver with bindings := receiver.bindings.set i selected }).rebuildCurrent, .ok ())
      | _, _ =>
        if receiver.limit ≤ receiver.bindings.length then (receiver, .error (.invalid "binding capacity"))
        else (({ receiver with bindings := receiver.bindings ++ [selected] }).rebuildCurrent, .ok ())

def emit (receiver : SyntheticReceiver) (gate : Except AccessError Unit) (producer : Producer)
    (pending : PendingObservation) : SyntheticReceiver × Producer × Except Error NormalizedObservation :=
  match gate with
  | .error e => (receiver, producer, .error (.access e))
  | .ok _ =>
    match receiver.producers.findIdx? fun p => p.checkpoint = producer.checkpoint ∧ p.lease = producer.lease with
    | none => (receiver, producer, .error (.conflict "stale producer or restored counter"))
    | some index =>
      if receiver.limit ≤ receiver.records.length then
        (receiver, producer, .error (.invalid "observation capacity; no eviction"))
      else match producer.nextId with
        | .error e => (receiver, producer, .error e)
        | .ok (id, next) =>
          match pending.identify id producer.incarnation with
          | .error e => (receiver, producer, .error e)
          | .ok observation =>
            -- advanced only after construction
            let records := receiver.records ++ [⟨observation, observation.freshnessAtIngestion⟩]
            ({ receiver with
                producers := receiver.producers.modify index fun p =>
                  { p with checkpoint := { p.checkpoint with next := next } }
                records := records
                current := consider records receiver.bindings receiver.current (records.length - 1) },
              { producer with checkpoint := { producer.checkpoint with next := next } }, .ok observation)

/-- The value the current table holds for a key, with the freshness it now reads. -/
structure CurrentValue where
  observation : NormalizedObservation
  freshness : Freshness
  suitability : Suitability
  deriving DecidableEq

def readCurrent (receiver : SyntheticReceiver) (gate : Except AccessError Unit) (scope : TrustedScope)
    (key : InstalledId) (now : ClockReading) : SyntheticReceiver × Except Error (Option CurrentValue) :=
  match gate with
  | .error e => (receiver, .error (.access e))
  | .ok _ =>
    match receiver.current.find? fun c => c.scope = scope ∧ c.key = key with
    | none => (receiver, .ok none)
    | some held =>
      match receiver.records[held.record]? with
      | none => (receiver, .ok none)
      | some stored =>
        let freshness := stored.freshness.retain (stored.observation.assess now)
        let suitability := match stored.observation.content.suitability with
          | .syntheticValueOnly => if freshness ≠ .fresh then .refused .notFresh else .syntheticValueOnly
          | refused => refused
        ({ receiver with records := receiver.records.set held.record { stored with freshness := freshness } },
          .ok (some ⟨stored.observation, freshness, suitability⟩))

/-- `into_image` and then `reopen`. -/
def reopen (receiver : SyntheticReceiver) : SyntheticReceiver := receiver.rebuildCurrent

end SyntheticReceiver

/-! ### Sessions -/

/-- A receiver with the producer handles its calls returned, in order. -/
structure ReceiverSession where
  receiver : SyntheticReceiver
  producers : List Producer

inductive ReceiverCall where
  | start (gate : Except AccessError Unit) (scope : TrustedScope) (producer : ProducerId)
      (incarnation : ProducerIncarnation)
  | resume (gate : Except AccessError Unit) (restored : ProducerCheckpoint) (incarnation : ProducerIncarnation)
  | selectBinding (gate : Except AccessError Unit) (expected : Option BindingContext) (selected : BindingContext)
  | emit (gate : Except AccessError Unit) (handle : Nat) (pending : PendingObservation)
  | current (gate : Except AccessError Unit) (scope : TrustedScope) (key : InstalledId) (now : ClockReading)
  | reopen

inductive ReceiverReply where
  | done
  | emitted (observation : NormalizedObservation)
  | read (value : Option SyntheticReceiver.CurrentValue)

namespace ReceiverSession

def hold (session : ReceiverSession) : SyntheticReceiver × Except Error Producer → ReceiverSession × Except Error ReceiverReply
  | (receiver, .error e) => ({ session with receiver := receiver }, .error e)
  | (receiver, .ok producer) => (⟨receiver, session.producers ++ [producer]⟩, .ok .done)

def call (session : ReceiverSession) : ReceiverCall → ReceiverSession × Except Error ReceiverReply
  | .start gate scope producer incarnation => session.hold (session.receiver.start gate scope producer incarnation)
  | .resume gate restored incarnation => session.hold (session.receiver.resume gate restored incarnation)
  | .selectBinding gate expected selected =>
    let out := session.receiver.selectBinding gate expected selected
    ({ session with receiver := out.1 }, out.2.map fun _ => .done)
  | .emit gate handle pending =>
    match session.producers[handle]? with
    | none => (session, .ok .done)
    | some producer =>
      let out := session.receiver.emit gate producer pending
      (⟨out.1, session.producers.set handle out.2.1⟩, out.2.2.map .emitted)
  | .current gate scope key now =>
    let out := session.receiver.readCurrent gate scope key now
    ({ session with receiver := out.1 }, out.2.map .read)
  | .reopen => ({ session with receiver := session.receiver.reopen }, .ok .done)

def run (session : ReceiverSession) (calls : List ReceiverCall) : ReceiverSession :=
  calls.foldl (fun session c => (session.call c).1) session

end ReceiverSession

end Verdant.Observation
