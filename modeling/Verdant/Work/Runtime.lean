import Verdant.Binding.Proposal
import Verdant.Work.Admission

/-!
# The runtime

One owner with bounded intake, workers it starts and joins, and a state.  `poll` looks at each running job once and
`stop` polls until everything is joined or its time is over, so both are runs of smaller turns; a job may finish between
any two of them.  Clock readings are the clock of the process plus the time since the last reading.
-/

namespace Verdant.Work

open Binding

/-- What the runtime hands on without looking inside: the opened owners, a selection with the binding it has under a
key, credentials, envelopes, and the threads it spawns. -/
structure World where
  Owners : Type
  Selection : Type
  Credential : Type
  Envelope : Type
  Thread : Type
  entry : Selection → String → Option ProposedBinding

/-! ### Data -/

structure RuntimeIncarnation where
  value : Nat
  deriving DecidableEq, Repr

structure SourceGeneration where
  value : Nat
  deriving DecidableEq, Repr

structure WorkId where
  incarnation : RuntimeIncarnation
  sequence : Nat
  deriving DecidableEq, Repr

inductive RuntimeState where
  | disabled
  | stopped
  | starting
  | runningInert
  | held
  | stopping
  | unresolved
  deriving DecidableEq, Repr

/-- Between the call of `stop` and the join of the last job. -/
def RuntimeState.draining (state : RuntimeState) : Bool := state = .stopping ∨ state = .unresolved

structure Lease where
  db : String
  native : String
  deriving DecidableEq

structure Session (W : World) where
  selected : W.Selection
  credential : W.Credential
  incarnation : RuntimeIncarnation
  source : SourceGeneration

structure Queued where
  id : WorkId
  workClass : WorkClass
  key : String
  deadline : Nat

/-- What a worker returns. -/
inductive Output (W : World) where
  | started (owners : W.Owners) (selected : Except RuntimeError W.Selection) (credential : W.Credential)
    (source : SourceGeneration)
  | read (raw : W.Envelope)

/-- A spawned worker with its cancellation flag. -/
structure Task (W : World) where
  thread : W.Thread
  cancelled : Bool

/-- A job that is not joined; it holds a running slot and a retained slot of its class.  A start has no work id. -/
structure Running (W : World) where
  id : Option WorkId
  incarnation : RuntimeIncarnation
  deadline : Nat
  workClass : WorkClass
  task : Task W

/-- A result that is not taken; it holds the retained slot. -/
structure Completed (W : World) where
  id : WorkId
  result : Except RuntimeError W.Envelope
  workClass : WorkClass

def Running.cancel {W : World} (job : Running W) : Running W := { job with task := { job.task with cancelled := true } }

/-- The worker has gone on to another point. -/
def Running.advance {W : World} (thread : W.Thread) (job : Running W) : Running W :=
  { job with task := { job.task with thread := thread } }

/-- The runtime; `clock`, `incarnations` and `sources` belong to the process. -/
structure Runtime (W : World) where
  lease : Option Lease
  scope : Option TrustedScope
  owners : Option W.Owners
  opened : Bool
  session : Option (Session W)
  incarnation : Option RuntimeIncarnation
  sequence : Nat
  state : RuntimeState
  lastError : Option String
  budget : Budget
  queue : List Queued
  running : List (Running W)
  completed : List (Completed W)
  /-- COV and Modbus subscriptions that are not joined. -/
  subscriptions : Nat
  clock : Nat
  incarnations : Nat
  sources : Nat

variable {W : World}

namespace Runtime

/-- `Runtime::default` in a process whose counters and clock stand anywhere. -/
def default (clock incarnations sources : Nat) : Runtime W where
  lease := none
  scope := none
  owners := none
  opened := false
  session := none
  incarnation := none
  sequence := 0
  state := .disabled
  lastError := none
  budget := .empty
  queue := []
  running := []
  completed := []
  subscriptions := 0
  clock := clock
  incarnations := incarnations
  sources := sources

def inert (lease : Lease) (scope : TrustedScope) (clock incarnations sources : Nat) : Runtime W :=
  { default clock incarnations sources with lease := some lease, scope := some scope, state := .stopped }

/-- Draws from a process counter after others have drawn `skip` numbers: the number, and the counter after it. -/
def next (counter skip : Nat) : Except RuntimeError (Nat × Nat) :=
  if counter + skip + 1 < 2 ^ 64 then .ok (counter + skip, counter + skip + 1) else .error (.invalid "identity exhausted")

/-! ### Start -/

/-- What a start meets: the draws of others, the clock, and whether the thread can be spawned. -/
structure StartEnv (W : World) where
  incarnationSkip : Nat
  sourceSkip : Nat
  delay : Nat
  spawned : Except (Option Int) W.Thread

def beginStart (r : Runtime W) (env : StartEnv W) : Runtime W × Except RuntimeError Unit :=
  if r.state ≠ .stopped ∨ ¬ r.running.isEmpty then (r, .error .notStopped)
  else if r.lease.isNone ∨ r.scope.isNone then (r, .error .disabled)
  else if r.opened ∧ r.owners.isNone then
    (r, .error (.invalid "prior open failed; owner reconstruction required"))
  else
    match next r.incarnations env.incarnationSkip with
    | .error e => (r, .error e)
    | .ok (incarnation, incarnations) =>
      let r := { r with incarnations := incarnations }
      match next r.sources env.sourceSkip with
      | .error e => (r, .error e)
      | .ok (_, sources) =>
        let r := { r with sources := sources }
        match r.budget.reserve .reconciliation false with
        | .error e => (r, .error e)
        | .ok retained =>
          match retained.reserve .reconciliation true with
          | .error e => (r, .error e)
          | .ok active =>
            let r := { r with clock := r.clock + env.delay }
            match env.spawned with
            | .error code => (r, .error (.io code))
            | .ok thread =>
              ({ r with
                opened := true
                incarnation := some ⟨incarnation⟩
                session := none
                lastError := none
                state := .starting
                budget := active
                running := r.running ++ [⟨none, ⟨incarnation⟩, r.clock + maxLifetime, .reconciliation, ⟨thread, false⟩⟩] },
                .ok ())

/-! ### Intake -/

/-- `admitted` is the answer of the adapter; the clock is read once. -/
def enqueue (r : Runtime W) (workClass : WorkClass) (key : String) (deadline delay : Nat)
    (admitted : Except RuntimeError Unit) : Runtime W × Except RuntimeError WorkId :=
  if r.state ≠ .runningInert then (r, .error .notRunning)
  else
    match r.session with
    | none => (r, .error .notRunning)
    | some session =>
      let r := { r with clock := r.clock + delay }
      if deadline ≤ r.clock then (r, .error .deadline)
      else if maxLifetime < deadline - r.clock then (r, .error (.invalid "request lifetime exceeds fixture cap"))
      else
        match W.entry session.selected key with
        | none => (r, .error (.invalid "unselected binding key"))
        | some binding =>
          if binding.effective ≠ .sense ∨ binding.requested ≠ .sense ∨ binding.status ≠ .valid then
            (r, .error (.invalid "inert sensing requires structurally valid sense binding"))
          else
            match admitted with
            | .error e => (r, .error e)
            | .ok () =>
              match r.budget.reserve workClass false with
              | .error e => (r, .error e)
              | .ok budget =>
                if r.sequence + 1 < 2 ^ 64 then
                  let id : WorkId := ⟨session.incarnation, r.sequence + 1⟩
                  ({ r with
                    sequence := r.sequence + 1
                    budget := budget
                    queue := r.queue ++ [⟨id, workClass, key, deadline⟩] }, .ok id)
                else (r, .error (.invalid "work identity exhausted"))

/-! ### Dispatch -/

/-- The first item that is wanted and eligible, with the clock after the readings made so far.  The `k`-th reading comes
`delays k` after the one before it. -/
def position (budget : Budget) (wanted : Queued → Bool) (delays : Nat → Nat) :
    List Queued → Nat → Nat → Option Nat × Nat × Nat
  | [], k, clock => (none, k, clock)
  | item :: rest, k, clock =>
    if !wanted item then
      let (index, k, clock) := position budget wanted delays rest k clock
      (index.map (· + 1), k, clock)
    else if item.deadline ≤ clock + delays k ∨ budget.canRun item.workClass then (some 0, k + 1, clock + delays k)
    else
      let (index, k, clock) := position budget wanted delays rest (k + 1) (clock + delays k)
      (index.map (· + 1), k, clock)

/-- Mandatory classes come before optional work. -/
def choose (r : Runtime W) (delays : Nat → Nat) : Option Nat × Nat × Nat :=
  match position r.budget (fun item => item.workClass ≠ .optionalDiscovery) delays r.queue 0 r.clock with
  | (some index, k, clock) => (some index, k, clock)
  | (none, k, clock) => position r.budget (fun _ => true) delays r.queue k clock

/-- Dispatches at most one queued item; an overdue one completes at once. -/
def dispatchNext (r : Runtime W) (delays : Nat → Nat) (spawned : Except (Option Int) W.Thread) :
    Runtime W × Except RuntimeError (Option WorkId) :=
  if r.state ≠ .runningInert then (r, .error .notRunning)
  else
    let (index, k, clock) := r.choose delays
    let r := { r with clock := clock }
    match index with
    | none => (r, .ok none)
    | some index =>
      match r.queue[index]? with
      | none => (r, .error (.invalid "queue index"))
      | some queued =>
        let r := { r with clock := r.clock + delays k }
        if queued.deadline ≤ r.clock then
          ({ r with
            queue := r.queue.eraseIdx index
            completed := r.completed ++ [⟨queued.id, .error .deadline, queued.workClass⟩] }, .ok (some queued.id))
        else
          match r.budget.reserve queued.workClass true with
          | .error e => (r, .error e)
          | .ok active =>
            if r.owners.isNone ∨ r.session.isNone then (r, .error .notRunning)
            else
              let r := { r with queue := r.queue.eraseIdx index }
              match spawned with
              | .error code =>
                ({ r with completed := r.completed ++ [⟨queued.id, .error (.io code), queued.workClass⟩] },
                  .ok (some queued.id))
              | .ok thread =>
                ({ r with
                  budget := active
                  running := r.running ++
                    [⟨some queued.id, queued.id.incarnation, queued.deadline, queued.workClass, ⟨thread, false⟩⟩] },
                  .ok (some queued.id))

/-! ### Cancellation and results -/

def cancel (r : Runtime W) (id : WorkId) : Runtime W × Except RuntimeError Unit :=
  match r.queue.findIdx? fun queued => queued.id = id with
  | some index =>
    match r.queue[index]? with
    | none => (r, .error (.invalid "queue index"))
    | some queued =>
      ({ r with
        queue := r.queue.eraseIdx index
        completed := r.completed ++ [⟨id, .error .cancelled, queued.workClass⟩] }, .ok ())
  | none =>
    match r.running.findIdx? fun job => job.id = some id with
    | some index => ({ r with running := r.running.modify index Running.cancel }, .ok ())
    | none => (r, .error (.invalid "unknown live work"))

def takeResult (r : Runtime W) (id : WorkId) : Runtime W × Option (Except RuntimeError W.Envelope) :=
  match r.completed.findIdx? fun completed => completed.id = id with
  | none => (r, none)
  | some index =>
    match r.completed[index]? with
    | none => (r, none)
    | some completed =>
      ({ r with
        completed := r.completed.eraseIdx index
        budget := r.budget.release false completed.workClass }, some completed.result)

/-! ### Joining -/

/-- A look at a job: the time before the reading of its deadline, its result if the thread has ended, and the time from
there to the check of the cancellation. -/
structure Look (W : World) where
  early : Nat
  finished : Option (Except RuntimeError (Output W))
  late : Nat

/-- `Cancellation::check`. -/
def check (cancelled : Bool) (deadline clock : Nat) : Except RuntimeError Unit :=
  if deadline ≤ clock then .error .deadline
  else if cancelled then .error .cancelled
  else .ok ()

/-- The result that counts: neither cancelled nor late, and of the current incarnation. -/
def settled (r : Runtime W) (job : Running W) (result : Except RuntimeError (Output W)) :
    Except RuntimeError (Output W) :=
  if r.incarnation ≠ some job.incarnation then .error .stale
  else
    match check job.task.cancelled job.deadline r.clock with
    | .error e => .error e
    | .ok () => result

/-- A failed start, or a read that no work asked for. -/
def hold (r : Runtime W) (job : Running W) (code : String) : Runtime W :=
  { r with lastError := some code, state := .held, budget := r.budget.release false job.workClass }

/-- Nothing stays queued and no job goes on. -/
def drainHeld (r : Runtime W) : Runtime W :=
  { r with
    state := .held
    queue := []
    completed := r.completed ++ r.queue.map fun queued => ⟨queued.id, .error .cancelled, queued.workClass⟩
    running := r.running.map Running.cancel }

/-- The result of a job with a work id is retained; some errors hold the runtime first. -/
def complete (r : Runtime W) (job : Running W) (id : WorkId) (result : Except RuntimeError W.Envelope) : Runtime W :=
  let r := match result with
    | .ok _ => r
    | .error e =>
      let r := { r with lastError := some e.code }
      if e.holds then r.drainHeld else r
  { r with completed := r.completed ++ [⟨id, result, job.workClass⟩] }

/-- What a joined job brings. -/
def deliver (r : Runtime W) (job : Running W) (result : Except RuntimeError (Output W)) : Runtime W :=
  match job.id, result with
  | none, .ok (.started _ (.ok selected) credential source) =>
    { r with
      session := some ⟨selected, credential, job.incarnation, source⟩
      state := .runningInert
      budget := r.budget.release false job.workClass }
  | none, .ok (.started _ (.error e) _ _) => r.hold job e.code
  | none, .error e => r.hold job e.code
  | none, .ok (.read _) => r.hold job "runtime-invalid"
  | some id, .ok (.read raw) => r.complete job id (.ok raw)
  | some id, .error e => r.complete job id (.error e)
  | some id, .ok (.started _ _ _ _) => r.complete job id (.error (.invalid "unexpected start result"))

/-- The join of a job that has left `running`: its running slot is free, and opened owners are kept in any case. -/
def join (r : Runtime W) (job : Running W) (result : Except RuntimeError (Output W)) (late : Nat) : Runtime W :=
  let r := { r with
    clock := r.clock + late
    budget := r.budget.release true job.workClass
    owners := match result with
      | .ok (.started owners _ _ _) => some owners
      | _ => r.owners }
  if r.state.draining then { r with budget := r.budget.release false job.workClass }
  else r.deliver job (r.settled job result)

/-- One look of `poll` at the job of an index. -/
def look (r : Runtime W) (index : Nat) (look : Look W) : Runtime W :=
  match r.running[index]? with
  | none => r
  | some job =>
    let r := { r with clock := r.clock + look.early }
    let job := if job.deadline ≤ r.clock then job.cancel else job
    match look.finished with
    | none => { r with running := r.running.set index job }
    | some result => { r with running := r.running.eraseIdx index }.join job result look.late

/-- Subscriptions that were joined are let go. -/
def joinSubscriptions (r : Runtime W) (joined : Nat) : Runtime W :=
  { r with subscriptions := r.subscriptions - joined }

/-- Everything is joined. -/
def joined (r : Runtime W) : Bool := r.running.isEmpty && r.subscriptions == 0

/-- The end of `poll`. -/
def settle (r : Runtime W) : Runtime W :=
  if r.state.draining ∧ r.joined then { r with state := .stopped } else r

/-! ### Stop -/

/-- The beginning of `stop`: intake is closed, results are dropped, and every job is cancelled. -/
def sealIntake (r : Runtime W) : Runtime W :=
  { r with
    state := .stopping
    budget := (r.budget.releaseAll (r.queue.map Queued.workClass)).releaseAll (r.completed.map Completed.workClass)
    queue := []
    completed := []
    session := none
    running := r.running.map Running.cancel }

/-- The end of a `stop` that ran out of time. -/
def giveUp (r : Runtime W) : Runtime W := if r.joined then r else { r with state := .unresolved }

end Runtime

end Verdant.Work
