import Verdant.Work.Runtime

/-!
# Runs of the runtime

A run is a list of turns.  Every call but `poll` and `stop` is one turn, these two are the turns `Call.turns` gives.  The
book keeps what no field of the runtime remembers: the ids that were returned, the results that were taken, and the ids
that a stop has dropped.
-/

namespace Verdant.Work

variable {W : World}

structure Book (W : World) where
  runtime : Runtime W
  issued : List WorkId
  taken : List (WorkId × Except RuntimeError W.Envelope)
  dropped : List WorkId
  /-- Slots that subscriptions and the adapter hold: running or retained, with their class. -/
  outside : List (Bool × WorkClass)

/-- One indivisible step. -/
inductive Turn (W : World) where
  | beginStart (env : Runtime.StartEnv W)
  | enqueue (workClass : WorkClass) (key : String) (deadline delay : Nat) (admitted : Except RuntimeError Unit)
  | dispatchNext (delays : Nat → Nat) (spawned : Except (Option Int) W.Thread)
  | cancel (id : WorkId)
  | takeResult (id : WorkId)
  | joinSubscriptions (joined : Nat)
  | look (index : Nat) (look : Runtime.Look W)
  | settle
  | sealIntake
  | giveUp
  | wait (delay : Nat)
  | work (index : Nat) (thread : W.Thread)
  | subscribe
  | reserveOutside (running : Bool) (workClass : WorkClass)
  | releaseOutside (index : Nat)

namespace Book

/-- The ids a look drops: a job that is joined while the runtime drains. -/
def lookDrops (r : Runtime W) (index : Nat) (look : Runtime.Look W) : List WorkId :=
  match r.running[index]? with
  | none => []
  | some job => if look.finished.isSome ∧ r.state.draining then job.id.toList else []

def turn (b : Book W) : Turn W → Book W
  | .beginStart env => { b with runtime := (b.runtime.beginStart env).1 }
  | .enqueue workClass key deadline delay admitted =>
    match b.runtime.enqueue workClass key deadline delay admitted with
    | (r, .ok id) => { b with runtime := r, issued := b.issued ++ [id] }
    | (r, .error _) => { b with runtime := r }
  | .dispatchNext delays spawned => { b with runtime := (b.runtime.dispatchNext delays spawned).1 }
  | .cancel id => { b with runtime := (b.runtime.cancel id).1 }
  | .takeResult id =>
    match b.runtime.takeResult id with
    | (r, some result) => { b with runtime := r, taken := b.taken ++ [(id, result)] }
    | (r, none) => { b with runtime := r }
  | .joinSubscriptions joined => { b with runtime := b.runtime.joinSubscriptions joined }
  | .look index look =>
    { b with runtime := b.runtime.look index look, dropped := b.dropped ++ lookDrops b.runtime index look }
  | .settle => { b with runtime := b.runtime.settle }
  | .sealIntake =>
    { b with
      runtime := b.runtime.sealIntake
      dropped := b.dropped ++ b.runtime.queue.map Queued.id ++ b.runtime.completed.map Completed.id }
  | .giveUp => { b with runtime := if b.runtime.state = .stopping then b.runtime.giveUp else b.runtime }
  | .wait delay => { b with runtime := { b.runtime with clock := b.runtime.clock + delay } }
  | .work index thread =>
    { b with runtime := { b.runtime with running := b.runtime.running.modify index (Running.advance thread) } }
  | .subscribe =>
    if b.runtime.state = .runningInert then
      { b with runtime := { b.runtime with subscriptions := b.runtime.subscriptions + 1 } }
    else b
  | .reserveOutside running workClass =>
    match b.runtime.budget.reserve workClass running with
    | .ok budget =>
      { b with runtime := { b.runtime with budget := budget }, outside := b.outside ++ [(running, workClass)] }
    | .error _ => b
  | .releaseOutside index =>
    match b.outside[index]? with
    | some (running, workClass) =>
      { b with
        runtime := { b.runtime with budget := b.runtime.budget.release running workClass }
        outside := b.outside.eraseIdx index }
    | none => b

def run (b : Book W) (turns : List (Turn W)) : Book W := turns.foldl turn b

/-- A new runtime, configured or not, in a process whose counters and clock stand anywhere. -/
def start (config : Option (Lease × TrustedScope)) (clock incarnations sources : Nat) : Book W where
  runtime := match config with
    | none => .default clock incarnations sources
    | some (lease, scope) => .inert lease scope clock incarnations sources
  issued := []
  taken := []
  dropped := []
  outside := []

@[simp] theorem run_nil (b : Book W) : b.run [] = b := rfl

@[simp] theorem run_append (b : Book W) (front back : List (Turn W)) : b.run (front ++ back) = (b.run front).run back := by
  simp [run]

@[simp] theorem run_cons (b : Book W) (turn : Turn W) (turns : List (Turn W)) :
    b.run (turn :: turns) = (b.turn turn).run turns := rfl

end Book

/-! ### Calls -/

/-- What one `poll` meets: joined subscriptions, and its looks in order. -/
structure PollEnv (W : World) where
  joined : Nat
  looks : Nat → Runtime.Look W

/-- The loop of `poll`: the `k`-th look is at the job of `index`; a joined job makes room for the next. -/
def lookTurns (env : PollEnv W) : Nat → Nat → Nat → Runtime W → List (Turn W)
  | 0, _, _, _ => []
  | fuel + 1, k, index, r =>
    if index < r.running.length then
      let next := if (env.looks k).finished.isSome then index else index + 1
      .look index (env.looks k) :: lookTurns env fuel (k + 1) next (r.look index (env.looks k))
    else []

/-- `poll` looks once at every running job. -/
def pollTurns (env : PollEnv W) (r : Runtime W) : List (Turn W) :=
  let r := r.joinSubscriptions env.joined
  .joinSubscriptions env.joined :: lookTurns env r.running.length 0 0 r ++ [.settle]

/-- The rounds of `stop` until everything is joined or a reading of the clock has reached the deadline. -/
def stopTurns (deadline : Nat) : List (PollEnv W × Nat) → Book W → List (Turn W)
  | [], _ => []
  | (env, delay) :: rounds, b =>
    let polled := pollTurns env b.runtime
    let after := b.run polled
    if after.runtime.joined then polled
    else if deadline ≤ after.runtime.clock + delay then polled ++ [.wait delay, .giveUp]
    else polled ++ .wait delay :: stopTurns deadline rounds (after.turn (.wait delay))

/-- A call of the runtime with what it meets. -/
inductive Call (W : World) where
  | beginStart (env : Runtime.StartEnv W)
  | enqueue (workClass : WorkClass) (key : String) (deadline delay : Nat) (admitted : Except RuntimeError Unit)
  | dispatchNext (delays : Nat → Nat) (spawned : Except (Option Int) W.Thread)
  | cancel (id : WorkId)
  | poll (env : PollEnv W)
  | takeResult (id : WorkId)
  | stop (budget delay : Nat) (rounds : List (PollEnv W × Nat))
  /-- Not a call: time passes, a worker goes on, or somebody else takes or returns a slot. -/
  | other (turn : Turn W)

/-- The turns of a call. -/
def Call.turns (b : Book W) : Call W → List (Turn W)
  | .beginStart env => [.beginStart env]
  | .enqueue workClass key deadline delay admitted => [.enqueue workClass key deadline delay admitted]
  | .dispatchNext delays spawned => [.dispatchNext delays spawned]
  | .cancel id => [.cancel id]
  | .poll env => pollTurns env b.runtime
  | .takeResult id => [.takeResult id]
  | .stop budget delay rounds =>
    if maxDrain < budget then []
    else
      let sealed := (b.turn .sealIntake).turn (.wait delay)
      .sealIntake :: .wait delay :: stopTurns (sealed.runtime.clock + budget) rounds sealed
  | .other turn => [turn]

/-- The turns of a sequence of calls. -/
def callTurns (b : Book W) : List (Call W) → List (Turn W)
  | [] => []
  | call :: calls => call.turns b ++ callTurns (b.run (call.turns b)) calls

end Verdant.Work
