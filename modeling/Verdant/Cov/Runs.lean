import Verdant.Cov.Subscription

/-!
# Runs of a subscription

A run is a list of calls.  `HonestCall` says what a call owes: what it reports as covered is covered, a gap that becomes
visible in it is recorded in it, and nothing that was recorded is taken back.  `Met` is the condition under which the
owner keeps this, on the state before the call and on what the call meets.
-/

namespace Verdant.Cov

inductive Call where
  /-- Not a call: time passes, and the runtime may cancel the slot. -/
  | pass (pause : Pause)
  | coverage (delay : Nat)
  | subscribe (env : SubscribeEnv)
  | drain (env : DrainEnv)
  | revalidate (env : RevalidateEnv)
  /-- The caller's reading of the clock is `age` old. -/
  | maintain (age : Nat) (env : MaintainEnv)
  | reconnect (env : ReconnectEnv)
  | unsubscribe (env : UnsubscribeEnv)
  | stop (cleanup : UnsubscribeEnv) (ended : Option Bool)

namespace Host

def call (h : Host) : Call → Host
  | .pass pause => h.pause pause
  | .coverage delay => (h.coverage delay).1
  | .subscribe env => (h.subscribe env).1
  | .drain env => (h.drain env).1
  | .revalidate env => (h.revalidate env).1
  | .maintain age env => (h.maintain (h.clock - age) env).1
  | .reconnect env => (h.reconnect env).1
  | .unsubscribe env => (h.unsubscribe env).1
  | .stop cleanup ended => (h.stop cleanup ended).1

def run (h : Host) (calls : List Call) : Host := calls.foldl call h

@[simp] theorem run_nil (h : Host) : h.run [] = h := rfl

@[simp] theorem run_cons (h : Host) (call : Call) (calls : List Call) : h.run (call :: calls) = (h.call call).run calls :=
  rfl

/-- What the watch makes of all that has happened. -/
def watch (h : Host) : Watch := .of h.seen

end Host

/-! ### What is owed -/

structure HonestCall (h : Host) (call : Call) : Prop where
  /-- Coverage is reported only before the deadline of the watch. -/
  covered : ∀ delay, call = .coverage delay → (h.coverage delay).2.subscribed = true →
    ∃ deadline, (h.call call).watch.cover = .live deadline ∧ (h.call call).clock < deadline
  /-- A new gap is recorded. -/
  recorded : h.watch.gaps < (h.call call).watch.gaps →
    h.sub.coverage.changes < (h.call call).sub.coverage.changes ∧
      (h.call call).sub.coverage.unobservedInterval = true
  /-- A revalidation stays due until the point is read after the last gap. -/
  due : (h.call call).sub.coverage.revalidationDue = false → (h.call call).watch.fresh = true
  sticky : h.sub.coverage.unobservedInterval = true → (h.call call).sub.coverage.unobservedInterval = true
  grows : h.sub.coverage.changes ≤ (h.call call).sub.coverage.changes

/-- Every call of the run is honest. -/
def Honest (h : Host) : List Call → Prop
  | [] => True
  | call :: calls => HonestCall h call ∧ Honest (h.call call) calls

/-! ### The condition -/

/-- No notification shortens the deadline, but one of a bounded size may say that nothing remains. -/
def LooksMet (own : Notification → Bool) (expires : Nat) : Nat → Nat → List Look → Prop
  | 0, _, _ => True
  | _ + 1, _, [] => True
  | fuel + 1, clock, look :: looks =>
    match look.received with
    | .empty => True
    | .closed => True
    | .lagged _ => LooksMet own expires fuel (clock + look.delay) looks
    | .ok received =>
      if own received = true then
        if received.timeRemaining = 0 then received.listOfValues.length ≤ maxProperties
        else expires ≤ clock + look.delay + seconds received.timeRemaining ∧
          LooksMet own expires fuel (clock + look.delay + look.stamp) looks
      else LooksMet own expires fuel (clock + look.delay + look.stamp) looks

namespace Host

variable (h : Host)

/-- The moments of a subscription: admission, request, reply. -/
def atAdmission (env : SubscribeEnv) : Host := (h.pause env.entry).pause env.admission
def atRequest (env : SubscribeEnv) : Host := (h.atAdmission env).wait env.starting
def atReply (env : SubscribeEnv) : Host := (h.atRequest env).pause env.answered

/-- The call gets as far as its request. -/
def sends (env : SubscribeEnv) : Prop :=
  (h.pause env.entry).sub.check (h.pause env.entry).clock = .ok () ∧ (h.atAdmission env).receive env.room = true

/-- A request while subscribed: its reply is taken, a grant finds the slot still admitted, and the request went out
before the old deadline or the grant has itself run out. -/
def subscribeMet (env : SubscribeEnv) : Prop :=
  h.sub.coverage.subscribed = true → h.sends env →
    match env.reply with
    | none => False
    | some false => True
    | some true => (h.atReply env).sub.slot.check (h.atReply env).clock = true ∧
        ((h.atRequest env).clock < h.sub.expires ∨
          (h.atRequest env).clock + seconds h.sub.options.lifetime ≤ (h.atReply env).clock + env.ending)

/-- The moments of a drain: its look at the deadline, and its admission. -/
def atLook (env : DrainEnv) : Host := (h.pause env.entry).wait env.looking
def atDrain (env : DrainEnv) : Host := (h.atLook env).pause env.admission

def drainMet (env : DrainEnv) : Prop :=
  h.sub.coverage.subscribed = true → (h.atLook env).clock < h.sub.expires →
    (h.pause env.entry).sub.check (h.pause env.entry).clock = .ok () → (h.atDrain env).receive env.room = true →
      LooksMet h.own h.sub.expires (h.sub.options.capacity + 1) (h.atDrain env).clock env.looks

def maintainMet (now : Nat) (env : MaintainEnv) : Prop :=
  now < h.sub.expires → h.sub.renewAt ≤ now → (h.pause env.entry).subscribeMet env.renewal

/-- A subscription that ends is not over time. -/
def unsubscribeMet : Prop := h.sub.coverage.subscribed = true → h.clock < h.sub.expires

def reconnectMet (env : ReconnectEnv) : Prop :=
  h.unsubscribeMet ∨ (env.cleanup.reply.isSome = true ∧ h.generations + env.taken + 1 ≤ maxU32)

def met : Call → Prop
  | .pass _ => True
  | .coverage _ => True
  | .subscribe env => h.subscribeMet env
  | .drain env => h.drainMet env
  | .revalidate _ => True
  | .maintain age env => h.maintainMet (h.clock - age) env
  | .reconnect env => h.reconnectMet env
  | .unsubscribe _ => h.unsubscribeMet
  | .stop _ _ => h.unsubscribeMet

end Host

/-- Every call of the run meets its condition, and the counter of changes is not full. -/
def Met (h : Host) : List Call → Prop
  | [] => True
  | call :: calls => (h.met call ∧ h.sub.coverage.changes < maxU64) ∧ Met (h.call call) calls

end Verdant.Cov
