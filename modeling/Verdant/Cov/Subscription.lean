import Verdant.Cov.Watch

/-!
# The owner of one change-of-value subscription

`subscribe`, `drain`, `revalidate`, `maintain`, `coverage`, `reconnect`, `unsubscribe` and `stop`.  Every reading of the
clock is a step of `clock`, every await has a reply that may never be taken: with `none` the call is dropped there, and
what it has written stays.  What the peer, the transport and the shared budget answer is the environment of a call.
-/

namespace Verdant.Cov

/-- A refusal of the adapter. -/
inductive BacnetError where
  | invalid (detail : String)
  | invalidReply
  | budget
  | clientStart
  | clientStop
  | notCurrent
  deriving DecidableEq, Repr

def BacnetError.code : BacnetError → String
  | invalid _ => "bacnet-invalid"
  | invalidReply => "bacnet-invalid-reply"
  | budget => "bacnet-shared-budget"
  | clientStart => "bacnet-client-start"
  | clientStop => "bacnet-client-stop"
  | notCurrent => "bacnet-not-current"

def maxProperties : Nat := 8
def maxValueBytes : Nat := 512

/-- The nanoseconds of a number of seconds. -/
def seconds (n : Nat) : Nat := n * 1000000000

/-- The longest lifetime, in seconds. -/
def maxLifetime : Nat := 35

structure Property where
  object : Nat
  identifier : Nat
  arrayIndex : Option Nat
  deriving DecidableEq, Repr

/-! ### The fixture bounds -/

/-- A property subscription may have a deadband, here by the bits of its single-precision number. -/
inductive Kind where
  | object
  | property (increment : Option Nat)
  deriving DecidableEq, Repr

def isFinite (bits : Nat) : Bool := bits / 2 ^ 23 % 256 ≠ 255

/-- Below zero, for a finite number: the sign bit of a number other than zero. -/
def isNegative (bits : Nat) : Bool := 2 ^ 31 < bits

def Kind.valid : Kind → Bool
  | .property (some bits) => isFinite bits && !isNegative bits
  | _ => true

/-- `lifetime` in seconds and `margin` in nanoseconds. -/
structure FixtureOptions where
  lifetime : Nat
  margin : Nat
  capacity : Nat
  kind : Kind
  bounds : 0 < lifetime ∧ lifetime ≤ maxLifetime ∧ margin < seconds lifetime ∧ 0 < margin ∧ 1 ≤ capacity ∧ capacity ≤ 16
  deadband : kind.valid = true

def FixtureOptions.new (lifetime margin capacity : Nat) (kind : Kind) : Except BacnetError FixtureOptions :=
  if bounds : 0 < lifetime ∧ lifetime ≤ maxLifetime ∧ margin < seconds lifetime ∧ 0 < margin ∧
      1 ≤ capacity ∧ capacity ≤ 16 then
    if deadband : kind.valid = true then .ok ⟨lifetime, margin, capacity, kind, bounds, deadband⟩
    else .error (.invalid "fixture deadband")
  else .error (.invalid "finite COV fixture bounds")

/-! ### Notifications -/

structure PropertyValue where
  identifier : Nat
  arrayIndex : Option Nat
  value : List UInt8
  deriving DecidableEq, Repr

/-- A received notification; the remaining time is in seconds. -/
structure Notification where
  sourceNetwork : Option Nat
  sourceAddress : Option (List UInt8)
  sourceMac : List UInt8
  subscriberProcessIdentifier : Nat
  monitoredObject : Nat
  timeRemaining : Nat
  listOfValues : List PropertyValue
  deriving DecidableEq, Repr

/-- The notification comes directly from the target and is about the object. -/
def Notification.matches (received : Notification) (mac : List UInt8) (property : Property) : Bool :=
  received.sourceNetwork = none ∧ received.sourceAddress = none ∧ received.sourceMac = mac ∧
    received.monitoredObject = property.object

/-- What one look into the channel finds. -/
inductive TryRecv where
  | empty
  | closed
  | lagged (n : Nat)
  | ok (received : Notification)
  deriving DecidableEq, Repr

/-! ### The record -/

inductive Loss where
  | startup
  | lagged (n : Nat)
  | capacity
  | renewalFailed
  | expired
  | reconnect
  | hostResume
  | closed
  deriving DecidableEq, Repr

def maxU64 : Nat := 18446744073709551615
def maxU32 : Nat := 4294967295

/-- `changes` is a `u64`; `unobservedInterval` is sticky. -/
structure Coverage where
  changes : Nat
  last : Loss
  revalidationDue : Bool
  unobservedInterval : Bool
  subscribed : Bool
  deriving DecidableEq, Repr

def Coverage.loss (c : Coverage) (reason : Loss) : Coverage where
  changes := min (c.changes + 1) maxU64
  last := reason
  revalidationDue := true
  unobservedInterval := true
  subscribed := c.subscribed

def Coverage.unsubscribed (c : Coverage) : Coverage := { c with subscribed := false }

inductive Receipt where
  | notificationDequeue
  | pollReturn
  deriving DecidableEq, Repr

structure Sample where
  generation : Nat
  value : List UInt8
  /-- Wall time. -/
  receiptTime : Int
  receiptMonotonic : Nat
  origin : Receipt
  deriving DecidableEq, Repr

inductive RemoteOutcome where
  | notAttempted
  | uncertain
  | confirmed
  | failed
  deriving DecidableEq, Repr

/-- The slot that the runtime has lent: a deadline, and a flag the runtime may set. -/
structure Slot where
  deadline : Nat
  cancelled : Bool
  deriving DecidableEq, Repr

def Slot.check (slot : Slot) (now : Nat) : Bool := now < slot.deadline ∧ slot.cancelled = false

structure Subscription where
  slot : Slot
  mac : List UInt8
  property : Property
  options : FixtureOptions
  generation : Nat
  renewAt : Nat
  pollAt : Nat
  expires : Nat
  coverage : Coverage
  current : Option Sample
  unsubscribe : RemoteOutcome
  priorUnsubscribe : RemoteOutcome
  stopped : Bool

namespace Subscription

variable (s : Subscription)

/-- A new subscription of an admitted slot. -/
def fresh (slot : Slot) (mac : List UInt8) (property : Property) (options : FixtureOptions) (generation now : Nat) :
    Subscription where
  slot := slot
  mac := mac
  property := property
  options := options
  generation := generation
  renewAt := now
  pollAt := now
  expires := now
  coverage := ⟨0, .startup, true, false, false⟩
  current := none
  unsubscribe := .notAttempted
  priorUnsubscribe := .notAttempted
  stopped := false

def loss (reason : Loss) : Subscription := { s with coverage := s.coverage.loss reason }

def unsubscribed : Subscription := { s with coverage := s.coverage.unsubscribed }

def expire (now : Nat) : Subscription :=
  if s.coverage.subscribed ∧ s.expires ≤ now then s.unsubscribed.loss .expired else s

def check (now : Nat) : Except BacnetError Unit :=
  if s.stopped ∨ s.unsubscribe ≠ .notAttempted then .error .notCurrent
  else if s.slot.check now then .ok ()
  else .error .notCurrent

theorem check_ok {s : Subscription} {now : Nat} (h : s.check now = .ok ()) :
    (s.stopped = false ∧ s.unsubscribe = .notAttempted) ∧ s.slot.check now = true := by
  unfold check at h
  split at h
  · exact nomatch h
  · rename_i hopen
    split at h
    · rename_i hslot
      simp only [not_or, Bool.not_eq_true, not_not] at hopen
      exact ⟨hopen, hslot⟩
    · exact nomatch h

/-- Of an open subscription only the slot decides. -/
theorem check_open {s : Subscription} (h : s.stopped = false ∧ s.unsubscribe = .notAttempted) (now : Nat) :
    s.check now = if s.slot.check now then .ok () else .error .notCurrent := by
  simp [check, h]

end Subscription

/-- The subscription with the clock, the counter of identities, and what has happened to it. -/
structure Host where
  sub : Subscription
  clock : Nat
  generations : Nat
  seen : List Event

/-- Time passes, and the runtime may set the flag of the slot. -/
structure Pause where
  delay : Nat
  cancel : Bool
  deriving DecidableEq, Repr

/-- The outcome of a call; `none` where it is dropped at an await. -/
abbrev Outcome := Option (Except BacnetError Unit)

namespace Host

variable (h : Host)

def pause (p : Pause) : Host :=
  { h with
    clock := h.clock + p.delay
    sub := { h.sub with slot := { h.sub.slot with cancelled := h.sub.slot.cancelled || p.cancel } } }

def wait (delay : Nat) : Host := { h with clock := h.clock + delay }

def see (event : Event) : Host := { h with seen := h.seen ++ [event] }

/-- A loss is recorded when `event` happens. -/
def lose (event : Event) (reason : Loss) : Host := { h.see event with sub := h.sub.loss reason }

/-- The deadline is compared with `now`. -/
def expire (now : Nat) : Host := { h.see (.looked now) with sub := h.sub.expire now }

/-- The slot admits a receive at this moment; `room` is the answer of the budget. -/
def receive (room : Bool) : Bool := h.sub.slot.check h.clock && room

end Host

/-! ### Opening -/

/-- The permit of the runtime, and what the opening meets. -/
structure OpenEnv where
  slot : Slot
  mac : List UInt8
  property : Property
  options : FixtureOptions
  clock : Nat
  generations : Nat
  entry : Pause
  /-- The client starts. -/
  started : Bool
  starting : Nat

namespace Host

/-- The next identity. -/
def next (generations : Nat) : Except BacnetError (Nat × Nat) :=
  if generations + 1 ≤ maxU32 then .ok (generations, generations + 1)
  else .error (.invalid "subscription identity exhausted")

def «open» (env : OpenEnv) : Except BacnetError Host := do
  let (generation, generations) ← next env.generations
  let slot : Slot := { env.slot with cancelled := env.slot.cancelled || env.entry.cancel }
  let clock := env.clock + env.entry.delay
  if slot.check clock = false then .error .notCurrent
  else if env.started = false then .error .clientStart
  else
    let now := clock + env.starting
    .ok ⟨.fresh slot env.mac env.property env.options generation now, now, generations, []⟩

end Host

/-! ### Coverage and subscription -/

structure SubscribeEnv where
  entry : Pause
  admission : Pause
  room : Bool
  starting : Nat
  /-- The reply of the peer: a grant, an error, or none that is taken. -/
  reply : Option Bool
  answered : Pause
  ending : Nat
  deriving DecidableEq, Repr

namespace Host

variable (h : Host)

def coverage (delay : Nat) : Host × Coverage :=
  let h := (h.wait delay).expire (h.clock + delay)
  (h, h.sub.coverage)

/-- The grant is taken: the deadline counts from the request. -/
def accept (started : Nat) (env : SubscribeEnv) : Host × Outcome :=
  let expires := started + seconds h.sub.options.lifetime
  let h := { h.see (.granted started (seconds h.sub.options.lifetime)) with
    sub := { h.sub with expires := expires, renewAt := expires - h.sub.options.margin } }
  let h := h.wait env.ending
  if expires ≤ h.clock then (h.lose (.looked h.clock) .expired, some (.error .notCurrent))
  else ({ h with sub := { h.sub with coverage := { h.sub.coverage with subscribed := true } } }, some (.ok ()))

/-- The request is sent.  The failure is written before the await. -/
def sent : Host :=
  { h.see (.renewing h.clock) with sub := { h.sub.unsubscribed with renewAt := h.clock + h.sub.options.margin } }

def request (env : SubscribeEnv) : Host × Outcome :=
  match env.reply with
  | none => (h.sent.see .abandoned, none)
  | some false => ((h.sent.pause env.answered).lose .failed .renewalFailed, some (.error .invalidReply))
  | some true =>
    let replied := h.sent.pause env.answered
    match replied.sub.check replied.clock with
    | .error e => (replied.see .turnedAway, some (.error e))
    | .ok () => replied.accept h.clock env

def subscribe (env : SubscribeEnv) : Host × Outcome :=
  let h := h.pause env.entry
  match h.sub.check h.clock with
  | .error e => (h, some (.error e))
  | .ok () =>
    let h := h.pause env.admission
    if h.receive env.room then (h.wait env.starting).request env
    else (h.lose .refused .capacity, some (.error .budget))

end Host

/-! ### Draining the channel -/

/-- One look into the channel, with the times that are read for a notification. -/
structure Look where
  delay : Nat
  received : TryRecv
  stamp : Nat
  wall : Int
  deriving DecidableEq, Repr

structure DrainEnv where
  entry : Pause
  looking : Nat
  admission : Pause
  room : Bool
  looks : List Look
  deriving DecidableEq, Repr

namespace Host

variable (h : Host)

/-- The notification is one of this generation. -/
def own (received : Notification) : Bool :=
  received.subscriberProcessIdentifier = h.sub.generation ∧ received.matches h.sub.mac h.sub.property

/-- The remaining time moves the renewal forward; no time left ends the subscription. -/
def shorten (remaining : Nat) : Host :=
  let h := { h.see (.dequeued h.clock remaining) with
    sub := { h.sub with renewAt := min h.sub.renewAt (h.clock + (remaining - h.sub.options.margin)) } }
  if remaining = 0 then { h with sub := h.sub.unsubscribed.loss .expired } else h

/-- The one value of the property becomes the current sample. -/
def sample (received : Notification) (stamp : Nat) (wall : Int) : Host × List Sample :=
  match received.listOfValues.filter fun p =>
      p.identifier = h.sub.property.identifier ∧ p.arrayIndex = h.sub.property.arrayIndex with
  | [value] =>
    if maxValueBytes < value.value.length then (h.lose .oversized .capacity, [])
    else
      let sample : Sample := ⟨h.sub.generation, value.value, wall, h.clock + stamp, .notificationDequeue⟩
      ({ h with sub := { h.sub with current := some sample } }, [sample])
  | _ => (h, [])

def notified (look : Look) (received : Notification) : Host × List Sample :=
  if h.own received = false then (h, [])
  else if maxProperties < received.listOfValues.length then
    ((h.see (.dequeued h.clock (seconds received.timeRemaining))).lose .oversized .capacity, [])
  else (h.shorten (seconds received.timeRemaining)).sample received look.stamp look.wall

/-- At most `fuel` looks; a channel that the looks leave is empty. -/
def dequeue : Nat → List Look → Host → Host × List Sample
  | 0, _, h => (h, [])
  | _ + 1, [], h => (h, [])
  | fuel + 1, look :: looks, h =>
    let h := h.wait look.delay
    match look.received with
    | .empty => (h, [])
    | .closed => ({ h.lose .closed .closed with sub := (h.sub.loss .closed).unsubscribed }, [])
    | .lagged n => dequeue fuel looks (h.lose (.lagged n) (.lagged n))
    | .ok received =>
      let (h, here) := h.notified look received
      let (h, rest) := dequeue fuel looks (h.wait look.stamp)
      (h, here ++ rest)

def drain (env : DrainEnv) : Host × Except BacnetError (List Sample) :=
  let h := h.pause env.entry
  match h.sub.check h.clock with
  | .error e => (h, .error e)
  | .ok () =>
    let h := h.wait env.looking
    let h := h.expire h.clock
    let h := h.pause env.admission
    if h.receive env.room then
      let (h, samples) := dequeue (h.sub.options.capacity + 1) env.looks h
      (h, .ok samples)
    else (h.lose .refused .capacity, .error .budget)

end Host

/-! ### Revalidation and maintenance -/

/-- The answer to a read of the property. -/
structure ReadAck where
  object : Nat
  identifier : Nat
  arrayIndex : Option Nat
  value : List UInt8
  deriving DecidableEq, Repr

structure RevalidateEnv where
  entry : Pause
  admission : Pause
  room : Bool
  backoff : Nat
  starting : Nat
  /-- The reply of the peer: an answer, an error, or none that is taken. -/
  reply : Option (Option ReadAck)
  failing : Nat
  answered : Pause
  stamp : Nat
  wall : Int
  ending : Nat
  deriving DecidableEq, Repr

namespace Host

variable (h : Host)

/-- The answer is about the property, and within the bound. -/
def answers (ack : ReadAck) : Bool :=
  ack.object = h.sub.property.object ∧ ack.identifier = h.sub.property.identifier ∧
    ack.arrayIndex = h.sub.property.arrayIndex ∧ ack.value.length ≤ maxValueBytes

/-- The sample of a read; the loss that made it due stays on record. -/
def validated (env : RevalidateEnv) (ack : ReadAck) : Host :=
  let h := h.wait env.stamp
  let sample : Sample := ⟨h.sub.generation, ack.value, env.wall, h.clock, .pollReturn⟩
  let h := { h.see .read with
    sub := { h.sub with current := some sample, coverage := { h.sub.coverage with revalidationDue := false } } }
  let h := h.wait env.ending
  { h with sub := { h.sub with pollAt := h.clock } }

/-- The read is sent; the next attempt is put off before the await. -/
def poll (env : RevalidateEnv) : Host × Outcome :=
  let h := h.wait env.starting
  let h := { h with sub := { h.sub with pollAt := h.clock + h.sub.options.margin } }
  match env.reply with
  | none => (h, none)
  | some none =>
    let h := h.wait env.failing
    ({ h with sub := { h.sub with pollAt := h.clock + h.sub.options.margin } }, some (.error .invalidReply))
  | some (some ack) =>
    let h := h.pause env.answered
    match h.sub.check h.clock with
    | .error e => (h, some (.error e))
    | .ok () =>
      if h.answers ack then (h.validated env ack, some (.ok ())) else (h, some (.error .invalidReply))

def revalidate (env : RevalidateEnv) : Host × Outcome :=
  let h := h.pause env.entry
  match h.sub.check h.clock with
  | .error e => (h, some (.error e))
  | .ok () =>
    if h.sub.coverage.revalidationDue = false then (h, some (.ok ()))
    else
      let h := h.pause env.admission
      if h.receive env.room then
        let h := h.wait env.backoff
        if h.clock < h.sub.pollAt then (h, some (.ok ())) else h.poll env
      else (h.lose .refused .capacity, some (.error .budget))

end Host

structure MaintainEnv where
  entry : Pause
  renewal : SubscribeEnv
  failing : Nat
  poll : RevalidateEnv
  deriving DecidableEq, Repr

namespace Host

variable (h : Host)

/-- After the renewal: a failed one is put off, and the read follows. -/
def afterRenewal (renewal : Except BacnetError Unit) (env : MaintainEnv) : Host × Outcome :=
  let h := match renewal with
    | .ok () => h
    | .error _ =>
      let h := h.wait env.failing
      { h with sub := { h.sub with renewAt := h.clock + h.sub.options.margin } }
  let (h, poll) := h.revalidate env.poll
  (h, poll.map fun poll => renewal.bind fun () => poll)

/-- `now` is the reading of the caller. -/
def maintain (now : Nat) (env : MaintainEnv) : Host × Outcome :=
  let h := h.pause env.entry
  match h.sub.check h.clock with
  | .error e => (h, some (.error e))
  | .ok () =>
    let h := h.expire now
    if h.sub.renewAt ≤ now then
      match h.subscribe env.renewal with
      | (h, none) => (h, none)
      | (h, some renewal) => h.afterRenewal renewal env
    else h.afterRenewal (.ok ()) env

end Host

/-! ### Cleanup and reconnection -/

/-- The reply to an unsubscription: done, failed, or none that is taken. -/
structure UnsubscribeEnv where
  reply : Option Bool
  answered : Pause
  deriving DecidableEq, Repr

structure ReconnectEnv where
  cleanup : UnsubscribeEnv
  /-- Identities that others have taken meanwhile. -/
  taken : Nat
  resume : Bool
  starting : Nat
  looking : Nat
  maintenance : MaintainEnv
  deriving DecidableEq, Repr

namespace Host

variable (h : Host)

def unsubscribe (env : UnsubscribeEnv) : Host × Option RemoteOutcome :=
  if h.sub.stopped ∨ h.sub.unsubscribe ≠ .notAttempted then (h, some h.sub.unsubscribe)
  else
    let h := { h.see (.unsubscribed h.clock) with sub := { h.sub.unsubscribed with unsubscribe := .uncertain } }
    match env.reply with
    | none => (h, none)
    | some done =>
      let outcome : RemoteOutcome := if done then .confirmed else .failed
      let h := h.pause env.answered
      ({ h with sub := { h.sub with unsubscribe := outcome } }, some outcome)

/-- The old identity is fenced before anything fresh is requested. -/
def fence (generation : Nat) (resume : Bool) : Host :=
  { h.see .reconnected with
    sub := { ({ h.sub.unsubscribed with generation := generation, unsubscribe := .notAttempted }).loss
        (if resume then .hostResume else .reconnect) with
      current := none } }

/-- The outcome of the cleanup is kept; others have taken identities meanwhile. -/
def cleaned (outcome : RemoteOutcome) (taken : Nat) : Host :=
  { h with sub := { h.sub with priorUnsubscribe := outcome }, generations := h.generations + taken }

/-- A fenced owner under its new identity, with a renewal due. -/
def renumbered (generation generations : Nat) (env : ReconnectEnv) : Host :=
  let h := ({ h with generations := generations }.fence generation env.resume).wait env.starting
  { h with sub := { h.sub with renewAt := h.clock } }

def reconnect (env : ReconnectEnv) : Host × Outcome :=
  match h.unsubscribe env.cleanup with
  | (h, none) => (h, none)
  | (h, some outcome) =>
    let h := h.cleaned outcome env.taken
    match next h.generations with
    | .error e => (h, some (.error e))
    | .ok (generation, generations) =>
      let h := (h.renumbered generation generations env).wait env.looking
      h.maintain h.clock env.maintenance

/-- `ended` is the answer of the transport. -/
def stop (cleanup : UnsubscribeEnv) (ended : Option Bool) : Host × Outcome :=
  if h.sub.stopped then (h, some (.ok ()))
  else
    match h.unsubscribe cleanup with
    | (h, none) => (h, none)
    | (h, some _) =>
      match ended with
      | none => (h, none)
      | some false => (h, some (.error .clientStop))
      | some true => ({ h with sub := { h.sub with stopped := true } }, some (.ok ()))

end Host

end Verdant.Cov
