import Mathlib

/-!
# The watch over a subscription

What a subscription owes its reader, in its own terms: a deadline until which a peer has promised to report changes, and
the gaps in between.  The watch only folds over what happened: requests, replies, notices and readings of the clock.
Times are nanoseconds of the monotonic clock.
-/

namespace Verdant.Cov

/-- Something that happened to a subscription. -/
inductive Event where
  /-- The owner compares its deadline with a reading of the clock. -/
  | looked (now : Nat)
  /-- A subscription request is sent. -/
  | renewing (started : Nat)
  /-- The owner takes a grant of the request that was sent at `started`. -/
  | granted (started lifetime : Nat)
  | failed
  /-- The owner stops waiting for the reply. -/
  | abandoned
  /-- A grant that came when the owner was no longer admitted. -/
  | turnedAway
  /-- No capacity to receive. -/
  | refused
  | lagged (n : Nat)
  | closed
  /-- A notification of this subscription with its remaining lifetime. -/
  | dequeued (now remaining : Nat)
  /-- A notification of this subscription is dropped for its size. -/
  | oversized
  | unsubscribed (now : Nat)
  | reconnected
  /-- A read of the point succeeded. -/
  | read
  deriving DecidableEq, Repr

inductive Cover where
  /-- Not yet subscribed. -/
  | never
  | live (deadline : Nat)
  /-- Not covered any more; the gap is counted. -/
  | gone
  /-- The owner has unsubscribed. -/
  | ended
  deriving DecidableEq, Repr

structure Watch where
  cover : Cover
  gaps : Nat
  /-- The point was read since the last gap. -/
  fresh : Bool
  deriving DecidableEq, Repr

namespace Watch

def start : Watch := ⟨.never, 0, false⟩

def gap (w : Watch) : Watch := { w with gaps := w.gaps + 1, fresh := false }

/-- The cover ends here, if there is one. -/
def lapse (w : Watch) : Watch :=
  match w.cover with
  | .live _ => { w.gap with cover := .gone }
  | _ => w

def expire (w : Watch) (now : Nat) : Watch :=
  match w.cover with
  | .live deadline => if deadline ≤ now then w.lapse else w
  | _ => w

/-- A notice shortens the deadline and never extends it; one that leaves nothing ends the cover. -/
def shorten (w : Watch) (now remaining : Nat) : Watch :=
  match w.cover with
  | .live deadline => if remaining = 0 then w.lapse else { w with cover := .live (min deadline (now + remaining)) }
  | _ => w

def see (w : Watch) : Event → Watch
  | .looked now => w.expire now
  | .renewing started => w.expire started
  | .granted started lifetime => { w with cover := .live (started + lifetime) }
  | .failed => w.lapse
  | .abandoned => w.lapse
  | .turnedAway => w.lapse
  | .refused => w.gap
  | .lagged _ => w.gap
  | .closed => { w.gap with cover := .gone }
  | .dequeued now remaining => w.shorten now remaining
  | .oversized => w.gap
  | .unsubscribed now => { w.expire now with cover := .ended }
  | .reconnected => { w.gap with cover := .gone }
  | .read => { w with fresh := true }

def of (events : List Event) : Watch := events.foldl see .start

@[simp] theorem of_nil : of [] = start := rfl

@[simp] theorem of_append (events more : List Event) : of (events ++ more) = more.foldl see (of events) := by
  simp [of]

/-- A cover that the clock has not reached stays. -/
theorem expire_of_lt {w : Watch} {now : Nat} (h : ∀ deadline, w.cover = .live deadline → now < deadline) :
    w.expire now = w := by
  unfold expire
  split
  · rename_i deadline hcover
    have hlt := h deadline hcover
    rw [if_neg (by omega)]
  · rfl

theorem expire_of_not_live {w : Watch} (h : ∀ deadline, w.cover ≠ .live deadline) (now : Nat) : w.expire now = w :=
  expire_of_lt fun deadline hcover => absurd hcover (h deadline)

theorem expire_of_live {w : Watch} {deadline now : Nat} (hcover : w.cover = .live deadline) (h : deadline ≤ now) :
    w.expire now = { w.gap with cover := .gone } := by
  simp [expire, lapse, hcover, h]

theorem lapse_of_live {w : Watch} {deadline : Nat} (hcover : w.cover = .live deadline) :
    w.lapse = { w.gap with cover := .gone } := by
  simp [lapse, hcover]

theorem lapse_of_not_live {w : Watch} (h : ∀ deadline, w.cover ≠ .live deadline) : w.lapse = w := by
  unfold lapse
  split
  · rename_i deadline hcover
    exact absurd hcover (h deadline)
  · rfl

theorem lapse_not_live (w : Watch) (deadline : Nat) : w.lapse.cover ≠ .live deadline := by
  intro hcover
  unfold lapse at hcover
  split at hcover
  · exact nomatch hcover
  · rename_i hno
    exact hno deadline hcover

/-- After a look, what is still covered is covered beyond the look. -/
theorem lt_of_expire_live {w : Watch} {now deadline : Nat} (h : (w.expire now).cover = .live deadline) :
    w.cover = .live deadline ∧ now < deadline := by
  unfold expire at h
  split at h
  · rename_i d hcover
    split at h
    · rw [lapse_of_live hcover] at h
      exact nomatch h
    · rename_i hlt
      rw [hcover] at h ⊢
      cases h
      exact ⟨rfl, by omega⟩
  · rename_i hno
    exact absurd h (hno deadline)

end Watch

end Verdant.Cov
