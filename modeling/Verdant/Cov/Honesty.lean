import Verdant.Library.Result
import Verdant.Cov.Sight

/-!
# Coverage hides no gap

Every operation carries the law of a sight; a run of calls that meet their condition is honest by induction.
-/

namespace Verdant.Cov

/-! ### The operations -/

namespace Host

open Sight

variable (h : Host)

@[simp] theorem sight_pause (p : Pause) : (h.pause p).sight = h.sight := rfl

@[simp] theorem sight_wait (delay : Nat) : (h.wait delay).sight = h.sight := rfl

theorem sight_see (event : Event) : (h.see event).sight = ⟨h.sub.coverage, h.sub.expires, h.watch.see event⟩ := by
  simp [sight, watch, see]

theorem sight_lose (event : Event) (reason : Loss) :
    (h.lose event reason).sight = ⟨h.sub.coverage.loss reason, h.sub.expires, h.watch.see event⟩ := by
  simp [sight, watch, lose, see, Subscription.loss]

theorem sight_expire (now : Nat) : (h.expire now).sight = h.sight.expire now := by
  unfold expire Subscription.expire Sight.expire
  by_cases hdue : h.sub.coverage.subscribed ∧ h.sub.expires ≤ now
  · rw [if_pos hdue, if_pos (show h.sight.coverage.subscribed ∧ h.sight.expires ≤ now from hdue)]
    simp [sight, watch, see, Watch.see, Subscription.loss, Subscription.unsubscribed]
  · rw [if_neg hdue, if_neg (show ¬(h.sight.coverage.subscribed ∧ h.sight.expires ≤ now) from hdue)]
    simp [sight, watch, see, Watch.see]

/-- Coverage that outlasts a look has its deadline ahead. -/
theorem expire_subscribed {now : Nat} (hsubscribed : (h.expire now).sub.coverage.subscribed = true) :
    (h.expire now).sub = h.sub ∧ h.sub.coverage.subscribed = true ∧ now < h.sub.expires := by
  by_cases hdue : h.sub.coverage.subscribed ∧ h.sub.expires ≤ now
  · have hsub : (h.expire now).sub = h.sub.unsubscribed.loss .expired := if_pos hdue
    rw [hsub] at hsubscribed
    exact nomatch hsubscribed
  · have hsub : (h.expire now).sub = h.sub := if_neg hdue
    rw [hsub] at hsubscribed
    have hahead : ¬h.sub.expires ≤ now := fun hpast => hdue ⟨hsubscribed, hpast⟩
    exact ⟨hsub, hsubscribed, by omega⟩

/-- A look leaves everything but the coverage. -/
theorem expire_frame (now : Nat) :
    (h.expire now).sub.slot = h.sub.slot ∧ (h.expire now).sub.options = h.sub.options ∧
      (h.expire now).sub.renewAt = h.sub.renewAt := by
  unfold expire Subscription.expire
  split
  · exact ⟨rfl, rfl, rfl⟩
  · exact ⟨rfl, rfl, rfl⟩

theorem carries_refused : Carries h.sight (h.lose .refused .capacity).sight := by
  rw [sight_lose]
  exact carries_dent h.sight .capacity

theorem carries_looked (now : Nat) : Carries h.sight (h.expire now).sight := by
  rw [sight_expire]
  exact Sight.carries_expire h.sight now

/-- The condition of a request, at the moment it is sent. -/
def requestMet (env : SubscribeEnv) : Prop :=
  h.sub.coverage.subscribed = true →
    match env.reply with
    | none => False
    | some false => True
    | some true => (h.pause env.answered).sub.slot.check (h.pause env.answered).clock = true ∧
        (h.clock < h.sub.expires ∨
          h.clock + seconds h.sub.options.lifetime ≤ (h.pause env.answered).clock + env.ending)

theorem accept_carries (started : Nat) (env : SubscribeEnv) (old : Sight)
    (hcoverage : h.sub.coverage = old.coverage.unsubscribed) (hwatch : h.watch = old.watch.expire started)
    (hmet : old.coverage.subscribed = true →
      started < old.expires ∨ started + seconds h.sub.options.lifetime ≤ h.clock + env.ending) :
    Carries old (h.accept started env).1.sight := by
  have hseen : Watch.of h.seen = old.watch.expire started := hwatch
  by_cases hlate : started + seconds h.sub.options.lifetime ≤ h.clock + env.ending
  · have hsight : (h.accept started env).1.sight = old.fall .expired (started + seconds h.sub.options.lifetime)
        { (old.watch.expire started).gap with cover := .gone } := by
      simp [accept, hlate, sight, watch, wait, see, lose, fall, Subscription.loss, hcoverage, hseen, Watch.see,
        Watch.expire, Watch.lapse, Watch.gap]
    rw [hsight]
    exact old.carries_fall _ _ (by simp)
  · have hsight : (h.accept started env).1.sight = ⟨{ old.coverage with subscribed := true },
        started + seconds h.sub.options.lifetime,
        { old.watch.expire started with cover := .live (started + seconds h.sub.options.lifetime) }⟩ := by
      simp [accept, hlate, sight, watch, wait, see, hcoverage, hseen, Watch.see, Coverage.unsubscribed]
    rw [hsight]
    exact old.carries_grant _ _ fun hsubscribed => (hmet hsubscribed).resolve_right hlate

@[simp] theorem sight_sent :
    h.sent.sight = ⟨h.sub.coverage.unsubscribed, h.sub.expires, h.watch.expire h.clock⟩ := by
  simp [sent, sight, watch, see, Watch.see, Subscription.unsubscribed]

theorem request_carries (env : SubscribeEnv) (hmet : h.requestMet env)
    (hopen : h.sub.stopped = false ∧ h.sub.unsubscribe = .notAttempted) : Carries h.sight (h.request env).1.sight := by
  have hsent : h.sent.watch = h.watch.expire h.clock := congrArg Sight.watch h.sight_sent
  unfold requestMet at hmet
  unfold request
  cases hreply : env.reply with
  | none =>
    have hsubscribed : h.sub.coverage.subscribed = false := by simpa [hreply] using hmet
    have hsight := h.sight.carries_unanswered h.clock hsubscribed
    simp only [sight_see, hsent]
    exact hsight
  | some granted =>
    cases granted with
    | false =>
      have hsight := h.sight.carries_fall .renewalFailed h.sub.expires (Watch.lapse_not_live (h.watch.expire h.clock))
      simp only [sight_lose]
      have hpause : (h.sent.pause env.answered).watch = h.watch.expire h.clock := hsent
      rw [hpause]
      exact hsight
    | true =>
      have hreplied : (h.sent.pause env.answered).watch = h.watch.expire h.clock := hsent
      have hcheck := Subscription.check_open (s := (h.sent.pause env.answered).sub) hopen
        (h.sent.pause env.answered).clock
      by_cases hslot : (h.sent.pause env.answered).sub.slot.check (h.sent.pause env.answered).clock = true
      · rw [if_pos hslot] at hcheck
        simp only [hcheck]
        refine accept_carries _ h.clock env h.sight rfl hreplied fun hsubscribed => ?_
        have hboth := hmet hsubscribed
        simp only [hreply] at hboth
        exact hboth.2
      · have hgone : ¬(h.pause env.answered).sub.slot.check (h.pause env.answered).clock = true := hslot
        have hsubscribed : h.sub.coverage.subscribed = false := by simpa [hreply, hgone] using hmet
        rw [if_neg hslot] at hcheck
        simp only [hcheck, sight_see, hreplied]
        exact h.sight.carries_unanswered h.clock hsubscribed

theorem subscribe_carries (env : SubscribeEnv) (hmet : h.subscribeMet env) :
    Carries h.sight (h.subscribe env).1.sight := by
  unfold subscribe
  cases hcheck : (h.pause env.entry).sub.check (h.pause env.entry).clock with
  | error e =>
    simp only [hcheck]
    exact .refl _
  | ok =>
    cases hroom : (h.atAdmission env).receive env.room with
    | false =>
      have hrefused := (h.atAdmission env).carries_refused
      unfold atAdmission at hroom hrefused
      simpa [hroom, hcheck] using hrefused
    | true =>
      have hrequest := (h.atRequest env).request_carries env (fun hsubscribed => hmet hsubscribed ⟨hcheck, hroom⟩)
        (Subscription.check_ok hcheck).1
      unfold atAdmission at hroom
      unfold atRequest atAdmission at hrequest
      simpa [hroom, hcheck] using hrequest

/-! ### Draining -/

theorem sight_shorten (remaining : Nat) :
    (h.shorten remaining).sight =
      if remaining = 0 then h.sight.fall .expired h.sub.expires (h.watch.shorten h.clock 0)
      else ⟨h.sub.coverage, h.sub.expires, h.watch.shorten h.clock remaining⟩ := by
  unfold shorten
  by_cases hremaining : remaining = 0
  · simp [hremaining, sight, watch, see, Watch.see, fall, Subscription.loss, Subscription.unsubscribed]
  · simp [hremaining, sight, watch, see, Watch.see]

theorem shorten_own (remaining : Nat) : (h.shorten remaining).own = h.own := by
  unfold shorten
  split <;> rfl

theorem shorten_clock (remaining : Nat) : (h.shorten remaining).clock = h.clock := by
  unfold shorten
  split <;> rfl

theorem shorten_expires (remaining : Nat) : (h.shorten remaining).sub.expires = h.sub.expires := by
  unfold shorten
  split <;> rfl

/-- Coverage that outlasts a notification has been left some time. -/
theorem shorten_subscribed (remaining : Nat) (hsubscribed : (h.shorten remaining).sub.coverage.subscribed = true) :
    h.sub.coverage.subscribed = true ∧ remaining ≠ 0 := by
  unfold shorten at hsubscribed
  split at hsubscribed
  · exact nomatch hsubscribed
  · rename_i hremaining
    exact ⟨hsubscribed, hremaining⟩

theorem sample_carries (received : Notification) (stamp : Nat) (wall : Int) :
    Carries h.sight (h.sample received stamp wall).1.sight := by
  unfold sample
  split
  · split
    · simp only [sight_lose]
      exact carries_dent h.sight .capacity
    · exact .refl _
  · exact .refl _

/-- A sample leaves what the next looks depend on. -/
theorem sample_frame (received : Notification) (stamp : Nat) (wall : Int) :
    (h.sample received stamp wall).1.own = h.own ∧ (h.sample received stamp wall).1.clock = h.clock ∧
      (h.sample received stamp wall).1.sub.expires = h.sub.expires ∧
      (h.sample received stamp wall).1.sub.coverage.subscribed = h.sub.coverage.subscribed := by
  unfold sample
  split
  · split
    · exact ⟨rfl, rfl, rfl, rfl⟩
    · exact ⟨rfl, rfl, rfl, rfl⟩
  · exact ⟨rfl, rfl, rfl, rfl⟩

theorem seconds_eq_zero {n : Nat} : seconds n = 0 ↔ n = 0 := by
  unfold seconds
  omega

/-- What one notification may say while the subscription is covered. -/
def noticeMet (received : Notification) : Prop :=
  h.sub.coverage.subscribed = true → h.own received = true →
    if received.timeRemaining = 0 then received.listOfValues.length ≤ maxProperties
    else h.sub.expires ≤ h.clock + seconds received.timeRemaining

theorem shorten_carries (remaining : Nat)
    (hmet : h.sub.coverage.subscribed = true → remaining ≠ 0 → h.sub.expires ≤ h.clock + remaining) :
    Carries h.sight (h.shorten remaining).sight := by
  rw [sight_shorten]
  by_cases hremaining : remaining = 0
  · rw [if_pos hremaining]
    exact carries_exhaust h.sight h.clock
  · rw [if_neg hremaining]
    exact Sight.carries_shorten h.sight h.clock remaining fun hsubscribed => ⟨hremaining, hmet hsubscribed hremaining⟩

theorem notified_carries (look : Look) (received : Notification) (hmet : h.noticeMet received) :
    Carries h.sight (h.notified look received).1.sight := by
  unfold noticeMet at hmet
  unfold notified
  cases hown : h.own received with
  | false => exact .refl _
  | true =>
    by_cases hsize : maxProperties < received.listOfValues.length
    · -- an oversized notification is dropped before its remaining time is read
      have hshort : Carries h.sight ⟨h.sub.coverage, h.sub.expires, h.watch.shorten h.clock _⟩ :=
        h.sight.carries_shorten h.clock (seconds received.timeRemaining) fun hsubscribed => by
          have hnotice := hmet hsubscribed hown
          by_cases hzero : received.timeRemaining = 0
          · rw [if_pos hzero] at hnotice
            omega
          · rw [if_neg hzero] at hnotice
            exact ⟨fun h0 => hzero (seconds_eq_zero.mp h0), hnotice⟩
      have hdent := Sight.carries_dent ⟨h.sub.coverage, h.sub.expires,
        h.watch.shorten h.clock (seconds received.timeRemaining)⟩ .capacity
      simp only [hsize, if_true, Bool.true_eq_false, if_false]
      rw [sight_lose]
      have hwatch : (h.see (.dequeued h.clock (seconds received.timeRemaining))).watch =
          h.watch.shorten h.clock (seconds received.timeRemaining) := congrArg Sight.watch (sight_see h _)
      rw [hwatch]
      exact hshort.trans hdent
    · simp only [hsize, Bool.true_eq_false, if_false]
      refine (h.shorten_carries _ fun hsubscribed hremaining => ?_).trans (sample_carries _ _ _ _)
      have hnotice := hmet hsubscribed hown
      rwa [if_neg (fun hzero => hremaining (seconds_eq_zero.mpr hzero))] at hnotice

/-- A notification leaves what the next looks depend on; after one with nothing remaining there is no coverage. -/
theorem notified_frame (look : Look) (received : Notification) :
    (h.notified look received).1.own = h.own ∧ (h.notified look received).1.clock = h.clock ∧
      (h.notified look received).1.sub.expires = h.sub.expires ∧
      ((h.notified look received).1.sub.coverage.subscribed = true → h.sub.coverage.subscribed = true ∧
        (h.own received = true → received.listOfValues.length ≤ maxProperties → received.timeRemaining ≠ 0)) := by
  unfold notified
  cases hown : h.own received with
  | false => exact ⟨rfl, rfl, rfl, fun hsubscribed => ⟨hsubscribed, fun h0 => nomatch h0⟩⟩
  | true =>
    by_cases hsize : maxProperties < received.listOfValues.length
    · simp only [hsize, if_true, Bool.true_eq_false, if_false]
      exact ⟨rfl, rfl, rfl, fun hsubscribed => ⟨hsubscribed, fun _ hsmall => by omega⟩⟩
    · simp only [hsize, Bool.true_eq_false, if_false]
      obtain ⟨hown', hclock, hexpires, hsubscribed'⟩ :=
        sample_frame (h.shorten (seconds received.timeRemaining)) received look.stamp look.wall
      refine ⟨hown'.trans (h.shorten_own _), hclock.trans (h.shorten_clock _), hexpires.trans (h.shorten_expires _),
        fun hsubscribed => ?_⟩
      rw [hsubscribed'] at hsubscribed
      obtain ⟨hbefore, hremaining⟩ := h.shorten_subscribed _ hsubscribed
      exact ⟨hbefore, fun _ _ hzero => hremaining (seconds_eq_zero.mpr hzero)⟩

/-- The looks, by their number: the condition of the rest is only needed while the coverage lasts. -/
theorem dequeue_carries (fuel : Nat) (looks : List Look) (h : Host)
    (hmet : h.sub.coverage.subscribed = true → LooksMet h.own h.sub.expires fuel h.clock looks) :
    Carries h.sight (dequeue fuel looks h).1.sight := by
  induction fuel generalizing looks h with
  | zero => exact .refl _
  | succ fuel ih =>
    cases looks with
    | nil => exact .refl _
    | cons look looks =>
      unfold dequeue
      unfold LooksMet at hmet
      cases hreceived : look.received with
      | empty => exact .refl _
      | closed =>
        have hfall := h.sight.carries_fall .closed h.sub.expires
          (show ∀ deadline, ({ h.watch.gap with cover := .gone } : Watch).cover ≠ .live deadline by simp)
        simpa [sight, watch, wait, lose, see, fall, Watch.see, Subscription.loss, Subscription.unsubscribed,
          Coverage.loss, Coverage.unsubscribed] using hfall
      | lagged n =>
        simp only [hreceived] at hmet ⊢
        have hdent : Carries h.sight ((h.wait look.delay).lose (.lagged n) (.lagged n)).sight := by
          rw [sight_lose]
          exact carries_dent h.sight _
        exact hdent.trans (ih looks _ hmet)
      | ok received =>
        simp only [hreceived] at hmet ⊢
        obtain ⟨hown, hclock, hexpires, hsubscribed⟩ := (h.wait look.delay).notified_frame look received
        have hnotice : (h.wait look.delay).noticeMet received := by
          intro hcovered hmine
          have hlook := hmet hcovered
          rw [if_pos (show h.own received = true from hmine)] at hlook
          split at hlook
          · rename_i hzero
            rwa [if_pos hzero]
          · rename_i hzero
            rw [if_neg hzero]
            exact hlook.1
        refine ((h.wait look.delay).notified_carries look received hnotice).trans
          (ih looks (((h.wait look.delay).notified look received).1.wait look.stamp) fun hcovered => ?_)
        obtain ⟨hbefore, hzero⟩ := hsubscribed hcovered
        have hlook := hmet hbefore
        have hrest : LooksMet h.own h.sub.expires fuel (h.clock + look.delay + look.stamp) looks := by
          split at hlook
          · rename_i hmine
            split at hlook
            · rename_i hnone
              exact absurd hnone (hzero hmine hlook)
            · exact hlook.2
          · exact hlook
        change LooksMet ((h.wait look.delay).notified look received).1.own
          ((h.wait look.delay).notified look received).1.sub.expires fuel
          (((h.wait look.delay).notified look received).1.clock + look.stamp) looks
        rw [hown, hclock, hexpires]
        exact hrest

theorem drain_carries (env : DrainEnv) (hmet : h.drainMet env) : Carries h.sight (h.drain env).1.sight := by
  unfold drain
  cases hcheck : (h.pause env.entry).sub.check (h.pause env.entry).clock with
  | error e =>
    simp only [hcheck]
    exact .refl _
  | ok =>
    simp only [hcheck]
    have hlooked : Carries h.sight ((h.atLook env).expire (h.atLook env).clock).sight :=
      (h.atLook env).carries_looked (h.atLook env).clock
    change Carries h.sight (if (((h.atLook env).expire (h.atLook env).clock).pause env.admission).receive env.room then _
      else _ : Host × Except BacnetError (List Sample)).1.sight
    split
    · rename_i hroom
      have hdequeue := dequeue_carries (((h.atLook env).expire (h.atLook env).clock).sub.options.capacity + 1) env.looks
        (((h.atLook env).expire (h.atLook env).clock).pause env.admission) fun hsubscribed => by
          obtain ⟨hsub, hbefore, hahead⟩ := (h.atLook env).expire_subscribed hsubscribed
          simp only [receive, pause, hsub] at hroom
          have hlooks := hmet hbefore hahead hcheck hroom
          simp only [pause, hsub]
          exact hlooks
      exact hlooked.trans hdequeue
    · exact hlooked.trans (carries_refused _)

theorem poll_carries (env : RevalidateEnv) : Carries h.sight (h.poll env).1.sight := by
  unfold poll
  dsimp only
  split
  · exact .refl _
  · exact .refl _
  · split
    · exact .refl _
    · split
      · have hfill := h.sight.carries_fill
        simpa [sight, watch, validated, wait, pause, see, fill, Watch.see] using hfill
      · exact .refl _

theorem revalidate_carries (env : RevalidateEnv) : Carries h.sight (h.revalidate env).1.sight := by
  unfold revalidate
  dsimp only
  split
  · exact .refl _
  · split
    · exact .refl _
    · split
      · split
        · exact .refl _
        · exact poll_carries (((h.pause env.entry).pause env.admission).wait env.backoff) env
      · exact carries_refused _

theorem afterRenewal_carries (renewal : Except BacnetError Unit) (env : MaintainEnv) :
    Carries h.sight (h.afterRenewal renewal env).1.sight := by
  unfold afterRenewal
  cases renewal with
  | ok => exact revalidate_carries h env.poll
  | error e =>
    exact revalidate_carries
      { h.wait env.failing with
        sub := { h.sub with renewAt := (h.wait env.failing).clock + h.sub.options.margin } } env.poll

theorem maintain_carries (now : Nat) (env : MaintainEnv) (hmet : h.maintainMet now env) :
    Carries h.sight (h.maintain now env).1.sight := by
  unfold maintain
  dsimp only
  split
  · exact .refl _
  · have hlooked : Carries h.sight ((h.pause env.entry).expire now).sight := (h.pause env.entry).carries_looked now
    split
    · rename_i hrenew
      have hrequest : ((h.pause env.entry).expire now).subscribeMet env.renewal := by
        by_cases hsubscribed : ((h.pause env.entry).expire now).sub.coverage.subscribed = true
        · obtain ⟨hsub, hbefore, hahead⟩ := (h.pause env.entry).expire_subscribed hsubscribed
          have hsame : (h.pause env.entry).expire now = (h.pause env.entry).see (.looked now) := by
            unfold expire at hsub ⊢
            rw [show (h.pause env.entry).sub.expire now = (h.pause env.entry).sub from hsub]
            rfl
          rw [hsame] at hrenew ⊢
          exact hmet hahead hrenew
        · exact fun h0 => absurd h0 hsubscribed
      have hsubscribe := hlooked.trans (subscribe_carries _ env.renewal hrequest)
      split
      · rename_i heq
        rw [heq] at hsubscribe
        exact hsubscribe
      · rename_i heq
        rw [heq] at hsubscribe
        exact hsubscribe.trans (afterRenewal_carries _ _ env)
    · exact hlooked.trans (afterRenewal_carries _ _ env)

theorem unsubscribe_carries (env : UnsubscribeEnv) (hmet : h.unsubscribeMet) :
    Carries h.sight (h.unsubscribe env).1.sight := by
  unfold unsubscribe
  dsimp only
  split
  · exact .refl _
  · have hended := Sight.carries_unsubscribe h.sight h.clock hmet
    split
    · simpa [sight, watch, see, Watch.see, Subscription.unsubscribed] using hended
    · simpa [sight, watch, see, pause, Watch.see, Subscription.unsubscribed] using hended

theorem stop_carries (cleanup : UnsubscribeEnv) (ended : Option Bool) (hmet : h.unsubscribeMet) :
    Carries h.sight (h.stop cleanup ended).1.sight := by
  have hcleanup := h.unsubscribe_carries cleanup hmet
  unfold stop
  split
  · exact .refl _
  · split
    · rename_i heq
      rw [heq] at hcleanup
      exact hcleanup
    · rename_i heq
      rw [heq] at hcleanup
      split
      · exact hcleanup
      · exact hcleanup
      · exact hcleanup

theorem unsubscribe_frame (env : UnsubscribeEnv) :
    (h.unsubscribe env).1.sub.coverage.unsubscribed = h.sub.coverage.unsubscribed ∧
      (h.unsubscribe env).1.generations = h.generations ∧
      (env.reply.isSome = true → (h.unsubscribe env).2.isSome = true) := by
  unfold unsubscribe
  dsimp only
  split
  · exact ⟨rfl, rfl, fun _ => rfl⟩
  · split
    · rename_i hreply
      exact ⟨rfl, rfl, fun h0 => by simp [hreply] at h0⟩
    · exact ⟨rfl, rfl, fun _ => rfl⟩

/-- After the fence nothing is covered and the gap is recorded, whatever a cleanup did to the coverage before. -/
theorem fence_carries (old : Sight) (generation : Nat) (resume : Bool)
    (hcoverage : h.sub.coverage.unsubscribed = old.coverage.unsubscribed) :
    Carries old (h.fence generation resume).sight := by
  have hfall := old.carries_fall (if resume then .hostResume else .reconnect) h.sub.expires
    (show ∀ deadline, ({ h.watch.gap with cover := .gone } : Watch).cover ≠ .live deadline by simp)
  have hsight : (h.fence generation resume).sight =
      old.fall (if resume then .hostResume else .reconnect) h.sub.expires { h.watch.gap with cover := .gone } := by
    unfold fall
    rw [← hcoverage]
    simp [fence, sight, watch, see, Watch.see, Subscription.loss, Subscription.unsubscribed]
  rw [hsight]
  exact hfall

theorem reconnect_carries (env : ReconnectEnv) (hmet : h.reconnectMet env) :
    Carries h.sight (h.reconnect env).1.sight := by
  obtain ⟨hcoverage, hgenerations, hanswer⟩ := h.unsubscribe_frame env.cleanup
  unfold reconnect
  cases hcleanup : h.unsubscribe env.cleanup with
  | mk left outcome =>
    rw [hcleanup] at hcoverage hgenerations hanswer
    -- a call that ends before the fence has only unsubscribed
    have hearly : h.unsubscribeMet → Carries h.sight left.sight := fun hcalm => by
      have hended := h.unsubscribe_carries env.cleanup hcalm
      rwa [hcleanup] at hended
    cases outcome with
    | none =>
      refine hearly (hmet.resolve_right fun hlate => ?_)
      exact nomatch hanswer hlate.1
    | some outcome =>
      dsimp only
      cases hnext : next (left.cleaned outcome env.taken).generations with
      | error e =>
        refine hearly (hmet.resolve_right fun hlate => ?_)
        have hroom : (left.cleaned outcome env.taken).generations + 1 ≤ maxU32 := by
          change left.generations + env.taken + 1 ≤ maxU32
          rw [hgenerations]
          exact hlate.2
        rw [next, if_pos hroom] at hnext
        exact nomatch hnext
      | ok numbers =>
        obtain ⟨generation, generations⟩ := numbers
        have hfence : Carries h.sight (((left.cleaned outcome env.taken).renumbered generation generations env).wait
            env.looking).sight :=
          fence_carries { left.cleaned outcome env.taken with generations := generations } h.sight generation env.resume
            hcoverage
        refine hfence.trans (maintain_carries _ _ env.maintenance fun _ _ hsubscribed => ?_)
        exact nomatch hsubscribed

/-! ### Every call, every run -/

theorem call_carries (call : Call) (hmet : h.met call) : Carries h.sight (h.call call).sight := by
  cases call with
  | pass pause => exact .refl _
  | coverage delay => exact carries_looked _ _
  | subscribe env => exact h.subscribe_carries env hmet
  | drain env => exact h.drain_carries env hmet
  | revalidate env => exact h.revalidate_carries env
  | maintain age env => exact h.maintain_carries _ env hmet
  | reconnect env => exact h.reconnect_carries env hmet
  | unsubscribe env => exact h.unsubscribe_carries env hmet
  | stop cleanup ended => exact h.stop_carries cleanup ended hmet

/-- What the law of a sight says of a call. -/
theorem honest_call (call : Call) (hsound : h.sight.Sound) (hmet : h.met call)
    (hroom : h.sub.coverage.changes < maxU64) : HonestCall h call := by
  obtain ⟨hafter, hkept⟩ := h.call_carries call hmet hsound
  refine ⟨?_, fun hgap => ?_, hafter.due, hkept.sticky, hkept.grows⟩
  · rintro delay rfl hsubscribed
    obtain ⟨hsub, hbefore, hahead⟩ := (h.wait delay).expire_subscribed hsubscribed
    refine ⟨_, hafter.live hsubscribed, ?_⟩
    have hexpires : ((h.wait delay).expire (h.clock + delay)).sub.expires = h.sub.expires :=
      congrArg Subscription.expires hsub
    change h.clock + delay < ((h.wait delay).expire (h.clock + delay)).sub.expires
    rw [hexpires]
    exact hahead
  · obtain ⟨hchanges, hunobserved⟩ := hkept.recorded hgap
    refine ⟨hchanges.resolve_right fun hfull => ?_, hunobserved⟩
    exact absurd hfull (Nat.ne_of_lt hroom)

end Host

/-- An opened subscription has never been covered. -/
theorem sound_open {env : OpenEnv} {h : Host} (hopen : Host.open env = .ok h) : h.sight.Sound := by
  unfold Host.open at hopen
  obtain ⟨numbers, -, hopen⟩ := Result.bind_eq_ok.mp hopen
  dsimp only at hopen
  split at hopen
  · exact nomatch hopen
  · split at hopen
    · exact nomatch hopen
    · cases hopen
      exact .of_not_live rfl (fun deadline hcover => nomatch hcover) (fun hdue => nomatch hdue) (Nat.zero_le _)

theorem honest_of_sound (calls : List Call) (h : Host) (hsound : h.sight.Sound) (hmet : Met h calls) :
    Honest h calls := by
  induction calls generalizing h with
  | nil => trivial
  | cons call calls ih =>
    obtain ⟨⟨hcall, hroom⟩, hrest⟩ := hmet
    exact ⟨h.honest_call call hsound hcall hroom, ih _ (h.call_carries call hcall hsound).1 hrest⟩

namespace Fixture

def options : FixtureOptions where
  lifetime := 35
  margin := seconds 10
  capacity := 4
  kind := .object
  bounds := by decide
  deadband := rfl

/-- A present value of an analog input at a local peer. -/
def opening : OpenEnv where
  slot := ⟨seconds 35, false⟩
  mac := [127, 0, 0, 1, 186, 192]
  property := ⟨1, 85, none⟩
  options := options
  clock := 0
  generations := 1
  entry := ⟨0, false⟩
  started := true
  starting := 0

def host : Host where
  sub := .fresh ⟨seconds 35, false⟩ [127, 0, 0, 1, 186, 192] ⟨1, 85, none⟩ options 1 0
  clock := 0
  generations := 2
  seen := []

/-- A subscription that is granted at once. -/
def subscribe : Call := .subscribe ⟨⟨0, false⟩, ⟨0, false⟩, true, 0, some true, ⟨0, false⟩, 0⟩

/-- A value that arrives after two seconds and says how long the peer will go on. -/
def drain (timeRemaining : Nat) : Call :=
  .drain ⟨⟨seconds 2, false⟩, 0, ⟨0, false⟩, true,
    [⟨0, .ok ⟨none, none, [127, 0, 0, 1, 186, 192], 1, 1, timeRemaining, [⟨85, none, [1]⟩]⟩, 0, 0⟩]⟩

def coverage : Call := .coverage (seconds 8)

end Fixture

end Verdant.Cov
