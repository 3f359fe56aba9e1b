import Verdant.Cov.Runs

/-!
# What the law reads

Of a host the law reads the coverage, the deadline and the watch.  A step carries the law from one sight to the other:
what the watch counts as a gap is a loss of the coverage, and the deadlines agree.
-/

namespace Verdant.Cov

structure Sight where
  coverage : Coverage
  expires : Nat
  watch : Watch

def Host.sight (h : Host) : Sight := ⟨h.sub.coverage, h.sub.expires, h.watch⟩

namespace Sight

/-- The coverage agrees with the watch. -/
structure Sound (v : Sight) : Prop where
  tracks : ∀ deadline, v.watch.cover = .live deadline ↔ v.coverage.subscribed = true ∧ v.expires = deadline
  due : v.coverage.revalidationDue = false → v.watch.fresh = true
  bounded : v.coverage.changes ≤ maxU64

/-- Nothing recorded is taken back, and a new gap is recorded, unless the counter is full. -/
structure Kept (v v' : Sight) : Prop where
  grows : v.coverage.changes ≤ v'.coverage.changes
  sticky : v.coverage.unobservedInterval = true → v'.coverage.unobservedInterval = true
  recorded : v.watch.gaps < v'.watch.gaps →
    (v.coverage.changes < v'.coverage.changes ∨ v.coverage.changes = maxU64) ∧ v'.coverage.unobservedInterval = true

/-- A step that carries the law. -/
def Carries (v v' : Sight) : Prop := v.Sound → v'.Sound ∧ Kept v v'

theorem Kept.refl (v : Sight) : Kept v v := ⟨Nat.le_refl _, id, fun h => absurd h (Nat.lt_irrefl _)⟩

theorem Kept.trans {v₁ v₂ v₃ : Sight} (h₁ : Kept v₁ v₂) (h₂ : Kept v₂ v₃) : Kept v₁ v₃ where
  grows := Nat.le_trans h₁.grows h₂.grows
  sticky := h₂.sticky ∘ h₁.sticky
  recorded hgap := by
    have hgrows₁ := h₁.grows
    have hgrows₂ := h₂.grows
    -- the gap is new in one of the two steps, and what one of them adds to the counter stays
    by_cases hfirst : v₁.watch.gaps < v₂.watch.gaps
    · obtain ⟨hchanges, hunobserved⟩ := h₁.recorded hfirst
      exact ⟨by omega, h₂.sticky hunobserved⟩
    · obtain ⟨hchanges, hunobserved⟩ := h₂.recorded (by omega)
      exact ⟨by omega, hunobserved⟩

theorem Carries.refl (v : Sight) : Carries v v := fun hsound => ⟨hsound, .refl v⟩

theorem Carries.trans {v₁ v₂ v₃ : Sight} (h₁ : Carries v₁ v₂) (h₂ : Carries v₂ v₃) : Carries v₁ v₃ := by
  intro hsound
  obtain ⟨hsound₂, hkept₁⟩ := h₁ hsound
  obtain ⟨hsound₃, hkept₂⟩ := h₂ hsound₂
  exact ⟨hsound₃, hkept₁.trans hkept₂⟩

/-! ### The coverage of a loss -/

theorem loss_changes (c : Coverage) (reason : Loss) : (c.loss reason).changes = min (c.changes + 1) maxU64 := rfl

/-- A step that records a loss keeps what was recorded. -/
theorem Kept.of_loss {v v' : Sight} (hbounded : v.coverage.changes ≤ maxU64)
    (hchanges : v'.coverage.changes = min (v.coverage.changes + 1) maxU64)
    (hunobserved : v'.coverage.unobservedInterval = true) : Kept v v' where
  grows := by omega
  sticky _ := hunobserved
  recorded _ := ⟨by omega, hunobserved⟩

/-- A step without a new gap keeps what was recorded if it does not touch it. -/
theorem Kept.of_same {v v' : Sight} (hchanges : v'.coverage.changes = v.coverage.changes)
    (hunobserved : v'.coverage.unobservedInterval = v.coverage.unobservedInterval)
    (hgaps : v'.watch.gaps = v.watch.gaps) : Kept v v' where
  grows := by omega
  sticky h := hunobserved.trans h
  recorded h := by omega

/-- Without coverage the watch has no live deadline. -/
theorem Sound.not_live {v : Sight} (h : v.Sound) (hsubscribed : v.coverage.subscribed = false) (deadline : Nat) :
    v.watch.cover ≠ .live deadline := by
  intro hcover
  have := ((h.tracks deadline).mp hcover).1
  simp [hsubscribed] at this

theorem Sound.live {v : Sight} (h : v.Sound) (hsubscribed : v.coverage.subscribed = true) :
    v.watch.cover = .live v.expires := (h.tracks v.expires).mpr ⟨hsubscribed, rfl⟩

/-- A sight without coverage is sound when its watch is not live, and a revalidation that is not due was made. -/
theorem Sound.of_not_live {v : Sight} (hsubscribed : v.coverage.subscribed = false)
    (hcover : ∀ deadline, v.watch.cover ≠ .live deadline)
    (hdue : v.coverage.revalidationDue = false → v.watch.fresh = true) (hbounded : v.coverage.changes ≤ maxU64) :
    v.Sound where
  tracks deadline := ⟨fun h => absurd h (hcover deadline), fun h => by simp [hsubscribed] at h⟩
  due := hdue
  bounded := hbounded

/-! ### What an operation does to a sight -/

def expire (v : Sight) (now : Nat) : Sight where
  coverage := if v.coverage.subscribed ∧ v.expires ≤ now then v.coverage.unsubscribed.loss .expired else v.coverage
  expires := v.expires
  watch := v.watch.expire now

/-- The cover ends with a recorded loss. -/
def fall (v : Sight) (reason : Loss) (expires : Nat) (watch : Watch) : Sight where
  coverage := v.coverage.unsubscribed.loss reason
  expires := expires
  watch := watch

theorem carries_fall (v : Sight) (reason : Loss) (expires : Nat) {watch : Watch}
    (h : ∀ deadline, watch.cover ≠ .live deadline) : Carries v (v.fall reason expires watch) := by
  intro hsound
  refine ⟨.of_not_live rfl h (fun hdue => nomatch hdue) ?_, .of_loss hsound.bounded rfl rfl⟩
  change min (v.coverage.changes + 1) maxU64 ≤ maxU64
  omega

theorem carries_expire (v : Sight) (now : Nat) : Carries v (v.expire now) := by
  intro hsound
  by_cases hsubscribed : v.coverage.subscribed = true
  · have hlive := hsound.live hsubscribed
    by_cases hnow : v.expires ≤ now
    · have hexpire : v.expire now = v.fall .expired v.expires { v.watch.gap with cover := .gone } := by
        simp [expire, fall, hsubscribed, hnow, Watch.expire_of_live hlive hnow]
      rw [hexpire]
      exact carries_fall v _ _ (by simp) hsound
    · have hwatch : v.watch.expire now = v.watch := Watch.expire_of_lt fun deadline hcover => by
        rw [hlive] at hcover
        cases hcover
        omega
      have hexpire : v.expire now = v := by simp [expire, hnow, hwatch]
      rw [hexpire]
      exact ⟨hsound, .refl v⟩
  · have hwatch := Watch.expire_of_not_live (hsound.not_live (by simpa using hsubscribed)) now
    have hexpire : v.expire now = v := by simp [expire, hsubscribed, hwatch]
    rw [hexpire]
    exact ⟨hsound, .refl v⟩

/-- A gap that leaves the cover. -/
def dent (v : Sight) (reason : Loss) : Sight := ⟨v.coverage.loss reason, v.expires, v.watch.gap⟩

theorem carries_dent (v : Sight) (reason : Loss) : Carries v (v.dent reason) := by
  intro hsound
  refine ⟨⟨hsound.tracks, (fun hdue => nomatch hdue), ?_⟩, .of_loss hsound.bounded rfl rfl⟩
  change min (v.coverage.changes + 1) maxU64 ≤ maxU64
  omega

/-- The point is read. -/
def fill (v : Sight) : Sight := ⟨{ v.coverage with revalidationDue := false }, v.expires, { v.watch with fresh := true }⟩

theorem carries_fill (v : Sight) : Carries v v.fill :=
  fun hsound => ⟨⟨hsound.tracks, fun _ => rfl, hsound.bounded⟩, .of_same rfl rfl rfl⟩

/-- A notification that leaves a deadline is no shorter than the one that is kept. -/
theorem carries_shorten (v : Sight) (now remaining : Nat)
    (h : v.coverage.subscribed = true → remaining ≠ 0 ∧ v.expires ≤ now + remaining) :
    Carries v ⟨v.coverage, v.expires, v.watch.shorten now remaining⟩ := by
  intro hsound
  have hwatch : v.watch.shorten now remaining = v.watch := by
    unfold Watch.shorten
    split
    · rename_i deadline hcover
      obtain ⟨hsubscribed, rfl⟩ := (hsound.tracks deadline).mp hcover
      obtain ⟨hremaining, hexpires⟩ := h hsubscribed
      rw [if_neg hremaining, Nat.min_eq_left hexpires, ← hcover]
    · rfl
  rw [hwatch]
  exact ⟨hsound, .refl v⟩

/-- A notification that leaves nothing. -/
theorem carries_exhaust (v : Sight) (now : Nat) : Carries v (v.fall .expired v.expires (v.watch.shorten now 0)) := by
  refine carries_fall v _ _ fun deadline hcover => ?_
  unfold Watch.shorten at hcover
  split at hcover
  · rename_i hlive
    rw [if_pos rfl, Watch.lapse_of_live hlive] at hcover
    exact nomatch hcover
  · rename_i hno
    exact hno deadline hcover

/-- The owner unsubscribes before its deadline. -/
theorem carries_unsubscribe (v : Sight) (now : Nat) (h : v.coverage.subscribed = true → now < v.expires) :
    Carries v ⟨v.coverage.unsubscribed, v.expires, { v.watch.expire now with cover := .ended }⟩ := by
  intro hsound
  have hwatch : v.watch.expire now = v.watch := Watch.expire_of_lt fun deadline hcover => by
    obtain ⟨hsubscribed, rfl⟩ := (hsound.tracks deadline).mp hcover
    exact h hsubscribed
  rw [hwatch]
  exact ⟨.of_not_live rfl (by simp) hsound.due hsound.bounded, .of_same rfl rfl rfl⟩

/-- A request that is not answered, when nothing was covered. -/
theorem carries_unanswered (v : Sight) (now : Nat) (h : v.coverage.subscribed = false) :
    Carries v ⟨v.coverage.unsubscribed, v.expires, (v.watch.expire now).lapse⟩ := by
  intro hsound
  have hcover := hsound.not_live h
  rw [Watch.expire_of_not_live hcover, Watch.lapse_of_not_live hcover]
  exact ⟨.of_not_live rfl hcover hsound.due hsound.bounded, .of_same rfl rfl rfl⟩

/-- A request that is granted before the old deadline, or when nothing was covered. -/
theorem carries_grant (v : Sight) (now expires : Nat) (h : v.coverage.subscribed = true → now < v.expires) :
    Carries v ⟨{ v.coverage with subscribed := true }, expires, { v.watch.expire now with cover := .live expires }⟩ := by
  intro hsound
  have hwatch : v.watch.expire now = v.watch := Watch.expire_of_lt fun deadline hcover => by
    obtain ⟨hsubscribed, rfl⟩ := (hsound.tracks deadline).mp hcover
    exact h hsubscribed
  rw [hwatch]
  refine ⟨⟨fun deadline => ?_, hsound.due, hsound.bounded⟩, .of_same rfl rfl rfl⟩
  simp

end Sight

end Verdant.Cov
