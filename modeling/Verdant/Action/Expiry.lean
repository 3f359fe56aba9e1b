import Verdant.Action.Dispatch

/-!
# Expiry gates

A new SET needs its durable deadline wall, an active horizon and fresh time evidence; an admitted NULL release stays
exempt from all three.  Both gates then delegate to the dispatch preparation.
-/

namespace Verdant.Action

open Storage Prog

/-- Monotonic expiry verdict. -/
inductive ExpiryState where
  | active
  | expired (elapsedSecs durationSecs : Nat)
  | indeterminate (reason : String)
  deriving DecidableEq, Repr

inductive Freshness where
  | fresh
  | stale
  | unknown
  deriving DecidableEq, Repr

/-- Typed expiry failure. -/
inductive ExpiryError where
  | invalid (detail : String)
  | expired (elapsedSecs durationSecs : Nat)
  | indeterminate (reason : String)
  | nullNotAdmitted
  | dispatch (error : DispatchError)
  deriving DecidableEq

def ExpiryError.ofDispatch : DispatchError → ExpiryError
  | .nullNotAdmitted => .nullNotAdmitted
  | e => .dispatch e

/-- The 5 second wall anchored to the durable `created`. -/
def assessDeadlineWall (created now : Int) (deadline : Nat) : ExpiryState :=
  match checkedElapsed created now with
  | none => .indeterminate "wall-rollback"
  | some elapsed =>
    if elapsed < 0 then .indeterminate "wall-rollback"
    else if deadline ≤ elapsed.toNat then .expired elapsed.toNat deadline
    else .active

/-- Only an active horizon with fresh evidence lets a new SET through. -/
def decideSetAllowed (expiry : ExpiryState) (freshness : Freshness) : Except ExpiryError Unit :=
  match expiry with
  | .active =>
    match freshness with
    | .fresh => .ok ()
    | .stale => .error (.indeterminate "stale")
    | .unknown => .error (.indeterminate "unknown-time")
  | .expired elapsed duration => .error (.expired elapsed duration)
  | .indeterminate reason => .error (.indeterminate reason)

def decideSetWithWallAnchor (expiry : ExpiryState) (freshness : Freshness) (created now : Int) (deadline : Nat) :
    Except ExpiryError Unit :=
  match assessDeadlineWall created now deadline with
  | .active => decideSetAllowed expiry freshness
  | .expired elapsed duration => .error (.expired elapsed duration)
  | .indeterminate reason => .error (.indeterminate reason)

theorem assessDeadlineWall_eq_active {created now : Int} {deadline : Nat} :
    assessDeadlineWall created now deadline = .active ↔
      created ≤ now ∧ now < created + deadline ∧ now - created < 2 ^ 63 := by
  unfold assessDeadlineWall checkedElapsed
  by_cases hrange : -2 ^ 63 ≤ now - created ∧ now - created < 2 ^ 63
  · rw [if_pos hrange]
    by_cases hback : now - created < 0
    · simp only [if_pos hback, reduceCtorEq, false_iff]
      omega
    · by_cases hlate : deadline ≤ (now - created).toNat
      · simp only [if_neg hback, if_pos hlate, reduceCtorEq, false_iff]
        omega
      · simp only [if_neg hback, if_neg hlate, true_iff]
        omega
  · rw [if_neg hrange]
    simp only [reduceCtorEq, false_iff]
    omega

theorem decideSetAllowed_eq_ok {expiry : ExpiryState} {freshness : Freshness} :
    decideSetAllowed expiry freshness = .ok () ↔ expiry = .active ∧ freshness = .fresh := by
  cases expiry <;> cases freshness <;> simp [decideSetAllowed]

theorem decideSetWithWallAnchor_eq_ok {expiry : ExpiryState} {freshness : Freshness} {created now : Int}
    {deadline : Nat} (h : decideSetWithWallAnchor expiry freshness created now deadline = .ok ()) :
    created ≤ now ∧ now < created + deadline ∧ expiry = .active ∧ freshness = .fresh := by
  unfold decideSetWithWallAnchor at h
  split at h
  · rename_i hactive
    have hwall := assessDeadlineWall_eq_active.1 hactive
    exact ⟨hwall.1, hwall.2.1, decideSetAllowed_eq_ok.1 h⟩
  · exact nomatch h
  · exact nomatch h

section Handoff

variable {ρ : Type}

/-- Real wall-clock seconds; a clock before the epoch or past `i64` is indeterminate. -/
def wallNowSecs : Prog.Try (StoreOp.Answer (ρ := ρ)) ExpiryError Int := do
  match ← (Call.wall : Call ρ (Option Nat)) with
  | none => check (.error (.indeterminate "wall-rollback"))
  | some now =>
    if 2 ^ 63 ≤ now then check (.error (.indeterminate "wall-rollback")) else return Int.ofNat now

variable (admitted : Admitted) (preview : Preview) (current : Current) (route : FrozenRoute)

/-- Authorizes one frozen SET after the durable wall and the expiry and freshness gates. -/
def authorizeSet (expiry : ExpiryState) (freshness : Freshness) :
    Prog.Try (StoreOp.Answer (ρ := ρ)) ExpiryError FrozenWrite := do
  let now ← wallNowSecs
  check (decideSetWithWallAnchor expiry freshness admitted.createdSecs now admitted.deadlineSecs)
  mapErr .ofDispatch (prepareSetpoint admitted preview current route)

/-- Authorizes one frozen NULL release: the wall is read and gates nothing. -/
def authorizeRelease : Prog.Try (StoreOp.Answer (ρ := ρ)) ExpiryError FrozenWrite := do
  let _ ← (Call.wall : Call ρ (Option Nat))
  let write ← mapErr .ofDispatch (prepareRelease admitted preview current route)
  check (Result.refuseIf (write.value ≠ nullValueBytes) (.invalid "null wire 0x00"))
  check (Result.refuseIf write.wireBits.isSome (.invalid "release carries no Real bits"))
  check (Result.refuseIf (!write.isRelease) (.invalid "release flag"))
  return write

end Handoff

end Verdant.Action
