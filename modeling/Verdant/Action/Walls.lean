import Verdant.Action.Expiry

/-!
# Three deadline walls

The admission, the expiry owner and the dispatch each hold the five seconds of a SET against the durable `created` with a
ladder of their own.  The three ladders answer one verdict, a function of the difference over the integers
(`walls_agree`).
-/

namespace Verdant.Action

open Storage Prog

/-- The wall of the admission owner, against the owned deadline. -/
def checkDeadlineWall (created now : Int) : Except WriterError Unit :=
  match checkedElapsed created now with
  | none => .error (.rateIndeterminate "wall-rollback")
  | some elapsed =>
    if elapsed < 0 then .error (.rateIndeterminate "wall-rollback")
    else if deadlineSecs ≤ elapsed.toNat then .error (.deadlineExceeded elapsed.toNat deadlineSecs)
    else .ok ()

/-! ### Verdicts -/

inductive WallVerdict where
  | active
  | expired
  | indeterminate
  deriving DecidableEq, Repr

/-- The verdict on a difference over the integers; past `i64` it is indeterminate, as before the anchor. -/
def wallVerdict (created now : Int) (deadline : Nat) : WallVerdict :=
  if now - created < 0 ∨ 2 ^ 63 ≤ now - created then .indeterminate
  else if now - created < deadline then .active
  else .expired

theorem wallVerdict_eq_active {created now : Int} {deadline : Nat} (hdeadline : deadline < 2 ^ 63) :
    wallVerdict created now deadline = .active ↔ 0 ≤ now - created ∧ now - created < deadline := by
  unfold wallVerdict
  by_cases hout : now - created < 0 ∨ 2 ^ 63 ≤ now - created
  · simp only [if_pos hout, reduceCtorEq, false_iff]
    omega
  · by_cases hinside : now - created < deadline
    · simp only [if_neg hout, if_pos hinside, true_iff]
      omega
    · simp only [if_neg hout, if_neg hinside, reduceCtorEq, false_iff]
      omega

theorem wallVerdict_eq_indeterminate {created now : Int} {deadline : Nat} :
    wallVerdict created now deadline = .indeterminate ↔ now < created ∨ 2 ^ 63 ≤ now - created := by
  unfold wallVerdict
  by_cases hout : now - created < 0 ∨ 2 ^ 63 ≤ now - created
  · simp only [if_pos hout, true_iff]
    omega
  · by_cases hinside : now - created < deadline
    · simp only [if_neg hout, if_pos hinside, reduceCtorEq, false_iff]
      omega
    · simp only [if_neg hout, if_neg hinside, reduceCtorEq, false_iff]
      omega

/-! What each owner says, `none` for what is no answer of a wall. -/

def writerVerdict : Except WriterError Unit → Option WallVerdict
  | .ok () => some .active
  | .error (.deadlineExceeded _ _) => some .expired
  | .error (.rateIndeterminate _) => some .indeterminate
  | .error _ => none

def expiryVerdict : ExpiryState → WallVerdict
  | .active => .active
  | .expired _ _ => .expired
  | .indeterminate _ => .indeterminate

/-- The dispatch tells its two refusals apart in their text alone. -/
def dispatchVerdict : Except DispatchError Unit → Option WallVerdict
  | .ok () => some .active
  | .error (.invalidDetail "wall" detail) =>
    if "durable deadline wall expired".toList.isPrefixOf detail.toList then some .expired
    else if "durable wall indeterminate".toList.isPrefixOf detail.toList then some .indeterminate
    else none
  | .error _ => none

/-! ### The three ladders -/

theorem checkedElapsed_eq {created now : Int} (h : ¬(now - created < 0 ∨ 2 ^ 63 ≤ now - created)) :
    checkedElapsed created now = some (now - created) := by
  unfold checkedElapsed
  exact if_pos (by omega)

/-- Before the anchor or past `i64` there is no elapsed time to go by. -/
theorem checkedElapsed_out {created now : Int} (h : now - created < 0 ∨ 2 ^ 63 ≤ now - created) :
    checkedElapsed created now = none ∨ ∃ elapsed < 0, checkedElapsed created now = some elapsed := by
  unfold checkedElapsed
  by_cases hrange : -2 ^ 63 ≤ now - created ∧ now - created < 2 ^ 63
  · rw [if_pos hrange]
    exact .inr ⟨now - created, by omega, rfl⟩
  · rw [if_neg hrange]
    exact .inl rfl

theorem writerVerdict_checkDeadlineWall (created now : Int) :
    writerVerdict (checkDeadlineWall created now) = some (wallVerdict created now deadlineSecs) := by
  unfold checkDeadlineWall wallVerdict
  by_cases hout : now - created < 0 ∨ 2 ^ 63 ≤ now - created
  · rw [if_pos hout]
    rcases checkedElapsed_out hout with hnone | ⟨elapsed, hback, hsome⟩
    · rw [hnone]
      rfl
    · rw [hsome]
      simp only [if_pos hback]
      rfl
  · rw [if_neg hout, checkedElapsed_eq hout]
    have hforward : ¬ now - created < 0 := fun h => hout (.inl h)
    simp only [if_neg hforward]
    by_cases hlate : deadlineSecs ≤ (now - created).toNat
    · have hpast : ¬ now - created < deadlineSecs := by omega
      rw [if_pos hlate, if_neg hpast]
      rfl
    · have hinside : now - created < deadlineSecs := by omega
      rw [if_neg hlate, if_pos hinside]
      rfl

theorem expiryVerdict_assessDeadlineWall (created now : Int) (deadline : Nat) :
    expiryVerdict (assessDeadlineWall created now deadline) = wallVerdict created now deadline := by
  unfold assessDeadlineWall wallVerdict
  by_cases hout : now - created < 0 ∨ 2 ^ 63 ≤ now - created
  · rw [if_pos hout]
    rcases checkedElapsed_out hout with hnone | ⟨elapsed, hback, hsome⟩
    · rw [hnone]
      rfl
    · rw [hsome]
      simp only [if_pos hback]
      rfl
  · rw [if_neg hout, checkedElapsed_eq hout]
    have hforward : ¬ now - created < 0 := fun h => hout (.inl h)
    simp only [if_neg hforward]
    by_cases hlate : deadline ≤ (now - created).toNat
    · have hpast : ¬ now - created < deadline := by omega
      rw [if_pos hlate, if_neg hpast]
      rfl
    · have hinside : now - created < deadline := by omega
      rw [if_neg hlate, if_pos hinside]
      rfl

theorem dispatchVerdict_rollback : dispatchVerdict (.error (.invalidDetail "wall"
    "durable wall indeterminate (wall-rollback); fresh Instant cannot renew durable anchor")) = some .indeterminate := by
  decide

theorem dispatchVerdict_expired (elapsed deadline : Nat) : dispatchVerdict (.error (.invalidDetail "wall"
    (s!"durable deadline wall expired: elapsed {elapsed}s >= deadline {deadline}s; " ++
      "fresh Instant cannot renew durable anchor"))) = some .expired := by
  have hprefix : "durable deadline wall expired".toList.isPrefixOf
      (s!"durable deadline wall expired: elapsed {elapsed}s >= deadline {deadline}s; " ++
        "fresh Instant cannot renew durable anchor").toList = true := by
    rw [List.isPrefixOf_iff_prefix]
    simp only [String.toList_append, List.append_assoc]
    exact (by decide : "durable deadline wall expired".toList <+: "durable deadline wall expired: elapsed ".toList).trans
      (List.prefix_append _ _)
  simp only [dispatchVerdict, if_pos hprefix]

theorem dispatchVerdict_verifyDurableWall (admitted : Admitted) (now : Int) :
    dispatchVerdict (verifyDurableWallForSetWithNow admitted now) =
      some (wallVerdict admitted.createdSecs now admitted.deadlineSecs) := by
  unfold verifyDurableWallForSetWithNow wallVerdict
  by_cases hout : now - admitted.createdSecs < 0 ∨ 2 ^ 63 ≤ now - admitted.createdSecs
  · rw [if_pos hout]
    rcases checkedElapsed_out hout with hnone | ⟨elapsed, hback, hsome⟩
    · rw [hnone]
      exact dispatchVerdict_rollback
    · rw [hsome]
      simp only [if_pos hback]
      exact dispatchVerdict_rollback
  · rw [if_neg hout, checkedElapsed_eq hout]
    have hforward : ¬ now - admitted.createdSecs < 0 := fun h => hout (.inl h)
    simp only [if_neg hforward]
    by_cases hlate : admitted.deadlineSecs ≤ (now - admitted.createdSecs).toNat
    · have hpast : ¬ now - admitted.createdSecs < admitted.deadlineSecs := by omega
      rw [Result.refuseIf, if_pos hlate, if_neg hpast]
      exact dispatchVerdict_expired _ _
    · have hinside : now - admitted.createdSecs < admitted.deadlineSecs := by omega
      rw [Result.refuseIf, if_neg hlate, if_pos hinside]
      rfl

/-- The gate of the expiry owner lets a fresh and active SET through exactly inside its wall. -/
theorem decideSetWithWallAnchor_active_fresh (created now : Int) (deadline : Nat) :
    decideSetWithWallAnchor .active .fresh created now deadline = .ok () ↔ wallVerdict created now deadline = .active := by
  rw [← expiryVerdict_assessDeadlineWall]
  unfold decideSetWithWallAnchor
  cases assessDeadlineWall created now deadline <;> simp [expiryVerdict, decideSetAllowed]

/-- The three walls give one verdict on every two readings, and it is active exactly on the five seconds from the
anchor. -/
theorem walls_agree (created now : Int64) (admitted : Admitted) :
    let row : Admitted := { admitted with createdSecs := created.toInt, deadlineSecs := deadlineSecs }
    let verdict := wallVerdict created.toInt now.toInt deadlineSecs
    (writerVerdict (checkDeadlineWall created.toInt now.toInt) = some verdict ∧
      expiryVerdict (assessDeadlineWall created.toInt now.toInt deadlineSecs) = verdict ∧
      (decideSetWithWallAnchor .active .fresh created.toInt now.toInt deadlineSecs = .ok () ↔ verdict = .active) ∧
      dispatchVerdict (verifyDurableWallForSetWithNow row now.toInt) = some verdict) ∧
    (verdict = .active ↔ 0 ≤ now.toInt - created.toInt ∧ now.toInt - created.toInt < 5) ∧
    (verdict = .indeterminate ↔ now.toInt < created.toInt ∨ 2 ^ 63 ≤ now.toInt - created.toInt) := by
  refine ⟨⟨?_, ?_, ?_, ?_⟩, ?_, ?_⟩
  · exact writerVerdict_checkDeadlineWall _ _
  · exact expiryVerdict_assessDeadlineWall _ _ _
  · exact decideSetWithWallAnchor_active_fresh _ _ _
  · exact dispatchVerdict_verifyDurableWall _ _
  · exact wallVerdict_eq_active (by decide)
  · exact wallVerdict_eq_indeterminate

example : checkDeadlineWall (-2 ^ 63) (2 ^ 63 - 1) = .error (.rateIndeterminate "wall-rollback") := by decide

end Verdant.Action
