import Verdant.Action.Joined

/-!
# What the gates of a handoff decide

A gate that passed says what it compared (`ContentVerified`, `SetPermit`, `ReleasePermit`).  No gate submits a ticket, so
a call that stops before its mark leaves the store as it was.
-/

namespace Verdant.Action

open Storage Prog

/-! ### Dispatch -/

/-- What `verifyContent` compared. -/
structure ContentVerified (admitted : Admitted) (preview : Preview) (current : Current) : Prop where
  actor : current.actor = admitted.actor
  scope : admitted.scope.text = preview.target.scope.text
  equipment : admitted.equipment.text = preview.target.equipment.text
  payload : admitted.payload = preview.canonicalBytes
  wireBits : admitted.wireBits = some preview.encoded.wireBits
  actionKind : admitted.actionKind.map ActionKind.asStr = some preview.actionKind
  releaseAdmitted : admitted.releaseAdmitted = some preview.releaseAdmitted
  releaseTarget : admitted.releaseTarget.map InstalledId.text = some preview.releaseTarget.text
  deadline : admitted.deadlineSecs = deadlineSecs

theorem verifyContent_eq_ok {admitted : Admitted} {preview : Preview} {current : Current} {route : FrozenRoute}
    (h : verifyContent admitted preview current route = .ok ()) : ContentVerified admitted preview current := by
  simp only [verifyContent, Result.bind_eq_ok, Result.refuseIf_eq_ok, not_not] at h
  obtain ⟨-, -, -, -, -, -, -, hactor, -, hscope, -, hequipment, -, -, -, -, -, -, -, -, -, -, -, -, -, hpayload, -,
    hbits, -, hkind, -, hadmitted, -, htarget, hdeadline⟩ := h
  exact ⟨hactor, hscope, hequipment, hpayload, hbits, hkind, hadmitted, htarget, hdeadline⟩

theorem set_of_asStr {kind : Option ActionKind} (h : kind.map ActionKind.asStr = some "set") : kind = some .set := by
  rcases kind with _ | kind
  · exact nomatch h
  · cases kind with
    | set => rfl
    | release => simp [ActionKind.asStr] at h

theorem release_of_asStr {kind : Option ActionKind} (h : kind.map ActionKind.asStr = some "release") :
    kind = some .release := by
  rcases kind with _ | kind
  · exact nomatch h
  · cases kind with
    | set => simp [ActionKind.asStr] at h
    | release => rfl

section Runs

variable {ρ : Type} {E : Moment → Prop} {db db' : Database ρ} {admitted : Admitted} {preview : Preview}
  {current : Current} {route : FrozenRoute} {write : FrozenWrite}

theorem runs_prepareSetpoint
    (h : Runs StoreOp.exec E (prepareSetpoint admitted preview current route).run db db' (some (.ok write))) :
    ContentVerified admitted preview current ∧ admitted.actionKind = some .set ∧
      write = .set preview.encoded.wireBits := by
  obtain ⟨⟨⟩, -, h⟩ := runs_check_ok h
  obtain ⟨⟨⟩, -, h⟩ := runs_check_ok h
  obtain ⟨⟨⟩, hcontent, h⟩ := runs_check_ok h
  obtain ⟨⟨⟩, -, h⟩ := runs_check_ok h
  obtain ⟨⟨⟩, _, -, h⟩ := runs_try_ok h
  obtain ⟨⟨⟩, hset, h⟩ := runs_check_ok h
  obtain ⟨⟨⟩, -, h⟩ := runs_check_ok h
  obtain ⟨⟨⟩, _, -, h⟩ := runs_try_ok h
  obtain ⟨⟨⟩, -, h⟩ := runs_check_ok h
  obtain ⟨⟨⟩, _, -, h⟩ := runs_try_ok h
  obtain ⟨-, hwrite⟩ := runs_done.1 h
  rw [Result.refuseIf_eq_ok, not_not] at hset
  exact ⟨verifyContent_eq_ok hcontent, set_of_asStr hset, by cases hwrite; rfl⟩

theorem runs_prepareRelease
    (h : Runs StoreOp.exec E (prepareRelease admitted preview current route).run db db' (some (.ok write))) :
    ContentVerified admitted preview current ∧ preview.releaseAdmitted = true ∧ write = .release nullValueBytes := by
  obtain ⟨⟨⟩, -, h⟩ := runs_check_ok h
  obtain ⟨⟨⟩, -, h⟩ := runs_check_ok h
  obtain ⟨⟨⟩, hcontent, h⟩ := runs_check_ok h
  obtain ⟨⟨⟩, -, h⟩ := runs_check_ok h
  obtain ⟨⟨⟩, _, -, h⟩ := runs_try_ok h
  obtain ⟨value, hnull, h⟩ := runs_check_ok h
  obtain ⟨⟨⟩, hvalue, h⟩ := runs_check_ok h
  obtain ⟨⟨⟩, _, -, h⟩ := runs_try_ok h
  obtain ⟨-, hwrite⟩ := runs_done.1 h
  rw [Result.refuseIf_eq_ok, not_not] at hvalue
  refine ⟨verifyContent_eq_ok hcontent, ?_, by cases hwrite; rw [hvalue]⟩
  unfold ReleasePlan.nullWire at hnull
  split at hnull
  · assumption
  · exact nomatch hnull

/-! ### Expiry -/

theorem runs_wall {reading : Option Nat} (h : Runs StoreOp.exec E (Call.wall : Call ρ (Option Nat)) db db' (some reading)) :
    ∃ m, E m ∧ m.wall = reading := by
  rcases runs_issue.1 h with ⟨-, hnone⟩ | ⟨m, hm, -, hreading⟩
  · exact nomatch hnone
  · exact ⟨m, hm, (Option.some.inj hreading).symm⟩

theorem runs_wallNowSecs {now : Int} (h : Runs StoreOp.exec E (wallNowSecs (ρ := ρ)).run db db' (some (.ok now))) :
    ∃ m secs, E m ∧ m.wall = some secs ∧ now = Int.ofNat secs := by
  obtain ⟨reading, u, hread, h⟩ := runs_lift_ok h
  obtain ⟨m, hm, hwall⟩ := runs_wall hread
  cases reading with
  | none =>
    obtain ⟨-, hresult⟩ := runs_check.1 h
    exact nomatch hresult
  | some secs =>
    simp only at h
    split at h
    · obtain ⟨-, hresult⟩ := runs_check.1 h
      exact nomatch hresult
    · obtain ⟨-, hresult⟩ := runs_done.1 h
      exact ⟨m, secs, hm, hwall, by cases hresult; rfl⟩

/-- A moment of the call read the wall inside the row's deadline. -/
def InsideWall (E : Moment → Prop) (admitted : Admitted) : Prop :=
  ∃ m secs, E m ∧ m.wall = some secs ∧ admitted.createdSecs ≤ Int.ofNat secs ∧
    Int.ofNat secs < admitted.createdSecs + deadlineSecs

theorem runs_authorizeSet {expiry : ExpiryState} {freshness : Freshness}
    (h : Runs StoreOp.exec E (authorizeSet admitted preview current route expiry freshness).run db db'
      (some (.ok write))) :
    ContentVerified admitted preview current ∧ admitted.actionKind = some .set ∧
      write = .set preview.encoded.wireBits ∧ InsideWall E admitted ∧ expiry = .active ∧ freshness = .fresh := by
  obtain ⟨now, _, hwall, h⟩ := runs_try_ok h
  obtain ⟨⟨⟩, hdecide, h⟩ := runs_check_ok h
  obtain ⟨hcontent, hset, hwrite⟩ := runs_prepareSetpoint (runs_mapErr_ok h)
  obtain ⟨m, secs, hm, hsecs, rfl⟩ := runs_wallNowSecs hwall
  obtain ⟨hlow, hhigh, hactive, hfresh⟩ := decideSetWithWallAnchor_eq_ok hdecide
  rw [hcontent.deadline] at hhigh
  exact ⟨hcontent, hset, hwrite, ⟨m, secs, hm, hsecs, hlow, hhigh⟩, hactive, hfresh⟩

theorem runs_authorizeRelease
    (h : Runs StoreOp.exec E (authorizeRelease admitted preview current route).run db db' (some (.ok write))) :
    ContentVerified admitted preview current ∧ preview.releaseAdmitted = true ∧ write = .release nullValueBytes := by
  obtain ⟨_, _, -, h⟩ := runs_lift_ok h
  obtain ⟨w, _, hprepare, h⟩ := runs_try_ok h
  obtain ⟨⟨⟩, -, h⟩ := runs_check_ok h
  obtain ⟨⟨⟩, -, h⟩ := runs_check_ok h
  obtain ⟨⟨⟩, -, h⟩ := runs_check_ok h
  obtain ⟨-, hwrite⟩ := runs_done.1 h
  cases hwrite
  exact runs_prepareRelease (runs_mapErr_ok hprepare)

end Runs

/-! ### Publication and custody -/

/-- The actor of the row is neither revoked nor excluded. -/
structure ActorClear (admitted : Admitted) (handoff : Handoff) : Prop where
  notRevoked : handoff.isRevoked = false
  notExcluded : ∀ gate, handoff.exclusion = some gate → gate.excludes admitted.actor = false

theorem publicationGates_eq_ok {admitted : Admitted} {handoff : Handoff}
    (h : publicationGates admitted handoff = .ok ()) : ActorClear admitted handoff := by
  simp only [publicationGates, Result.bind_eq_ok] at h
  obtain ⟨⟨⟩, hexcluded, ⟨⟩, -, ⟨⟩, hrevoked, -⟩ := h
  refine ⟨by simpa [checkPublicationNotRevoked] using hrevoked, ?_⟩
  intro gate hgate
  rw [hgate] at hexcluded
  simpa [checkNotExcluded] using hexcluded

/-- What a setpoint write rests on. -/
structure SetPermit (E : Moment → Prop) (holds : ScopeHolds) (admitted : Admitted) (handoff : Handoff)
    (write : FrozenWrite) : Prop where
  content : ContentVerified admitted handoff.preview handoff.current
  actor : ActorClear admitted handoff
  kind : admitted.actionKind = some .set
  write_eq : ∃ bits, admitted.wireBits = some bits ∧ write = .set bits
  unheld : holds.isHeld admitted.scope.text = false
  wall : InsideWall E admitted
  active : handoff.expiry = .active
  fresh : handoff.freshness = .fresh

/-- What a NULL write rests on. -/
structure ReleasePermit (holds : ScopeHolds) (admitted : Admitted) (handoff : Handoff) (write : FrozenWrite) : Prop where
  content : ContentVerified admitted handoff.preview handoff.current
  actor : ActorClear admitted handoff
  kind : admitted.actionKind = some .release
  releaseAdmitted : admitted.releaseAdmitted = some true
  write_eq : write = .release nullValueBytes
  held : holds.isHeld admitted.scope.text = true → isOriginalTarget admitted handoff = true

section Runs

variable {ρ : Type} {E : Moment → Prop} {db db' : Database ρ} {admitted : Admitted} {handoff : Handoff}
  {holds : ScopeHolds} {write : FrozenWrite}

theorem runs_authorizeSetpointViaCustody
    (h : Runs StoreOp.exec E (authorizeSetpointViaCustody holds admitted handoff).run db db' (some (.ok write))) :
    SetPermit E holds admitted handoff write := by
  obtain ⟨⟨⟩, hheld, h⟩ := runs_check_ok h
  obtain ⟨⟨⟩, -, h⟩ := runs_check_ok h
  obtain ⟨⟨⟩, hgates, hset⟩ := runs_check_ok (runs_mapErr_ok h)
  obtain ⟨hcontent, hkind, hwrite, hwall, hactive, hfresh⟩ := runs_authorizeSet (runs_mapErr_ok hset)
  exact ⟨hcontent, publicationGates_eq_ok hgates, hkind, ⟨_, hcontent.wireBits, hwrite⟩,
    ScopeHolds.checkNotHeld_eq_ok.1 hheld, hwall, hactive, hfresh⟩

theorem checkHeldForCleanup_eq_ok {scope : String} {original : Bool}
    (h : checkHeldForCleanup holds scope "admitted-null-release" original = .ok ()) (hheld : holds.isHeld scope = true) :
    original = true := by
  unfold checkHeldForCleanup at h
  rw [hheld] at h
  cases original with
  | true => rfl
  | false => simp at h

theorem runs_authorizeReleaseViaCustody
    (h : Runs StoreOp.exec E (authorizeReleaseViaCustody holds admitted handoff).run db db' (some (.ok write))) :
    ReleasePermit holds admitted handoff write := by
  obtain ⟨⟨⟩, hheld, h⟩ := runs_check_ok h
  obtain ⟨⟨⟩, -, h⟩ := runs_check_ok h
  obtain ⟨⟨⟩, hgates, hrelease⟩ := runs_check_ok (runs_mapErr_ok h)
  obtain ⟨hcontent, hadmitted, hwrite⟩ := runs_authorizeRelease (runs_mapErr_ok hrelease)
  refine ⟨hcontent, publicationGates_eq_ok hgates, release_of_asStr ?_, ?_, hwrite, checkHeldForCleanup_eq_ok hheld⟩
  · have hrelease : handoff.preview.release.admitted = true := hadmitted
    rw [hcontent.actionKind, Preview.actionKind, if_pos hrelease]
  · rw [hcontent.releaseAdmitted, hadmitted]

end Runs

/-! ### No gate submits -/

section NoSubmit

variable {ρ : Type} (admitted : Admitted) (preview : Preview) (current : Current) (route : FrozenRoute)

theorem cancelCheck_noSubmit : (cancelCheck (ρ := ρ)).run.Issues NoSubmit :=
  Issues.tryBind (issues_lift (issues_issue trivial)) fun _ =>
    Issues.tryBind issues_check fun _ => issues_check

theorem prepareSetpoint_noSubmit : (prepareSetpoint (ρ := ρ) admitted preview current route).run.Issues NoSubmit := by
  unfold prepareSetpoint
  refine Issues.tryBind issues_check fun _ => Issues.tryBind issues_check fun _ => ?_
  refine Issues.tryBind issues_check fun _ => Issues.tryBind issues_check fun _ => ?_
  refine Issues.tryBind ?_ fun _ => Issues.tryBind issues_check fun _ => ?_
  · refine Issues.tryBind (issues_lift (issues_issue trivial)) fun reading => ?_
    cases reading with
    | none => exact issues_check
    | some now =>
      simp only
      split <;> exact issues_check
  refine Issues.tryBind issues_check fun _ => Issues.tryBind (cancelCheck_noSubmit) fun _ => ?_
  exact Issues.tryBind issues_check fun _ => Issues.tryBind (cancelCheck_noSubmit) fun _ => trivial

theorem prepareRelease_noSubmit : (prepareRelease (ρ := ρ) admitted preview current route).run.Issues NoSubmit := by
  unfold prepareRelease
  refine Issues.tryBind issues_check fun _ => Issues.tryBind issues_check fun _ => ?_
  refine Issues.tryBind issues_check fun _ => Issues.tryBind issues_check fun _ => ?_
  refine Issues.tryBind (cancelCheck_noSubmit) fun _ => Issues.tryBind issues_check fun value => ?_
  exact Issues.tryBind issues_check fun _ => Issues.tryBind (cancelCheck_noSubmit) fun _ => trivial

variable (holds : ScopeHolds) (handoff : Handoff)

theorem authorizeSetpointViaCustody_noSubmit :
    (authorizeSetpointViaCustody (ρ := ρ) holds admitted handoff).run.Issues NoSubmit := by
  unfold authorizeSetpointViaCustody authorizeSetpointViaPublication authorizeSet wallNowSecs
  refine Issues.tryBind issues_check fun _ => Issues.tryBind issues_check fun _ => Issues.mapErr ?_
  refine Issues.tryBind issues_check fun _ => Issues.mapErr ?_
  refine Issues.tryBind ?_ fun now => Issues.tryBind issues_check fun _ => Issues.mapErr (prepareSetpoint_noSubmit ..)
  refine Issues.tryBind (issues_lift (issues_issue trivial)) fun reading => ?_
  cases reading with
  | none => exact issues_check
  | some now =>
    simp only
    split
    · exact issues_check
    · exact trivial

theorem authorizeReleaseViaCustody_noSubmit :
    (authorizeReleaseViaCustody (ρ := ρ) holds admitted handoff).run.Issues NoSubmit := by
  unfold authorizeReleaseViaCustody authorizeReleaseViaPublication authorizeRelease
  refine Issues.tryBind issues_check fun _ => Issues.tryBind issues_check fun _ => Issues.mapErr ?_
  refine Issues.tryBind issues_check fun _ => Issues.mapErr ?_
  refine Issues.tryBind (issues_lift (issues_issue trivial)) fun _ => ?_
  refine Issues.tryBind (Issues.mapErr (prepareRelease_noSubmit ..)) fun write => ?_
  refine Issues.tryBind issues_check fun _ => Issues.tryBind issues_check fun _ => ?_
  exact Issues.tryBind issues_check fun _ => trivial

end NoSubmit

end Verdant.Action
