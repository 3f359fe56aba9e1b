import Verdant.Access.Progress
import Verdant.Binding.Replaying
import Verdant.Binding.Registry

/-!
# Authority that is granted

A credential the access log accepts in a scope, at a reading of the clock, gives an authority where nothing fails, and
the guard of the authority holds wherever the access log is still the one that was read.
-/

namespace Verdant.Binding

open TextCodec Storage Access Prog

/-- The log lets the credential into the scope for the role, at a reading of the clock. -/
structure Opens (log : List Admission) (now : Nat) (scope : TrustedScope) (required : RoleKind) (credential : Credential)
    (row : IssueRow) (actor : ActorContext) : Prop where
  accepted : Accepted log credential row
  scope : row.scope = scope
  range : now < 2 ^ 63
  live : row.policy.LiveAt now
  checked : ActorContext.fromChecked row = .ok actor
  allowed : entryAllowed actor required = .ok ()

theorem Opens.row_eq {log : List Admission} {now : Nat} {scope : TrustedScope} {required : RoleKind}
    {credential : Credential} {row : IssueRow} {actor : ActorContext}
    (h : Opens log now scope required credential row actor) : actor.row = row := by
  have hchecked := h.checked
  unfold ActorContext.fromChecked at hchecked
  obtain ⟨bound, -, hactor⟩ := Result.bind_eq_ok.1 hchecked
  cases hactor
  rfl

section Capture

/-- The capture of one row adds that the row is there. -/
theorem captureRow_columns (guard : Guard) {r : OutboxRecord} (hid : r.id < 2 ^ 63) :
    ∃ more, captureRow guard (admissionColumns r) = .ok more ∧
      ∀ tables, more.holds tables = (guard.holds tables && (history tables).any fun x =>
        x.id = r.id && x.operation = r.operation && x.entity = r.entity && x.valueJson = r.valueJson) := by
  unfold admissionColumns captureRow accessText
  simp only [parseI64_repr hid, textColumn_sqlQuote, Result.ok_bind]
  refine ⟨_, rfl, fun tables => ?_⟩
  unfold Guard.also present
  simp only [Nat.cast_inj]

theorem foldlM_captureRow {rows : List OutboxRecord} (hids : ∀ r ∈ rows, r.id < 2 ^ 63) (guard : Guard) :
    ∃ more, (rows.map admissionColumns).foldlM captureRow guard = .ok more ∧
      ∀ tables, (∀ r ∈ rows, r ∈ history tables) → guard.holds tables = true → more.holds tables = true := by
  induction rows generalizing guard with
  | nil => exact ⟨guard, rfl, fun _ _ h => h⟩
  | cons r rows ih =>
    obtain ⟨next, hnext, hholds⟩ := captureRow_columns guard (hids r List.mem_cons_self)
    obtain ⟨more, hmore, hrest⟩ := ih (fun x hx => hids x (List.mem_cons_of_mem _ hx)) next
    refine ⟨more, ?_, fun tables hrows hguard => hrest tables (fun x hx => hrows x (List.mem_cons_of_mem _ hx)) ?_⟩
    · rw [List.map_cons, List.foldlM_cons, hnext]
      exact hmore
    · rw [hholds, hguard, Bool.true_and, List.any_eq_true]
      exact ⟨r, hrows r List.mem_cons_self, by simp⟩

/-- The captured guard holds of every database of the same access log. -/
theorem capture_columns {rows : List OutboxRecord} (limit : Nat) (hlimit : rows.length ≠ limit)
    (hids : ∀ r ∈ rows, r.id < 2 ^ 63) :
    ∃ guard, capture limit (rows.map admissionColumns) = .ok guard ∧
      ∀ tables, logOf isAdmission tables = rows → guard.holds tables = true := by
  unfold capture
  rw [List.length_map, if_neg hlimit]
  obtain ⟨guard, hguard, hholds⟩ := foldlM_captureRow hids (countAccess rows.length)
  refine ⟨guard, hguard, fun tables htables => hholds tables (fun r hr => ?_) ?_⟩
  · rw [← htables] at hr
    exact (List.mem_filter.1 hr).1
  · show decide ((logOf isAdmission tables).length = rows.length) = true
    rw [htables]
    exact decide_eq_true rfl

end Capture

section Authority

variable {gate : AccessGate} {db : Database OutboxTables} {now : Nat} {scope : TrustedScope} {required : BindingRole}
  {credential : Credential} {row : IssueRow} {actor : ActorContext}

theorem run_enter (hdb : Access.Kept db) (hbound : (admissions db.tables).length ≤ gate.store.bounds.maxReplayRows)
    (h : Opens (admissions db.tables) now scope (roleOf required) credential row actor) {look check : Moment}
    (hread : look.read = none) (hwall : check.wall = some now) (rest : List Moment) :
    (gate.enter (some credential) scope (roleOf required)).run.run StoreOp.exec (look :: check :: rest) db =
      (db, some (.ok actor.report, rest)) := by
  obtain ⟨state, hstate, hreads, -⟩ := run_read_of_kept hdb hbound hread (check :: rest)
  have hscope : ∀ s ∈ some scope, s = row.scope := by
    rintro s ⟨⟩
    exact h.scope.symm
  have hmatch : state.matching credential (some scope) false = .ok row :=
    (matching_eq_ok hdb.admitted.sound hreads).2 ⟨h.accepted, hscope⟩
  have hchecked := run_checked_ok hmatch hwall h.range h.live rest db
  have hauthenticate : (gate.authenticate (some credential) scope).run.run StoreOp.exec (look :: check :: rest) db =
      (db, some (.ok actor, rest)) := by
    unfold AccessGate.authenticate
    simp only
    refine run_try_ok.2 ⟨state, db, check :: rest, hstate, ?_⟩
    refine run_try_ok.2 ⟨row, db, rest, hchecked, ?_⟩
    rw [h.checked]
    rfl
  unfold AccessGate.enter
  refine run_try_ok.2 ⟨actor, db, rest, hauthenticate, ?_⟩
  rw [h.allowed, check_bind_ok]
  rfl

variable (required)

/-- Where nothing fails the authority is granted, under a guard that holds while the access log stands. -/
theorem run_authority (hdb : Access.Kept db) (hbound : (admissions db.tables).length ≤ gate.store.bounds.maxReplayRows)
    (h : Opens (admissions db.tables) now scope (roleOf required) credential row actor) {paths : CanonicalPaths}
    (hpaths : paths.require = .ok ()) {capture look check : Moment} (hcapture : capture.read = none)
    (hread : look.read = none) (hwall : check.wall = some now) (rest : List Moment) :
    ∃ guard, (authority gate (some credential) scope required paths).run.run StoreOp.exec
        (capture :: look :: check :: rest) db = (db, some (.ok ⟨actor.report, guard⟩, rest)) ∧
      ∀ tables, logOf isAdmission tables = logOf isAdmission db.tables → guard.holds tables = true := by
  have hlen := hdb.admitted.length
  have hids : ∀ r ∈ logOf isAdmission db.tables, r.id < 2 ^ 63 := fun r hr =>
    (hdb.ordered.id_pos (List.mem_filter.1 hr).1).2
  obtain ⟨guard, hguard, hholds⟩ := capture_columns (gate.store.bounds.maxReplayRows + 1)
    (by omega : (logOf isAdmission db.tables).length ≠ gate.store.bounds.maxReplayRows + 1) hids
  refine ⟨guard, ?_, hholds⟩
  have hexec : execScript capture (selectAdmissions (gate.store.bounds.maxReplayRows + 1)) db =
      .ok ((logOf isAdmission db.tables).map admissionColumns) := by
    unfold execScript selectAdmissions selectLog
    rw [hcapture]
    simp only
    rw [List.take_of_length_le (by omega)]
  unfold authority
  rw [hpaths, check_bind_ok]
  have hrows : (Prog.attempt (Call.read (selectAdmissions (gate.store.bounds.maxReplayRows + 1)))).run.run StoreOp.exec
      (capture :: look :: check :: rest) db =
        (db, some (.ok ((logOf isAdmission db.tables).map admissionColumns), look :: check :: rest)) := by
    show (db, some (execScript capture (selectAdmissions (gate.store.bounds.maxReplayRows + 1)) db,
      look :: check :: rest)) = _
    rw [hexec]
  refine run_try_ok.2 ⟨_, db, look :: check :: rest, run_mapErr_ok hrows _, ?_⟩
  rw [hguard, check_bind_ok]
  exact run_try_ok.2 ⟨actor.report, db, rest, run_mapErr_ok (run_enter hdb hbound h hread hwall rest) _, rfl⟩

end Authority

/-- The publisher of a fresh bootstrap may publish in its scope. -/
theorem opens_bootstrapped {gate : AccessGate} {reviewer publisher : Credential} {reason : Reason} {rows : List Admission}
    (hrows : gate.bootstrapRows reviewer publisher reason = .ok rows) {now : Nat} (hnow : now < 2 ^ 63) :
    ∃ scope row actor, Opens rows now scope .publisher publisher row actor ∧ row.policy.expiresAtMs = none := by
  obtain ⟨scope, label, label', policy, -, hexpires, rfl⟩ := bootstrapRows_eq_ok hrows
  have hissues : issuesOf [Admission.bootstrap (gate.bootstrapMarker reason),
      .issue (gate.issueRow reviewer scope 1 .reviewer reason label (.entryOnly none)),
      .issue (gate.issueRow publisher scope 2 .publisher reason label' policy)] =
        [gate.issueRow reviewer scope 1 .reviewer reason label (.entryOnly none),
          gate.issueRow publisher scope 2 .publisher reason label' policy] := rfl
  refine ⟨scope, gate.issueRow publisher scope 2 .publisher reason label' policy,
    ⟨gate.issueRow publisher scope 2 .publisher reason label' policy, ⟨scope, 2, by decide⟩⟩, ?_, hexpires⟩
  constructor
  · refine ⟨?_, rfl, rfl, rfl, fun r hr _ => ?_, fun hrevoked => ?_⟩
    · rw [hissues]
      exact List.mem_cons_of_mem _ List.mem_cons_self
    · rw [hissues] at hr
      simp only [List.mem_cons, List.not_mem_nil, or_false] at hr
      rcases hr with rfl | rfl
      · exact UInt32.le_refl _
      · exact UInt32.le_refl _
    · obtain ⟨r, hr, -⟩ := hrevoked
      exact nomatch hr
  · rfl
  · exact hnow
  · intro expiry hexpiry
    have hpolicy : (gate.issueRow publisher scope 2 .publisher reason label' policy).policy = policy := rfl
    rw [hpolicy, hexpires] at hexpiry
    exact nomatch hexpiry
  · rfl
  · rfl

end Verdant.Binding
