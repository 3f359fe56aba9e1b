import Verdant.Action.TargetCas
import Verdant.Library.SlidingWindow

/-!
# The owned rate bound

The guard of a SET admission counts the rows of the last hour by one reading of the wall clock, and the row is stamped
by a later reading of the same batch.  While no committed SET is stamped below its guard's reading, no closed hour
holds more than six SET rows of a target, whatever the clock does between admissions.  Releases have no rate guard.
-/

namespace Verdant.Action

open Storage TextCodec SlidingWindow

/-- The committed SET rows of a target stamped inside the closed hour that ends at `t`. -/
def JournalTables.setCount (tables : JournalTables) (scope equipment : String) (t : Int) : Nat :=
  (tables.journal.filter fun r => r.onTarget scope equipment && decide (r.actionKind = some .set) &&
    decide (t - 3600 ≤ r.created ∧ r.created ≤ t)).length

/-- The operations of an interleaving of submits, in order. -/
def submitTrace (receipts : List ReceiptRow) (events : List SubmitEvent) : List IssuedOp :=
  Prog.Pool.trace StoreOp.exec (Prog.Pool.idle ⟨.empty, receipts⟩) (events.map SubmitEvent.event)

/-- A SET admission the operation commits is not stamped below the reading its rate guard took. -/
def StampedForward (x : IssuedOp) : Prop :=
  ∀ (handle store : SqliteStore) (a : Admission), x.op = .submit handle (a.ticket store) → a.identity.kind = .set →
    leftBy x ≠ x.before → guardReading x.env.host ≤ createdReading a x.env.host

/-! ### The bound -/

/-- The stamps of the SET rows of a target, in the order of their commits. -/
def JournalTables.setStamps (tables : JournalTables) (scope equipment : String) : List Int :=
  (tables.journal.filter fun r => r.onTarget scope equipment && decide (r.actionKind = some .set)).map
    JournalRow.created

def RateLaw (db : Database JournalTables) : Prop :=
  ∀ scope equipment, Bounded 3600 ownedRateMaxPerHour (db.tables.setStamps scope equipment)

theorem length_windowAt_setStamps (tables : JournalTables) (scope equipment : String) (t : Int) :
    (windowAt 3600 t (tables.setStamps scope equipment)).length = tables.setCount scope equipment t := by
  simp only [windowAt, JournalTables.setStamps, JournalTables.setCount, List.filter_map, List.length_map,
    List.filter_filter]
  congr 1
  refine List.filter_congr fun r _ => ?_
  simp [Bool.and_comm]

/-- The guard's count covers every SET row that is not too old. -/
theorem length_counted_setStamps_le (tables : JournalTables) (scope equipment : String) (now : Int) :
    (counted 3600 now (tables.setStamps scope equipment)).length ≤ tables.rateCount scope equipment now := by
  simp only [counted, JournalTables.setStamps, JournalTables.rateCount, List.filter_map, List.length_map,
    List.filter_filter]
  apply List.Sublist.length_le
  apply List.monotone_filter_right
  intro r hr
  simp only [Function.comp_apply, Bool.and_eq_true, decide_eq_true_eq, JournalRow.isSet] at hr ⊢
  exact ⟨⟨hr.2.1, hr.1⟩, .inl hr.2.2⟩

theorem setStamps_admitted (tables : JournalTables) (a : Admission) (created updated : Int) (scope equipment : String) :
    (tables.admitted a created updated).setStamps scope equipment = tables.setStamps scope equipment ++
      if a.scope.text = scope ∧ a.equipment.text = equipment ∧ a.identity.kind = .set then [created] else [] := by
  simp only [JournalTables.setStamps, JournalTables.admitted, List.filter_append, List.map_append]
  congr 1
  by_cases h : a.scope.text = scope ∧ a.equipment.text = equipment ∧ a.identity.kind = .set
  · rw [if_pos h]
    simp [JournalRow.onTarget, Admission.row, h]
  · rw [if_neg h]
    simp [JournalRow.onTarget, Admission.row]
    tauto

theorem RateLaw.exec {x : IssuedOp} (hop : SubmitOp x.op) (hstamp : StampedForward x) (h : RateLaw x.before) :
    RateLaw (leftBy x) := by
  rcases hx : x.op with _ | ⟨handle, ticket⟩ | ⟨handle, ticket⟩ | query | _ | _
  case submit =>
    rw [hx] at hop
    obtain ⟨a, store, -, rfl⟩ := hop
    by_cases hsame : leftBy x = x.before
    · rw [hsame]
      exact h
    have hleft : leftBy x = (submit handle (a.ticket store) x.env.host x.before).1 := by
      rw [leftBy, hx]
      rfl
    intro scope equipment
    rcases submit_admission handle store a x.env.host x.before with hcommit | ⟨-, hadmits, -⟩
    · exact absurd (hleft.trans hcommit) hsame
    · rw [hleft]
      obtain ⟨updated, hafter⟩ := hadmits.after_eq
      rw [hafter, setStamps_admitted]
      split
      · rename_i hkey
        obtain ⟨rfl, rfl, hset⟩ := hkey
        refine (h _ _).append ?_ (hstamp handle store a hx hset hsame)
        exact (length_counted_setStamps_le ..).trans_lt (hadmits.rate hset)
      · rw [List.append_nil]
        exact h scope equipment
  all_goals
    rw [leftBy, hx]
    exact h

/-! ### Releases -/

/-- The error of an exchange that reports `detail` names no rate guard. -/
def NoRate (detail : String) : Prop :=
  containsText ("CLI exited exit status: 1: " ++ detail) "admission_rate" = false

instance : DecidablePred NoRate := fun _ => inferInstanceAs (Decidable (_ = _))

theorem insertJournal_noRate (a : Admission) (s : Session JournalTables) :
    Result.Fails NoRate ((insertJournal a).exec s) := by
  refine Statement.onTables_fails ?_
  simp only
  split
  · rename_i check hcheck
    refine .error ?_
    unfold JournalRow.failedCheck at hcheck
    split at hcheck
    · cases hcheck
      decide +kernel
    · split at hcheck
      · cases hcheck
        decide +kernel
      · exact nomatch hcheck
  · split
    · exact .error (by decide +kernel)
    · exact .ok

theorem insertLifecycle_noRate (a : Admission) (s : Session JournalTables) :
    Result.Fails NoRate ((insertLifecycle a).exec s) := by
  refine Statement.onTables_fails ?_
  simp only
  split
  · exact .error (by decide +kernel)
  split
  · exact .error (by decide +kernel)
  split
  · exact .error (by decide +kernel)
  · exact .ok

/-- No statement of a release batch fails on a rate guard. -/
theorem release_noRate {a : Admission} (hrelease : a.identity.kind = .release) (store : SqliteStore)
    (s : Session JournalTables) : Result.Fails NoRate ((a.ticket store).body.run s) := by
  refine Script.fails (fun statement hmem t => ?_) s
  simp only [Admission.ticket, guardedBatch, accessGuard, admissionBodyV2, generationGuard, hrelease,
    List.mem_append, List.mem_cons, List.not_mem_nil, or_false, reduceCtorEq, if_false] at hmem
  rcases hmem with ((rfl | rfl) | (rfl | rfl) | rfl | rfl | rfl) | rfl | rfl
  · exact createGuard_fails _ _ t
  · exact insertGuard_fails (by decide +kernel) _ _ _ t
  · exact createGuard_fails _ _ t
  · exact insertGuard_fails (by decide +kernel) _ _ _ t
  · exact insertJournal_noRate a t
  · exact Statement.onTables_fails .ok
  · exact insertLifecycle_noRate a t
  · exact .ok
  · exact .ok

/-- The answer is a refusal by the rate guard. -/
def IsRateRefusal : MutationOutcome → Prop
  | .notCommitted _ (.sqliteFailure detail) => containsText detail "admission_rate" = true
  | _ => False

private def NoRateError (e : StorageError) : Prop :=
  ∀ detail, e = .sqliteFailure detail → containsText detail "admission_rate" = false

private theorem exchange_noRate {script : Script JournalTables} {s : Session JournalTables}
    (h : Result.Fails NoRate (script.run s)) : Result.Fails NoRateError (exchange none script s) := by
  simp only [exchange]
  split
  · rename_i detail hrun
    refine .error fun d hd => ?_
    cases hd
    exact h detail hrun
  · exact .ok

private theorem validateRows_noRate (rows : Rows) : Result.Fails NoRateError (validateRows .insert rows) := by
  have hliteral : ∀ d : String, containsText d "admission_rate" = false → NoRateError (failure d) := by
    rintro d hd detail h
    cases h
    exact hd
  simp only [validateRows, scalar]
  split
  · refine Result.Fails.bind ?_ fun cell => ?_
    · split
      · exact .ok
      · exact .error (hliteral _ (by decide +kernel))
    · split
      · split
        · exact .ok
        · exact .error (hliteral _ (by decide +kernel))
      · exact .error (hliteral _ (by decide +kernel))
  · exact .error (hliteral _ (by decide +kernel))

private theorem insertReceipt_noRate (receipt : ReceiptRow) (s : Session JournalTables) :
    Result.Fails NoRate ((insertReceipt receipt).exec s) := by
  have hexec : (insertReceipt receipt).exec s =
      if (findReceipt s.receipts receipt.operation).isSome then
        .error "UNIQUE constraint failed: storage_receipts.operation"
      else .ok ({ s with receipts := s.receipts ++ [receipt], changes := 1 }, []) := rfl
  rw [hexec]
  split
  · exact .error (by decide +kernel)
  · exact .ok

private theorem insertAdmission_noRate (store : SqliteStore) (pending : PreparedMutation JournalTables) (host : Host) :
    Result.Fails NoRateError (insertAdmission store pending host) := by
  have hother : ∀ e : StorageError, (∀ detail, e ≠ .sqliteFailure detail) → NoRateError e :=
    fun e he detail h => absurd h (he detail)
  unfold insertAdmission
  split
  · split
    · exact .error (hother _ (by simp))
    · split
      · exact .error (hother _ (by simp))
      · split
        · exact .error (hother _ (by simp))
        · exact .ok
  · exact .ok

/-- A release whose exchanges the host does not fail is not refused by the rate guard. -/
theorem release_not_rate_refused {a : Admission} (hrelease : a.identity.kind = .release) (handle store : SqliteStore)
    {host : Host} (hbody : host.body = none) (hrecord : host.record = none) (db : Database JournalTables) :
    ¬ IsRateRefusal (submit handle (a.ticket store) host db).2 := by
  have hstage : Result.Fails NoRateError (stage handle (a.ticket store) host db) := by
    unfold stage
    refine (insertAdmission_noRate _ _ _).bind fun _ => ?_
    rw [hbody, hrecord]
    refine (exchange_noRate (release_noRate hrelease store _)).bind fun out => ?_
    refine (validateRows_noRate _).bind fun _ => ?_
    refine (exchange_noRate (Script.fails (fun statement hmem s => ?_) _)).bind fun _ => .ok
    rw [List.mem_singleton.1 hmem]
    exact insertReceipt_noRate _ s
  have h := submit_cases handle (a.ticket store) host db
  generalize (submit handle (a.ticket store) host db).1 = next at h
  generalize (submit handle (a.ticket store) host db).2 = out at h
  intro hrate
  cases h with
  | foreign | refused | unread | unseen => exact hrate
  | replayed _ _ _ receipt hr =>
    unfold replay at hrate
    split at hrate
    · exact hrate
    split at hrate
    · exact hrate
    split at hrate
    · exact hrate
    · simp [outcome, Admission.ticket, IsRateRefusal] at hrate
  | applied => simp [outcome, Admission.ticket, IsRateRefusal] at hrate
  | rolledBack _ _ e he =>
    cases e with
    | sqliteFailure detail =>
      have := hstage _ he detail rfl
      simp only [IsRateRefusal] at hrate
      rw [this] at hrate
      cases hrate
    | _ => exact hrate

/-! ### The rate bound of every interleaving -/

/-- The owned rate bound, when no committed SET is stamped below its guard's reading; releases always pass the guard. -/
theorem owned_rate_bound (receipts : List ReceiptRow) (events : List SubmitEvent)
    (hforward : ∀ x ∈ submitTrace receipts events, StampedForward x) :
    (∀ scope equipment t,
      (submitPool receipts events).state.tables.setCount scope equipment t ≤ ownedRateMaxPerHour) ∧
      ∀ (a : Admission) (handle store : SqliteStore) (host : Host) (db : Database JournalTables),
        a.identity.kind = .release → host.body = none → host.record = none →
          ¬ IsRateRefusal (submit handle (a.ticket store) host db).2 := by
  constructor
  · intro scope equipment t
    have hstart : ∀ p, .start p ∈ events.map SubmitEvent.event → p.Issues SubmitOp := by
      intro p hp
      obtain ⟨event, -, hevent⟩ := List.mem_map.1 hp
      cases event with
      | start s =>
        cases hevent
        exact s.issues
      | step i m => exact nomatch hevent
    have hlaw : RateLaw (submitPool receipts events).state := by
      refine Prog.Pool.trace_invariant StoreOp.exec _ hstart (fun p hp => nomatch hp) ?_ ?_
      · exact fun x hx hop h => h.exec hop (hforward x hx)
      · exact fun scope equipment => Bounded.nil 3600 ownedRateMaxPerHour
    rw [← length_windowAt_setStamps]
    exact hlaw scope equipment t
  · exact fun a handle store host db hrelease hbody hrecord =>
      release_not_rate_refused hrelease handle store hbody hrecord db

/-! ### A clock that steps back inside a batch -/

/-- A submission, where the request passes its checks. -/
def Submission.of (store : SqliteStore) (id : String) (request : AdmissionRequest) : Option Submission :=
  match h : prepareWithPredecessor store id request with
  | .ok pending => some ⟨store, id, request, pending, h, store⟩
  | .error _ => none

theorem warmScope_valid : IsId "scope-a" := by decide
theorem warmEquipment_valid : IsId "ahu-1" := by decide
theorem warmRevision_le : (1 : UInt32) ≤ maxAccepted := by decide

def warmRequest : Preview.Request where
  scope := ⟨"scope-a", warmScope_valid⟩
  equipment := ⟨"ahu-1", warmEquipment_valid⟩
  bindingRevision := ⟨1⟩
  acceptedRevision := ⟨1, warmRevision_le⟩
  bindingStatus := .valid
  ceiling := 9
  role := .publisher
  priority := some 8
  object := ⟨2, 85, none⟩
  unit := .known .degC
  requestedC := .ofBinary32 0x41AC0000
  wireOverride := none
  aliases := []
  precondition := ⟨0, 0, le_rfl⟩
  sealOrder := ⟨true, true, true, none, none, true⟩
  releaseTarget := ⟨"ahu-1", warmEquipment_valid⟩
  releaseAdmitted := false

/-- The `n`-th SET of one target. -/
def setSubmission (n : Nat) : Option Submission := do
  let operation ← (OperationId.parse s!"set-{n}").toOption
  let preview ← (Preview.preview warmRequest).toOption
  Submission.of ⟨"store", .tiny⟩ s!"storage-1-2-{n}" {
    operation := operation
    scope := warmRequest.scope
    ceiling := 9
    role := .publisher
    actor := "operator"
    preview := preview
    expectedGeneration := UInt32.ofNat n
    predecessor := none }

/-- The guard reads one second more than the insert after it. -/
def steppingBack : Moment :=
  { Moment.quiet "" 10000 with
    host := { Host.quiet with clock := fun n => if n ≤ 5 then 13601 else 13600 } }

/-- `count` SETs of one target, the `n`-th one at `moment n`. -/
def setBurst (count : Nat) (moment : Nat → Moment) : List SubmitEvent :=
  (List.range count).flatMap fun n =>
    match setSubmission n with
    | none => []
    | some s => [.start s, .step n (moment n), .step n (moment n)]

theorem moment_of_mem_setBurst {count : Nat} {moment : Nat → Moment} {i : Nat} {m : Moment}
    (h : .step i m ∈ setBurst count moment) : ∃ n, m = moment n := by
  obtain ⟨n, -, hn⟩ := List.mem_flatMap.1 h
  split at hn
  · exact nomatch hn
  · simp only [List.mem_cons, reduceCtorEq, SubmitEvent.step.injEq, false_or, List.not_mem_nil, or_false,
      or_self] at hn
    exact ⟨n, hn.2⟩

/-- On a clock that stands still every stamp is its guard's reading. -/
theorem owned_rate_bound_burst :
    (∀ scope equipment t, (submitPool [] (setBurst 7 fun _ => .quiet "" 10000)).state.tables.setCount scope equipment t ≤
      ownedRateMaxPerHour) ∧
      ∀ (a : Admission) (handle store : SqliteStore) (host : Host) (db : Database JournalTables),
        a.identity.kind = .release → host.body = none → host.record = none →
          ¬ IsRateRefusal (submit handle (a.ticket store) host db).2 := by
  refine owned_rate_bound [] (setBurst 7 fun _ => .quiet "" 10000) fun x hx => ?_
  obtain ⟨event, hevent, hstep⟩ := List.mem_map.1 (Prog.Pool.step_of_mem_trace StoreOp.exec hx)
  cases event with
  | start s => exact nomatch hstep
  | step i m =>
    cases hstep
    obtain ⟨n, hmoment⟩ := moment_of_mem_setBurst hevent
    intro handle store a hop hset hcommitted
    rw [hmoment]
    exact le_rfl

/-- Six SETs in one second, and a seventh an hour later. -/
def seventhSet : List SubmitEvent := setBurst 7 fun n => if n = 6 then steppingBack else .quiet "" 10000

theorem rate_bound_broken :
    ¬ ∀ scope equipment t, (submitPool [] seventhSet).state.tables.setCount scope equipment t ≤ ownedRateMaxPerHour := by
  intro h
  exact absurd (h "scope-a" "ahu-1" 13600) (by decide +kernel)

end Verdant.Action
