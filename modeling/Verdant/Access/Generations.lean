import Verdant.Access.Gate
import Verdant.Library.Leads

/-!
# Generations of actors

A row of generation zero is refused when the admission log is read, so an entry never reports one, whatever the database
holds.
-/

namespace Verdant.Access

open TextCodec Storage Prog

theorem decodeCapgen_ne_zero {what raw : String} {capgen : UInt32} (h : decodeCapgen what raw = .ok capgen) :
    capgen ≠ 0 := by
  unfold decodeCapgen at h
  split at h
  · exact nomatch h
  split at h
  · exact nomatch h
  · rename_i hzero
    cases h
    exact hzero

theorem decodeIssue_dated {map : Fields} {row : IssueRow} (h : decodeIssue map = .ok row) : row.capgen ≠ 0 := by
  unfold decodeIssue at h
  simp only [Result.bind_eq_ok] at h
  obtain ⟨_, -, _, -, _, -, _, -, _, -, _, -, _, -, _, -, _, -, _, -, _, -, h⟩ := h
  split at h
  · exact nomatch h
  simp only [Result.bind_eq_ok] at h
  obtain ⟨_, -, _, -, _, -, _, hcapgen, h⟩ := h
  obtain ⟨_, -, _, -, _, -, _, -, _, -, _, -, _, -, _, -, _, -, _, -, _, -, h⟩ := h
  cases h
  exact decodeCapgen_ne_zero hcapgen

/-- Every issue row has a generation. -/
def State.Dated (state : State) : Prop := ∀ row ∈ state.issues, row.capgen ≠ 0

theorem State.Dated.record {state next : State} (hstate : state.Dated) {operation descriptor : String} {row : Admission}
    (hrow : decodeAdmission operation descriptor = .ok row) (h : state.record row = .ok next) : next.Dated := by
  cases row with
  | bootstrap row =>
    cases h
    exact hstate
  | revoke row =>
    cases h
    exact hstate
  | issue row =>
    simp only [State.record, Result.ite_error_eq_ok] at h
    obtain ⟨-, h⟩ := h
    cases h
    have hdated : row.capgen ≠ 0 := by
      unfold decodeAdmission at hrow
      obtain ⟨⟨kind, fields⟩, -, hrow⟩ := Result.bind_eq_ok.1 hrow
      simp only at hrow
      split at hrow
      · obtain ⟨_, -, hrow⟩ := Result.bind_eq_ok.1 hrow
        exact nomatch hrow
      split at hrow
      · obtain ⟨issue, hissue, hrow⟩ := Result.bind_eq_ok.1 hrow
        cases hrow
        exact decodeIssue_dated hissue
      split at hrow
      · obtain ⟨_, -, hrow⟩ := Result.bind_eq_ok.1 hrow
        exact nomatch hrow
      · exact nomatch hrow
    intro r hr
    rcases List.mem_append.1 hr with hr | hr
    · exact hstate r hr
    · rw [List.mem_singleton.1 hr]
      exact hdated

theorem State.Dated.push {state next : State} (hstate : state.Dated) {columns : List String}
    (h : state.push columns = .ok next) : next.Dated := by
  unfold State.push at h
  split at h
  · split at h
    · exact nomatch h
    obtain ⟨operation, -, h⟩ := Result.bind_eq_ok.1 h
    obtain ⟨entity, -, h⟩ := Result.bind_eq_ok.1 h
    obtain ⟨valueJson, -, h⟩ := Result.bind_eq_ok.1 h
    obtain ⟨descriptor, -, h⟩ := Result.bind_eq_ok.1 h
    obtain ⟨row, hrow, h⟩ := Result.bind_eq_ok.1 h
    obtain ⟨recorded, hrecorded, h⟩ := Result.bind_eq_ok.1 h
    split at h
    · exact nomatch h
    cases h
    exact fun r hr => hstate.record hrow hrecorded r hr
  · exact nomatch h

theorem State.Dated.foldlM {state next : State} (hstate : state.Dated) {rows : Rows}
    (h : rows.foldlM State.push state = .ok next) : next.Dated := by
  induction rows generalizing state with
  | nil =>
    cases h
    exact hstate
  | cons columns rows ih =>
    rw [List.foldlM_cons] at h
    obtain ⟨middle, hpush, h⟩ := Result.bind_eq_ok.1 h
    exact ih (hstate.push hpush) h

theorem dated_of_ofRows {bounds : StoreBounds} {rows : Rows} {state : State}
    (h : State.ofRows bounds rows = .ok state) : state.Dated := by
  unfold State.ofRows at h
  split at h
  · exact nomatch h
  · have hstart : (State.start rows.length).Dated := fun _ hrow => nomatch hrow
    exact hstart.foldlM h

theorem mem_of_matching {state : State} {cred : Credential} {scope : Option TrustedScope} {rotating : Bool}
    {row : IssueRow} (h : state.matching cred scope rotating = .ok row) : row ∈ state.issues := by
  unfold State.matching at h
  obtain ⟨_, -, h⟩ := Result.bind_eq_ok.1 h
  obtain ⟨latest, -, h⟩ := Result.bind_eq_ok.1 h
  split at h
  · exact nomatch h
  rename_i found hfound
  split at h
  · exact nomatch h
  split at h
  · exact nomatch h
  split at h
  · exact nomatch h
  obtain ⟨_, -, h⟩ := Result.bind_eq_ok.1 h
  split at h
  · exact nomatch h
  split at h
  · exact nomatch h
  split at h
  · exact nomatch h
  cases h
  exact List.mem_of_find?_eq_some hfound

section Enter

variable {law : Law (Database OutboxTables)} {E : Moment → Prop}
  {G : StoreOp OutboxTables → Moment → Database OutboxTables → Prop} {s : Database OutboxTables}

/-- A call that only looks, with what its answer satisfies wherever it is read. -/
theorem keeps_looks {op : StoreOp OutboxTables} (hop : NoSubmit op) (hG : ∀ m t, G op m t) :
    Keeps StoreOp.exec law E G (fun _ _ => True) s (Prog.issue op) :=
  keeps_look (fun m t => hop.exec m t) (fun m t _ => hG m t) fun _ _ _ _ _ _ => trivial

variable (hG : ∀ op m t, NoSubmit op → G op m t)

include hG

theorem keeps_state (store : SqliteStore) : Keeps StoreOp.exec law E G
    (onResult (fun _ _ => True) fun _ state => state.Dated) s (State.read store).run := by
  unfold State.read
  refine Keeps.tryBind (P := fun _ _ => True) (Keeps.mapErr (F := fun _ _ => True) ?_ fun _ _ _ _ => trivial)
    fun t rows _ _ => keeps_check fun u _ => ?_
  · have hread : NoSubmit (.read (selectAdmissions (store.bounds.maxReplayRows + 1))) := trivial
    refine (keeps_looks hread fun m t => hG _ m t hread).mono fun t r _ _ => ?_
    cases r <;> exact trivial
  · cases hstate : State.ofRows store.bounds rows with
    | error e => exact trivial
    | ok state => exact dated_of_ofRows hstate

/-- An entry reports an actor with a generation. -/
theorem keeps_enter_dated (gate : AccessGate) (credential : Option Credential) (scope : TrustedScope)
    (required : RoleKind) : Keeps StoreOp.exec law E G
    (onResult (fun _ _ => True) fun _ report => report.actor.row.capgen ≠ 0) s
    (gate.enter credential scope required).run := by
  unfold AccessGate.enter AccessGate.authenticate
  refine Keeps.tryBind (P := fun _ actor => actor.row.capgen ≠ 0) ?_ fun t actor _ hactor => ?_
  · cases credential with
    | none => exact keeps_done fun _ _ => trivial
    | some credential =>
      refine Keeps.tryBind (keeps_state hG gate.store) fun t state _ hstate => ?_
      unfold State.checked nowMs
      refine Keeps.tryBind (P := fun _ row => row.capgen ≠ 0) ?_ fun u row _ hrow => keeps_check fun v _ => ?_
      · refine Keeps.checkBind (fun _ _ _ _ => trivial) fun row hrow => ?_
        have hmem := mem_of_matching hrow
        refine Keeps.tryBind (P := fun _ _ => True) (Keeps.liftBind (P := fun _ _ => True) ?_ fun _ wall _ _ =>
          keeps_check fun u _ => ?_) fun _ now _ _ => ?_
        · have hwall : @NoSubmit OutboxTables .wall := trivial
          exact keeps_looks hwall fun m t => hG _ m t hwall
        · cases nowOf wall <;> exact trivial
        refine Keeps.checkBind (fun _ _ _ _ => trivial) fun _ _ => ?_
        exact keeps_done fun v _ => hstate t (law.refl t) row hmem
      · cases hactor : ActorContext.fromChecked row with
        | error e => exact trivial
        | ok actor =>
          unfold ActorContext.fromChecked at hactor
          obtain ⟨bound, -, hactor⟩ := Result.bind_eq_ok.1 hactor
          cases hactor
          exact hrow u (law.refl u)
  · refine Keeps.checkBind (fun _ _ _ _ => trivial) fun _ _ => ?_
    exact keeps_done fun v hv => hactor v hv

end Enter

end Verdant.Access
