import Verdant.Action.JournalCodec
import Verdant.Action.TerminalFinal

/-!
# The order of lifecycle states

The lifecycle is meant to run `admitted`, `dispatched`, `unresolved`, `terminal`, with `dispatched` and `unresolved`
optional.  A transition checks nothing but `terminal`, so a call alone keeps the order exactly where its target is not
one of the three that lie behind the durable state.  The predecessor link no call changes.
-/

namespace Verdant.Action

open Storage

/-- The admitted moves of a lifecycle, staying included. -/
inductive Forward : LifecycleState → LifecycleState → Prop where
  | stays (state : LifecycleState) : Forward state state
  | dispatched : Forward .admitted .dispatched
  | unresolved {state : LifecycleState} (h : state = .admitted ∨ state = .dispatched) : Forward state .unresolved
  | terminal (state : LifecycleState) : Forward state .terminal

/-- The target lies behind the state, and the check for `terminal` does not see it. -/
def Retreats (current newState : LifecycleState) : Prop :=
  (newState = .admitted ∧ (current = .dispatched ∨ current = .unresolved)) ∨
    (newState = .dispatched ∧ current = .unresolved)

instance (current newState : LifecycleState) : Decidable (Retreats current newState) := by
  unfold Retreats
  infer_instance

theorem not_forward_of_retreats {current newState : LifecycleState} (h : Retreats current newState) :
    ¬Forward current newState := by
  rcases h with ⟨rfl, rfl | rfl⟩ | ⟨rfl, rfl⟩
  · intro h; cases h
  · intro h; cases h
  · intro h; cases h

theorem forward_of_open {current newState : LifecycleState} (h : ¬Retreats current newState)
    (hopen : ¬(current = .terminal ∧ newState ≠ .terminal)) : Forward current newState := by
  cases newState with
  | admitted =>
    cases current with
    | admitted => exact .stays _
    | dispatched => exact absurd (.inl ⟨rfl, .inl rfl⟩) h
    | unresolved => exact absurd (.inl ⟨rfl, .inr rfl⟩) h
    | terminal => exact absurd ⟨rfl, by decide⟩ hopen
  | dispatched =>
    cases current with
    | admitted => exact .dispatched
    | dispatched => exact .stays _
    | unresolved => exact absurd (.inr ⟨rfl, rfl⟩) h
    | terminal => exact absurd ⟨rfl, by decide⟩ hopen
  | unresolved =>
    cases current with
    | admitted => exact .unresolved (.inl rfl)
    | dispatched => exact .unresolved (.inr rfl)
    | unresolved => exact .stays _
    | terminal => exact absurd ⟨rfl, by decide⟩ hopen
  | terminal => exact .terminal _

/-! ### One call -/

/-- The durable predecessor link of an operation. -/
def JournalTables.predecessor (tables : JournalTables) (operation : String) : Option String :=
  (tables.findLifecycle operation).bind LifecycleRow.predecessor

theorem upsertLifecycleRow_new {row : LifecycleRow} {lifecycle : List LifecycleRow} {operation : String}
    (h : (lifecycle.find? fun r => r.operation = operation) = none) {l : LifecycleRow}
    (hl : ((upsertLifecycleRow row lifecycle).find? fun r => r.operation = operation) = some l) : l = row := by
  have hall := List.find?_eq_none.1 h
  unfold upsertLifecycleRow at hl
  split at hl
  · -- a row that is updated keeps its operation, so none appears
    obtain ⟨hop, hmem⟩ : l.operation = operation ∧ _ := ⟨by simpa using List.find?_some hl, List.mem_of_find?_eq_some hl⟩
    obtain ⟨r, hr, rfl⟩ := List.mem_map.1 hmem
    have hkept : r.operation = operation := by
      split at hop
      · exact hop
      · exact hop
    exact absurd (by simpa using hkept) (hall r hr)
  · rw [List.find?_append, h, Option.none_or] at hl
    have hmem := List.mem_of_find?_eq_some hl
    exact List.mem_singleton.1 hmem

theorem Transits.predecessor {operation : OperationId} {newState : LifecycleState} {before after : JournalTables}
    (h : Transits operation newState before after) (other : String) :
    after.predecessor other = before.predecessor other := by
  obtain ⟨journal, updated, -, rfl⟩ := h
  unfold JournalTables.predecessor JournalTables.findLifecycle
  cases hl : before.lifecycle.find? fun r => r.operation = other with
  | some l =>
    obtain ⟨l', hl', hlink⟩ :=
      @upsertLifecycleRow_link ⟨operation.text, journal.attempt, newState, updated, none⟩ _ _ _ hl
    simp only [hl', Option.bind_some, hlink]
  | none =>
    -- a row the upsert adds has no link
    cases hnew : (upsertLifecycleRow ⟨operation.text, journal.attempt, newState, updated, none⟩
        before.lifecycle).find? fun r => r.operation = other with
    | none => simp only [Option.bind_none]
    | some l' =>
      have hrow := upsertLifecycleRow_new hl hnew
      simp only [Option.bind_some, Option.bind_none, hrow]

section Call

variable {E : Moment → Prop} {store : SqliteStore} {operation : OperationId} {scope : TrustedScope}
  {newState : LifecycleState} {db db' : Database JournalTables} {result : Option (Except WriterError Admitted)}

theorem runs_writeTransition_step
    (h : Prog.Runs StoreOp.exec E (writeTransition store operation scope newState) db db' result) :
    db' = db ∨ Transits operation newState db.tables db'.tables := by
  rcases Prog.runs_call.1 h with ⟨rfl, -⟩ | ⟨m, -, h⟩
  · exact .inl rfl
  simp only [StoreOp.exec, Prog.bind] at h
  split at h
  · exact .inl (Prog.runs_done.1 h).1
  rename_i ticket hprepare
  have hticket := isTransitionTicket_of_prepare hprepare
  rcases Prog.runs_call.1 h with ⟨rfl, -⟩ | ⟨m', -, h⟩
  · exact .inl rfl
  simp only [StoreOp.exec, Prog.bind] at h
  have hleft : db' = (submit store ticket m'.host db).1 := by
    split at h
    · exact (runs_readRow h).1
    · exact (Prog.runs_done.1 h).1
    · exact (Prog.runs_done.1 h).1
    · exact (Prog.runs_done.1 h).1
  rcases submit_transition store hticket m'.host db with hsame | ⟨-, htransits, -⟩
  · exact .inl (hleft.trans hsame)
  · exact .inr (hleft ▸ htransits)

/-- A call alone leaves the store, or moves its operation where the check for `terminal` lets it. -/
theorem runs_transition
    (h : Prog.Runs StoreOp.exec E (transition store operation scope newState) db db' result) :
    db' = db ∨ (Transits operation newState db.tables db'.tables ∧
      ¬(db.tables.lifecycleState operation.text = .terminal ∧ newState ≠ .terminal)) := by
  rcases Prog.runs_bind h with ⟨hread, -⟩ | ⟨answer, u, hread, hrest⟩
  · exact .inl (runs_readRow hread).1
  obtain ⟨rfl, hanswer⟩ := runs_readRow hread
  rcases hanswer with hnone | ⟨m, -, hanswer⟩
  · exact nomatch hnone
  have hanswer := (Option.some.inj hanswer).symm
  cases answer with
  | error e => exact .inl (Prog.runs_done.1 hrest).1
  | ok current =>
    rw [← readAnswer_lifecycle hanswer]
    by_cases hclosed : current.lifecycle = .terminal ∧ newState ≠ .terminal
    · simp only [if_pos hclosed] at hrest
      exact .inl (Prog.runs_done.1 hrest).1
    · simp only [if_neg hclosed] at hrest
      split at hrest
      · exact .inl (Prog.runs_done.1 hrest).1
      · exact (runs_writeTransition_step hrest).imp_right fun htransits => ⟨htransits, hclosed⟩

end Call

/-! ### Every pair of states -/

/-- A call alone from `current` moves its operation forward where it succeeds, and leaves every link in any case. -/
def MovesForward (current newState : LifecycleState) : Prop :=
  ∀ (store : SqliteStore) (operation : OperationId) (scope : TrustedScope) (db db' : Database JournalTables)
    (result : Option (Except WriterError Admitted)), db.tables.lifecycleState operation.text = current →
    Prog.Runs StoreOp.exec (fun _ => True) (transition store operation scope newState) db db' result →
    (∀ found, result = some (.ok found) → Forward current (db'.tables.lifecycleState operation.text)) ∧
      ∀ other, db'.tables.predecessor other = db.tables.predecessor other

theorem movesForward_of_not_retreats {current newState : LifecycleState} (h : ¬Retreats current newState) :
    MovesForward current newState := by
  rintro store operation scope db db' result rfl hrun
  rcases runs_transition hrun with rfl | ⟨htransits, hopen⟩
  · exact ⟨fun found hfound => .stays _, fun other => rfl⟩
  · refine ⟨fun found hfound => ?_, htransits.predecessor⟩
    rw [htransits.lifecycleState, if_pos rfl]
    exact forward_of_open h hopen

/-- The dispatched journal with its operation in another state. -/
def storeAt (state : LifecycleState) : Database JournalTables where
  tables := { dispatchedStore.tables with lifecycle := [⟨"op-1", "op-1", state, 100, none⟩] }
  receipts := []

/-- The four operations of one transition, none of which fails. -/
def quietTransition : List Moment :=
  [.quiet "" 101, .quiet "storage-1-2-3" 101, .quiet "" 101, .quiet "" 102]

/-- The state a quiet transition to `newState` leaves, where it succeeds. -/
def quietEnd (current newState : LifecycleState) : Option LifecycleState :=
  match (transition journalStore dispatchedOperation dispatchedScope newState).run StoreOp.exec quietTransition
      (storeAt current) with
  | (db', some (.ok _, _)) => some (db'.tables.lifecycleState dispatchedOperation.text)
  | _ => none

theorem runs_of_quietEnd {current newState left : LifecycleState} (h : quietEnd current newState = some left) :
    ∃ db' found, Prog.Runs StoreOp.exec (fun _ => True)
      (transition journalStore dispatchedOperation dispatchedScope newState) (storeAt current) db' (some (.ok found)) ∧
      db'.tables.lifecycleState dispatchedOperation.text = left := by
  unfold quietEnd at h
  split at h
  · rename_i db' found rest hrun
    exact ⟨db', found, ⟨quietTransition, fun _ _ => trivial, by rw [hrun], by rw [hrun]; rfl⟩, Option.some.inj h⟩
  · exact nomatch h

/-- A retreat is refused by nothing: a quiet call carries it out. -/
theorem quietEnd_of_retreats {current newState : LifecycleState} (h : Retreats current newState) :
    quietEnd current newState = some newState := by
  rcases h with ⟨rfl, rfl | rfl⟩ | ⟨rfl, rfl⟩
  · decide +kernel
  · decide +kernel
  · decide +kernel

theorem movesForward_iff (current newState : LifecycleState) :
    MovesForward current newState ↔ ¬Retreats current newState := by
  constructor
  · intro hforward hretreats
    obtain ⟨db', found, hrun, hleft⟩ := runs_of_quietEnd (quietEnd_of_retreats hretreats)
    have hstart : (storeAt current).tables.lifecycleState dispatchedOperation.text = current := rfl
    have hmoved := (hforward _ _ _ _ _ _ hstart hrun).1 found rfl
    rw [hleft] at hmoved
    exact not_forward_of_retreats hretreats hmoved
  · exact movesForward_of_not_retreats

/-- `mark_dispatched` brings an unresolved operation back to dispatched. -/
theorem unresolved_dispatched_again : ¬ ∀ current newState, MovesForward current newState := by
  intro h
  have hquiet : quietEnd .unresolved .dispatched = some .dispatched := by decide +kernel
  obtain ⟨db', found, hrun, hleft⟩ := runs_of_quietEnd hquiet
  have hmoved := (h .unresolved .dispatched _ _ _ _ _ _ rfl hrun).1 found rfl
  rw [hleft] at hmoved
  exact nomatch hmoved

end Verdant.Action
