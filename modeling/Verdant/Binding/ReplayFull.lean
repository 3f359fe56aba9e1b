import Verdant.Binding.BindingRuns

/-!
# A replay of the registry in place

`replay_full` works on the registry it is called on: it empties the memory, sets the sequence to zero and the guard to a
count, and then takes the rows one at a time.  A row that is refused ends it there, so the registry is left with the rows
in front of that row (`replayRows_of_stop`); it is as it was before exactly when it was already in that state.
-/

namespace Verdant.Binding

open TextCodec Storage

/-! ### The loop -/

/-- A row on the memory of the rows in front of it. -/
def Memory.replayRow (memory : Memory) (row : HistoryRow) : Except BindingError Memory := do
  let map ← splitBinding row.descriptor
  let version ← field map "v"
  if version ≠ "2" then .error (unreadable s!"unsupported binding descriptor version '{version}'")
  else
    let revision ← storedRevision map
    if revision ≠ memory.revision then
      .error (unreadable "binding row revision does not match durable predecessor")
    else
      let kind ← field map "kind"
      let event ← decodeEvent row.operation kind map
      .ok (memory.replay event)

/-- The guard with the conjunct of a row. -/
def guardRow (guard : Guard) (row : HistoryRow) : Guard := guard.also (bindingExists row) (bindingPresent row)

namespace BindingRegistry

variable (registry : BindingRegistry)

/-- Nothing replayed yet, of so many rows. -/
def clear (rows : Nat) : BindingRegistry :=
  { registry with memory := .empty, sequence := 0, guard := countBindings rows }

/-- The rows in their order; `count` is the number of rows in front. -/
def replayRows (registry : BindingRegistry) (count : Nat) : List HistoryRow → BindingRegistry × Except BindingError Unit
  | [] => ({ registry with sequence := count }, .ok ())
  | row :: rows =>
    if row.sequence ≠ count + 1 then
      (registry, .error (unreadable "binding history has a duplicate or missing sequence"))
    else
      -- the conjunct is pushed before the descriptor is read
      let guarded := { registry with guard := guardRow registry.guard row }
      match registry.memory.replayRow row with
      | .error e => (guarded, .error e)
      | .ok memory => replayRows { guarded with memory := memory } (count + 1) rows

/-- What `replay_full` does with what `read_descriptors` gave it. -/
def replayed : Except BindingError (List HistoryRow) → BindingRegistry × Except BindingError Unit
  | .error e => (registry, .error e)
  | .ok rows => (registry.clear rows.length).replayRows 0 rows

end BindingRegistry

def readDescriptors : BindingCall (List HistoryRow) := do
  let rows ← Prog.mapErr BindingError.store (Prog.attempt (Call.read selectBindings))
  Prog.check (decodeRows rows)

/-- Explicitly full reconstruction. -/
def BindingRegistry.replayFull (registry : BindingRegistry) :
    Call OutboxTables (BindingRegistry × Except BindingError Unit) := do
  let scan ← readDescriptors.run
  pure (registry.replayed scan)

/-- What a scan at this moment answers. -/
def scanOf (m : Moment) (db : Database OutboxTables) : Except BindingError (List HistoryRow) :=
  (execScript m selectBindings db).mapError BindingError.store >>= decodeRows

theorem replayFull_run (registry : BindingRegistry) (m : Moment) (db : Database OutboxTables) :
    registry.replayFull.run StoreOp.exec [m] db = (db, some (registry.replayed (scanOf m db), [])) := by
  have hscan : readDescriptors.run.run StoreOp.exec [m] db = (db, some (scanOf m db, [])) := by
    have hrows : (Prog.mapErr BindingError.store (Prog.attempt (Call.read selectBindings)) : BindingCall Rows).run.run
        StoreOp.exec [m] db = (db, some ((execScript m selectBindings db).mapError BindingError.store, [])) := rfl
    unfold readDescriptors scanOf
    rw [Prog.run_try_bind, hrows]
    cases (execScript m selectBindings db).mapError BindingError.store with
    | error e => rfl
    | ok rows => rfl
  unfold BindingRegistry.replayFull
  rw [Prog.run_bind, hscan]
  rfl

/-! ### Replays that succeed -/

theorem push_eq_ok {state next : Replay} {row : HistoryRow} :
    state.push row = .ok next ↔ row.sequence = state.count + 1 ∧ ∃ memory, state.memory.replayRow row = .ok memory ∧
      next = ⟨memory, guardRow state.guard row, state.count + 1⟩ := by
  unfold Replay.push Memory.replayRow
  simp only [Result.bind_eq_ok, Result.ite_error_eq_ok, Except.ok.injEq, ne_eq, not_not]
  constructor
  · rintro ⟨hsequence, map, hmap, version, hversion, htwo, revision, hrevision, hsame, kind, hkind, event, hevent, rfl⟩
    exact ⟨hsequence, _, ⟨map, hmap, version, hversion, htwo, revision, hrevision, hsame, kind, hkind, event, hevent, rfl⟩,
      rfl⟩
  · rintro ⟨hsequence, memory, ⟨map, hmap, version, hversion, htwo, revision, hrevision, hsame, kind, hkind, event, hevent,
      rfl⟩, rfl⟩
    exact ⟨hsequence, map, hmap, version, hversion, htwo, revision, hrevision, hsame, kind, hkind, event, hevent, rfl⟩

theorem replayRows_eq_ok {registry after : BindingRegistry} {count : Nat} {rows : List HistoryRow} :
    registry.replayRows count rows = (after, .ok ()) ↔
      ∃ last, rows.foldlM Replay.push ⟨registry.memory, registry.guard, count⟩ = .ok last ∧
        after = ⟨registry.store, last.memory, last.count, last.guard⟩ := by
  induction rows generalizing registry count with
  | nil =>
    constructor
    · intro h
      cases h
      exact ⟨_, rfl, rfl⟩
    · rintro ⟨last, hlast, rfl⟩
      cases hlast
      rfl
  | cons row rows ih =>
    simp only [List.foldlM_cons, Result.bind_eq_ok, push_eq_ok]
    unfold BindingRegistry.replayRows
    by_cases hsequence : row.sequence = count + 1
    · rw [if_neg (not_not.2 hsequence)]
      cases hrow : registry.memory.replayRow row with
      | error e =>
        constructor
        · intro h
          exact nomatch (Prod.mk.inj h).2
        · rintro ⟨last, ⟨next, ⟨-, memory, hmemory, -⟩, -⟩, -⟩
          exact nomatch hmemory
      | ok memory =>
        show BindingRegistry.replayRows _ (count + 1) rows = _ ↔ _
        rw [ih]
        constructor
        · rintro ⟨last, hlast, hafter⟩
          exact ⟨last, ⟨_, ⟨hsequence, memory, rfl, rfl⟩, hlast⟩, hafter⟩
        · rintro ⟨last, ⟨next, ⟨-, memory', hmemory, rfl⟩, hlast⟩, hafter⟩
          cases hmemory
          exact ⟨last, hlast, hafter⟩
    · rw [if_pos hsequence]
      constructor
      · intro h
        exact nomatch (Prod.mk.inj h).2
      · rintro ⟨last, ⟨next, ⟨hsame, -⟩, -⟩, -⟩
        exact absurd hsame hsequence

/-- A replay in place succeeds where the registry of the rows exists, and leaves that registry. -/
theorem replayed_eq_ok {registry after : BindingRegistry} {scan : Except BindingError (List HistoryRow)} :
    registry.replayed scan = (after, .ok ()) ↔ (scan >>= BindingRegistry.ofRows registry.store) = .ok after := by
  cases scan with
  | error e =>
    constructor
    · intro h
      exact nomatch (Prod.mk.inj h).2
    · intro h
      exact nomatch h
  | ok rows =>
    show BindingRegistry.replayRows _ 0 rows = _ ↔ BindingRegistry.ofRows registry.store rows = _
    unfold BindingRegistry.ofRows
    rw [replayRows_eq_ok, Result.bind_eq_ok]
    constructor
    · rintro ⟨last, hlast, rfl⟩
      exact ⟨last, hlast, rfl⟩
    · rintro ⟨last, hlast, hafter⟩
      exact ⟨last, hlast, (Except.ok.inj hafter).symm⟩

/-! ### The rows as a history -/

/-- The revision and the event of a row. -/
def rowEvent (row : HistoryRow) : Except BindingError (BindingRevision × Event) := do
  let map ← splitBinding row.descriptor
  let version ← field map "v"
  if version ≠ "2" then .error (unreadable s!"unsupported binding descriptor version '{version}'")
  else
    let revision ← storedRevision map
    let kind ← field map "kind"
    let event ← decodeEvent row.operation kind map
    .ok (revision, event)

theorem replayRow_eq_ok {memory next : Memory} {row : HistoryRow} :
    memory.replayRow row = .ok next ↔
      ∃ event, rowEvent row = .ok (memory.revision, event) ∧ memory.replay event = next := by
  unfold Memory.replayRow rowEvent
  simp only [Result.bind_eq_ok, Result.ite_error_eq_ok, Except.ok.injEq, Prod.mk.injEq]
  constructor
  · rintro ⟨map, hmap, version, hversion, htwo, revision, hrevision, hsame, kind, hkind, event, hevent, hnext⟩
    exact ⟨event, ⟨map, hmap, version, hversion, htwo, revision, hrevision, kind, hkind, event, hevent,
      not_not.1 hsame, rfl⟩, hnext⟩
  · rintro ⟨event, ⟨map, hmap, version, hversion, htwo, revision, hrevision, kind, hkind, event', hevent, hsame, rfl⟩, hnext⟩
    exact ⟨map, hmap, version, hversion, htwo, revision, hrevision, not_not.2 hsame, kind, hkind, event', hevent, hnext⟩

/-- The memory of the events of the rows. -/
def memoryOfRows (rows : List HistoryRow) : Memory :=
  ((rows.filterMap fun row => (rowEvent row).toOption).map Prod.snd).foldl Memory.replay .empty

/-- The row continues the history of the rows in front: it has the next sequence and it reads, at the revision they
lead to. -/
structure Continues (front : List HistoryRow) (row : HistoryRow) : Prop where
  sequence : row.sequence = front.length + 1
  reads : ∃ event, rowEvent row = .ok ((memoryOfRows front).revision, event)

/-- Every row continues the rows in front of it. -/
def Chained (rows : List HistoryRow) : Prop := ∀ front row back, rows = front ++ row :: back → Continues front row

/-- The guard of the rows, of a history of `n`. -/
def guardOfRows (n : Nat) (rows : List HistoryRow) : Guard := rows.foldl guardRow (countBindings n)

theorem memoryOfRows_concat {rows : List HistoryRow} {row : HistoryRow} {revision : BindingRevision} {event : Event}
    (h : rowEvent row = .ok (revision, event)) : memoryOfRows (rows ++ [row]) = (memoryOfRows rows).replay event := by
  unfold memoryOfRows
  simp [h, Except.toOption]

theorem guardOfRows_concat (n : Nat) (rows : List HistoryRow) (row : HistoryRow) :
    guardOfRows n (rows ++ [row]) = guardRow (guardOfRows n rows) row := by
  unfold guardOfRows
  rw [List.foldl_append]
  rfl

/-- Rows are chained, or there is a first row that does not continue those in front of it. -/
theorem chained_or_stop (rows : List HistoryRow) :
    Chained rows ∨ ∃ front row back, rows = front ++ row :: back ∧ Chained front ∧ ¬ Continues front row := by
  induction rows using List.reverseRecOn with
  | nil =>
    left
    intro front row back h
    simp at h
  | append_singleton rows last ih =>
    rcases ih with hchain | ⟨front, row, back, rfl, hfront, hstop⟩
    · by_cases hlast : Continues rows last
      · left
        intro front row back h
        rcases List.eq_nil_or_concat back with rfl | ⟨back, r, rfl⟩
        · obtain ⟨rfl, hrow⟩ := List.append_inj' h rfl
          cases hrow
          exact hlast
        · rw [List.concat_eq_append, ← List.cons_append, ← List.append_assoc] at h
          exact hchain front row back (List.append_inj' h rfl).1
      · exact .inr ⟨rows, last, [], rfl, hchain, hlast⟩
    · exact .inr ⟨front, row, back ++ [last], by simp, hfront, hstop⟩

theorem Chained.front {front back : List HistoryRow} (h : Chained (front ++ back)) : Chained front := by
  intro a row b hab
  refine h a row (b ++ back) ?_
  rw [hab, List.append_assoc, List.cons_append]

/-- The registry the loop is at after the rows. -/
def BindingRegistry.passed (registry : BindingRegistry) (n : Nat) (front : List HistoryRow) : BindingRegistry :=
  ⟨registry.store, memoryOfRows front, 0, guardOfRows n front⟩

theorem replayRows_passed (registry : BindingRegistry) (n : Nat) {front : List HistoryRow} (h : Chained front)
    (back : List HistoryRow) :
    (registry.clear n).replayRows 0 (front ++ back) = (registry.passed n front).replayRows front.length back := by
  induction front using List.reverseRecOn generalizing back with
  | nil => rfl
  | append_singleton front row ih =>
    obtain ⟨hsequence, event, hevent⟩ := h front row [] rfl
    have hrow : (memoryOfRows front).replayRow row = .ok (memoryOfRows (front ++ [row])) :=
      replayRow_eq_ok.2 ⟨event, hevent, (memoryOfRows_concat hevent).symm⟩
    rw [List.append_assoc, ih h.front, List.singleton_append]
    unfold BindingRegistry.passed
    rw [BindingRegistry.replayRows, if_neg (not_not.2 hsequence), guardOfRows_concat, List.length_append]
    show (match (memoryOfRows front).replayRow row with | .error e => _ | .ok memory => _) = _
    rw [hrow]
    rfl

/-- The rows whose conjuncts were pushed when the loop stopped at a row. -/
def guardedRows (front : List HistoryRow) (row : HistoryRow) : List HistoryRow :=
  if row.sequence = front.length + 1 then front ++ [row] else front

/-- What a refused row leaves: the rows in front of it, under a sequence of zero. -/
theorem replayRows_of_stop (registry : BindingRegistry) (n : Nat) {front : List HistoryRow} {row : HistoryRow}
    (hfront : Chained front) (hstop : ¬ Continues front row) (back : List HistoryRow) :
    ∃ e, (registry.clear n).replayRows 0 (front ++ row :: back) =
      (⟨registry.store, memoryOfRows front, 0, guardOfRows n (guardedRows front row)⟩, .error e) := by
  rw [replayRows_passed registry n hfront]
  unfold BindingRegistry.replayRows guardedRows
  by_cases hsequence : row.sequence = front.length + 1
  · rw [if_neg (not_not.2 hsequence), if_pos hsequence, guardOfRows_concat]
    cases hrow : (registry.passed n front).memory.replayRow row with
    | error e => exact ⟨e, rfl⟩
    | ok memory =>
      obtain ⟨event, hevent, -⟩ := replayRow_eq_ok.1 hrow
      exact absurd ⟨hsequence, event, hevent⟩ hstop
  · rw [if_pos hsequence, if_neg hsequence]
    exact ⟨_, rfl⟩

theorem replayed_of_chained (registry : BindingRegistry) {rows : List HistoryRow} (h : Chained rows) :
    registry.replayed (.ok rows) =
      (⟨registry.store, memoryOfRows rows, rows.length, guardOfRows rows.length rows⟩, .ok ()) := by
  have hrows := replayRows_passed registry rows.length h []
  rw [List.append_nil] at hrows
  exact hrows

/-! ### All or nothing -/

/-- The call in this moment leaves the registry alone if it is refused, and reads it off the rows if it is not. -/
structure AllOrNothing (registry : BindingRegistry) (m : Moment) (db : Database OutboxTables) : Prop where
  refused : ∀ after e, registry.replayFull.run StoreOp.exec [m] db = (db, some ((after, .error e), [])) →
    after = registry
  replayed : ∀ after, registry.replayFull.run StoreOp.exec [m] db = (db, some ((after, .ok ()), [])) →
    ∀ other : BindingRegistry, other.replayFull.run StoreOp.exec [m] db =
      (db, some (({ after with store := other.store }, .ok ()), []))

/-- The registry is where a replay of the rows stops: at the rows in front of the first that does not continue them. -/
def StoppedAt (registry : BindingRegistry) (rows : List HistoryRow) : Prop :=
  ∃ front row back, rows = front ++ row :: back ∧ Chained front ∧ ¬ Continues front row ∧
    registry.memory = memoryOfRows front ∧ registry.sequence = 0 ∧
    registry.guard = guardOfRows rows.length (guardedRows front row)

/-- A replay is all or nothing exactly when the scan is refused before anything is cleared, when every row continues the
rows in front of it, or when the registry already is where the replay stops. -/
theorem all_or_nothing_iff (registry : BindingRegistry) (m : Moment) (db : Database OutboxTables) :
    AllOrNothing registry m db ↔ (∃ e, scanOf m db = .error e) ∨
      ∃ rows, scanOf m db = .ok rows ∧ (Chained rows ∨ StoppedAt registry rows) := by
  have hrun : ∀ (r : BindingRegistry) x, r.replayFull.run StoreOp.exec [m] db = (db, some (x, [])) ↔
      r.replayed (scanOf m db) = x := by
    intro r x
    rw [replayFull_run]
    simp
  have hkey : AllOrNothing registry m db ↔
      (∀ after e, registry.replayed (scanOf m db) = (after, .error e) → after = registry) := by
    constructor
    · intro h after e hafter
      exact h.refused after e ((hrun _ _).2 hafter)
    · intro h
      refine ⟨fun after e hafter => h after e ((hrun _ _).1 hafter), fun after hafter other => ?_⟩
      rw [hrun] at hafter ⊢
      cases hscan : scanOf m db with
      | error e =>
        rw [hscan] at hafter
        exact nomatch (Prod.mk.inj hafter).2
      | ok rows =>
        rw [hscan] at hafter
        rcases chained_or_stop rows with hchain | ⟨front, row, back, rfl, hfront, hstop⟩
        · rw [replayed_of_chained _ hchain] at hafter ⊢
          cases hafter
          rfl
        · obtain ⟨e, he⟩ := replayRows_of_stop registry (front ++ row :: back).length hfront hstop back
          exact nomatch (Prod.mk.inj (he.symm.trans hafter)).2
  rw [hkey]
  cases hscan : scanOf m db with
  | error e =>
    constructor
    · intro _
      exact .inl ⟨e, rfl⟩
    · intro _ after e' hafter
      exact (Prod.mk.inj hafter).1.symm
  | ok rows =>
    constructor
    · intro h
      refine .inr ⟨rows, rfl, ?_⟩
      rcases chained_or_stop rows with hchain | ⟨front, row, back, rfl, hfront, hstop⟩
      · exact .inl hchain
      · obtain ⟨e, he⟩ := replayRows_of_stop registry (front ++ row :: back).length hfront hstop back
        have hsame := h _ e he
        exact .inr ⟨front, row, back, rfl, hfront, hstop, by rw [← hsame], by rw [← hsame], by rw [← hsame]⟩
    · rintro (⟨e, he⟩ | ⟨_, hrows, hchain | ⟨front, row, back, rfl, hfront, hstop, hmemory, hsequence, hguard⟩⟩)
      · exact nomatch he
      · cases hrows
        intro after e hafter
        rw [replayed_of_chained _ hchain] at hafter
        exact nomatch (Prod.mk.inj hafter).2
      · cases hrows
        intro after e hafter
        obtain ⟨e', he⟩ := replayRows_of_stop registry (front ++ row :: back).length hfront hstop back
        rw [← (Prod.mk.inj (he.symm.trans hafter)).1, ← hmemory, ← hsequence, ← hguard]

/-- A refused replay that leaves another sequence. -/
theorem not_allOrNothing {registry : BindingRegistry} {m : Moment} {db : Database OutboxTables}
    (hrefused : (registry.replayed (scanOf m db)).2.isOk = false)
    (hsequence : (registry.replayed (scanOf m db)).1.sequence ≠ registry.sequence) : ¬ AllOrNothing registry m db := by
  intro h
  rcases hrun : registry.replayed (scanOf m db) with ⟨after, e | u⟩
  · rw [hrun, h.refused after e (by rw [replayFull_run, hrun])] at hsequence
    exact hsequence rfl
  · rw [hrun] at hrefused
    exact nomatch hrefused

/-- The second row of a history, of a version the registry does not read. -/
def laterRow : OutboxRecord where
  id := 2
  operation := opSpaceText
  entity := "scope-a"
  sensor := "space"
  valueJson := (Value.text "v=3;operation=op-2;revision=1;kind=space").toJson
  unit := "binding"
  sourceMs := "0"
  receiptMs := "0"
  ingestionMs := "0"
  generation := "0"
  seq := "2"
  status := .queued
  claimedBy := none

/-- The first row of a history. -/
def firstRow : OutboxRecord :=
  { laterRow with
    id := 1
    valueJson := (Value.text "v=2;operation=op-1;revision=0;kind=space;id=space-1;scope=scope-a;label=lobby").toJson
    seq := "1" }

/-- A registry that replayed one row loses its sequence at a second row that it refuses. -/
theorem refused_row_clears :
    let registry : BindingRegistry := ⟨⟨"store", .tiny⟩, .empty, 0, countBindings 0⟩
    let m := Moment.quiet "op-1" 0
    let replayed := registry.replayed (scanOf m ⟨⟨[firstRow], 2, []⟩, []⟩)
    (replayed.2.isOk = true ∧ replayed.1.sequence = 1) ∧ ¬ AllOrNothing replayed.1 m ⟨⟨[firstRow, laterRow], 3, []⟩, []⟩ := by
  refine ⟨⟨by decide +kernel, by decide +kernel⟩, not_allOrNothing (by decide +kernel) (by decide +kernel)⟩

end Verdant.Binding
