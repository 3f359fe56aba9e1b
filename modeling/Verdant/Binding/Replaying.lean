import Verdant.Binding.Ledger
import Verdant.Library.Pointwise

/-!
# Replaying the binding rows

The binding rows of the tables as a ledger.  Rows whose columns the registry wrote (`Filed`) and whose descriptors all read
replay to the memory of their ledger, under a guard that counts them (`ofRows_filed`); with one row that does not
read no replay succeeds (`readable_of_ofRows`).
-/

namespace Verdant.Binding

open TextCodec Storage

/-! ### One row -/

/-- The descriptor a row carries. -/
def textOf (r : OutboxRecord) : Option String :=
  match Value.fromJson r.valueJson with
  | .ok (.text raw) => some raw
  | _ => none

/-- The entry a row stands for. -/
def entryOf (r : OutboxRecord) : Option Entry := (textOf r).bind fun raw => (readEntry r.operation raw).toOption

theorem entryOf_eq_some {r : OutboxRecord} {raw : String} (htext : textOf r = some raw) {e : Entry} :
    entryOf r = some e ↔ readEntry r.operation raw = .ok e := by
  unfold entryOf
  rw [htext, Option.bind_some]
  cases readEntry r.operation raw with
  | error _ => exact ⟨fun h => (nomatch h), fun h => nomatch h⟩
  | ok e' => exact ⟨fun h => congrArg Except.ok (Option.some.inj h), fun h => congrArg some (Except.ok.inj h)⟩

theorem textOf_toJson {r : OutboxRecord} {raw : String} (h : r.valueJson = (Value.text raw).toJson) :
    textOf r = some raw := by
  unfold textOf
  rw [h, Json.fromJson_toJson]

/-- A descriptor that splits names its operation. -/
def Names (raw : String) : Prop := ∀ map, splitBinding raw = .ok map → ∃ id, field map "operation" = .ok id

/-- A row with the columns of the `n`-th row of the history. -/
structure Filed (n : Nat) (r : OutboxRecord) : Prop where
  operation : r.operation ∈ bindingOperations
  sequence : r.seq = Nat.repr n
  bound : n < 2 ^ 64
  text : ∃ raw, r.valueJson = (Value.text raw).toJson ∧ Names raw

/-- The row as a scan gives it. -/
def historyRow (r : OutboxRecord) : HistoryRow where
  id := r.id
  sequence := (parseU64 r.seq).getD 0
  operation := r.operation
  entity := r.entity
  descriptor := (textOf r).getD ""
  valueJson := r.valueJson

theorem textColumn_sqlQuote (absent : BindingError) (raw : String) : textColumn absent (sqlQuote raw) = .ok raw := by
  unfold textColumn
  rw [unquoteText_sqlQuote]
  rfl

theorem decodeRow_filed {n : Nat} {r : OutboxRecord} (h : Filed n r) (hlow : 0 < r.id) (hhigh : r.id < 2 ^ 63) :
    decodeRow (bindingColumns r) = .ok (historyRow r) := by
  obtain ⟨raw, htext, -⟩ := h.text
  have hvalue : rowValue r.valueJson = .ok (.text raw) := by
    unfold rowValue
    rw [htext, Json.fromJson_toJson]
    rfl
  have hid : rowId (Nat.repr r.id) = .ok (r.id : Int) := by
    unfold rowId
    have hpos : decide (0 < (r.id : Int)) = true := by
      rw [decide_eq_true_eq]
      omega
    rw [parseI64_repr hhigh, Option.filter_some, if_pos hpos]
  have hseq : parseU64 r.seq = some n := by
    rw [h.sequence]
    exact parseU64_repr h.bound
  have hsequence : rowSequence r.seq = .ok n := by
    unfold rowSequence
    rw [hseq]
  unfold historyRow
  simp only [bindingColumns, decodeRow, textColumn_sqlQuote, Result.ok_bind, not_not.2 h.operation, if_false, hvalue, hid,
    hsequence]
  rw [hseq, textOf_toJson htext]
  rfl

/-! ### One step -/

/-- A row that reads at the revision of the memory is replayed. -/
theorem push_of_readEntry {state : Replay} {row : HistoryRow} {e : Entry} (hsequence : row.sequence = state.count + 1)
    (hread : readEntry row.operation row.descriptor = .ok e) (hrevision : e.revision = state.memory.revision) :
    state.push row = .ok ⟨state.memory.replay e.event, state.guard.also (bindingExists row) (bindingPresent row),
      state.count + 1⟩ := by
  unfold readEntry at hread
  obtain ⟨map, hmap, hread⟩ := Result.bind_eq_ok.1 hread
  obtain ⟨version, hversion, hread⟩ := Result.bind_eq_ok.1 hread
  split at hread
  · exact nomatch hread
  rename_i htwo
  obtain rfl := not_not.1 htwo
  obtain ⟨identity, -, hread⟩ := Result.bind_eq_ok.1 hread
  obtain ⟨revision, hstored, hread⟩ := Result.bind_eq_ok.1 hread
  obtain ⟨kind, hkind, hread⟩ := Result.bind_eq_ok.1 hread
  obtain ⟨event, hevent, hread⟩ := Result.bind_eq_ok.1 hread
  cases hread
  have hsame : revision = state.memory.revision := hrevision
  unfold Replay.push
  simp only [hsequence, ne_eq, not_true_eq_false, if_false, hmap, hversion, hstored, hkind, hevent, Result.ok_bind,
    hsame]

theorem readEntry_of_push {state next : Replay} {row : HistoryRow} (hnames : Names row.descriptor)
    (h : state.push row = .ok next) : ∃ e, readEntry row.operation row.descriptor = .ok e := by
  unfold Replay.push at h
  split at h
  · exact nomatch h
  obtain ⟨map, hmap, h⟩ := Result.bind_eq_ok.1 h
  obtain ⟨version, hversion, h⟩ := Result.bind_eq_ok.1 h
  split at h
  · exact nomatch h
  rename_i htwo
  obtain rfl := not_not.1 htwo
  obtain ⟨revision, hstored, h⟩ := Result.bind_eq_ok.1 h
  split at h
  · exact nomatch h
  obtain ⟨kind, hkind, h⟩ := Result.bind_eq_ok.1 h
  obtain ⟨event, hevent, -⟩ := Result.bind_eq_ok.1 h
  obtain ⟨identity, hidentity⟩ := hnames map hmap
  refine ⟨⟨identity, revision, event⟩, ?_⟩
  unfold readEntry
  simp only [hmap, hversion, ne_eq, not_true_eq_false, if_false, hidentity, hstored, hkind, hevent, Result.ok_bind]

/-- A row of a fold that succeeded was replayed. -/
theorem push_of_foldlM {state last : Replay} {rows : List HistoryRow} (h : rows.foldlM Replay.push state = .ok last)
    {row : HistoryRow} (hrow : row ∈ rows) : ∃ before after, Replay.push before row = .ok after := by
  induction rows generalizing state with
  | nil => exact nomatch hrow
  | cons first rows ih =>
    rw [List.foldlM_cons] at h
    obtain ⟨next, hnext, h⟩ := Result.bind_eq_ok.1 h
    rcases List.mem_cons.1 hrow with rfl | hrow
    · exact ⟨state, next, hnext⟩
    · exact ih h hrow

/-! ### All rows -/

/-- Rows with the columns of the history, in its order, and with identities in range. -/
structure FiledAll (rs : List OutboxRecord) : Prop where
  filed : ∀ i r, rs[i]? = some r → Filed (i + 1) r
  ids : ∀ r ∈ rs, 0 < r.id ∧ r.id < 2 ^ 63

theorem FiledAll.front {rs : List OutboxRecord} {r : OutboxRecord} (h : FiledAll (rs ++ [r])) : FiledAll rs where
  filed i x hx := by
    refine h.filed i x ?_
    rw [List.getElem?_append_left (List.getElem?_eq_some_iff.1 hx).1]
    exact hx
  ids x hx := h.ids x (List.mem_append_left _ hx)

theorem FiledAll.last {rs : List OutboxRecord} {r : OutboxRecord} (h : FiledAll (rs ++ [r])) : Filed (rs.length + 1) r := by
  refine h.filed rs.length r ?_
  simp

theorem FiledAll.of_mem {rs : List OutboxRecord} (h : FiledAll rs) {r : OutboxRecord} (hr : r ∈ rs) : ∃ n, Filed n r := by
  obtain ⟨i, hi⟩ := List.mem_iff_getElem?.1 hr
  exact ⟨i + 1, h.filed i r hi⟩

theorem decodeRows_filed {rs : List OutboxRecord} (h : FiledAll rs) :
    decodeRows (rs.map bindingColumns) = .ok (rs.map historyRow) := by
  unfold decodeRows
  rw [Result.mapM_eq_ok, List.forall₂_map_left_iff]
  refine Pointwise.forall₂_map_of fun r hr => ?_
  obtain ⟨n, hfiled⟩ := h.of_mem hr
  obtain ⟨hlow, hhigh⟩ := h.ids r hr
  exact decodeRow_filed hfiled hlow hhigh

/-- The entries of the rows that read. -/
def entriesOf (rs : List OutboxRecord) : List Entry := rs.filterMap entryOf

theorem entriesOf_concat (rs : List OutboxRecord) (r : OutboxRecord) :
    entriesOf (rs ++ [r]) = entriesOf rs ++ (entryOf r).toList := by
  unfold entriesOf
  rw [List.filterMap_append]
  cases h : entryOf r <;> simp [h]

/-- Each row stands for an entry. -/
def Readable (rs : List OutboxRecord) : Prop := ∀ r ∈ rs, (entryOf r).isSome = true

theorem Readable.front {rs : List OutboxRecord} {r : OutboxRecord} (h : Readable (rs ++ [r])) : Readable rs :=
  fun x hx => h x (List.mem_append_left _ hx)

theorem Readable.length {rs : List OutboxRecord} (h : Readable rs) : (entriesOf rs).length = rs.length := by
  induction rs using List.reverseRecOn with
  | nil => rfl
  | append_singleton rs r ih =>
    obtain ⟨e, he⟩ := Option.isSome_iff_exists.1 (h r (by simp))
    rw [entriesOf_concat, he, List.length_append, List.length_append, ih h.front]
    rfl

/-- Rows that read replay to the memory of their entries; the conjuncts they add leave the guard a count. -/
theorem foldlM_push {rs : List OutboxRecord} (hfiled : FiledAll rs) (hread : Readable rs)
    (hlog : Reachable (entriesOf rs)) (n : Nat) :
    ∃ guard, (rs.map historyRow).foldlM Replay.push (Replay.start n) = .ok ⟨memoryOf (entriesOf rs), guard, rs.length⟩ ∧
      ∀ tables, guard.holds tables = (countIs isBinding n tables && rs.all fun r => bindingPresent (historyRow r) tables) := by
  induction rs using List.reverseRecOn with
  | nil => exact ⟨countBindings n, rfl, fun tables => (Bool.and_true _).symm⟩
  | append_singleton rs r ih =>
    obtain ⟨e, he⟩ := Option.isSome_iff_exists.1 (hread r (by simp))
    have hentries : entriesOf (rs ++ [r]) = entriesOf rs ++ [e] := by
      rw [entriesOf_concat, he]
      rfl
    rw [hentries] at hlog
    have hfront : Reachable (entriesOf rs) := hlog.of_prefix (List.prefix_append _ _)
    obtain ⟨guard, hfold, hguard⟩ := ih hfiled.front hread.front hfront
    have hlast := hfiled.last
    obtain ⟨raw, htext, -⟩ := hlast.text
    have hstep : Replay.push ⟨memoryOf (entriesOf rs), guard, rs.length⟩ (historyRow r) = .ok ⟨(memoryOf (entriesOf rs)).replay
        e.event, guard.also (bindingExists (historyRow r)) (bindingPresent (historyRow r)), rs.length + 1⟩ := by
      refine push_of_readEntry ?_ ?_ ?_
      · show (parseU64 r.seq).getD 0 = rs.length + 1
        rw [hlast.sequence, parseU64_repr hlast.bound]
        rfl
      · show readEntry r.operation ((textOf r).getD "") = .ok e
        rw [textOf_toJson htext]
        exact (entryOf_eq_some (textOf_toJson htext)).1 he
      · -- the last entry was committed at the revision of the entries before it
        exact hlog.last.revision
    refine ⟨guard.also (bindingExists (historyRow r)) (bindingPresent (historyRow r)), ?_, fun tables => ?_⟩
    · rw [List.map_append, List.foldlM_append, hfold, Result.ok_bind, hentries, memoryOf_concat]
      simp only [List.map_cons, List.map_nil, List.foldlM_cons, List.foldlM_nil, hstep, List.length_append, List.length_singleton]
      rfl
    · have hboth : (guard.also (bindingExists (historyRow r)) (bindingPresent (historyRow r))).holds tables =
          (guard.holds tables && bindingPresent (historyRow r) tables) := rfl
      rw [hboth, hguard, List.all_append, Bool.and_assoc]
      simp

/-- Rows that read are a registry with the memory of their entries, under a guard that counts them. -/
theorem ofRows_filed {rs : List OutboxRecord} (hfiled : FiledAll rs) (hread : Readable rs)
    (hlog : Reachable (entriesOf rs)) (store : SqliteStore) :
    ∃ guard, (decodeRows (rs.map bindingColumns) >>= BindingRegistry.ofRows store) =
        .ok ⟨store, memoryOf (entriesOf rs), rs.length, guard⟩ ∧
      ∀ tables, guard.holds tables = true → countIs isBinding rs.length tables = true := by
  obtain ⟨guard, hfold, hguard⟩ := foldlM_push hfiled hread hlog rs.length
  refine ⟨guard, ?_, fun tables hholds => ?_⟩
  · rw [decodeRows_filed hfiled, Result.ok_bind]
    unfold BindingRegistry.ofRows
    rw [List.length_map, hfold]
    rfl
  · rw [hguard, Bool.and_eq_true] at hholds
    exact hholds.1

/-- With a row that does not read no replay succeeds. -/
theorem readable_of_ofRows {rs : List OutboxRecord} (hfiled : FiledAll rs) {store : SqliteStore}
    {registry : BindingRegistry}
    (h : (decodeRows (rs.map bindingColumns) >>= BindingRegistry.ofRows store) = .ok registry) : Readable rs := by
  rw [decodeRows_filed hfiled, Result.ok_bind] at h
  unfold BindingRegistry.ofRows at h
  obtain ⟨last, hfold, -⟩ := Result.bind_eq_ok.1 h
  intro r hr
  obtain ⟨n, hrow⟩ := hfiled.of_mem hr
  obtain ⟨raw, htext, hnames⟩ := hrow.text
  have hdescriptor : (historyRow r).descriptor = raw := by
    unfold historyRow
    rw [textOf_toJson htext]
    rfl
  obtain ⟨before, after, hpush⟩ := push_of_foldlM hfold (List.mem_map_of_mem hr)
  obtain ⟨e, he⟩ := readEntry_of_push (hdescriptor ▸ hnames) hpush
  rw [hdescriptor] at he
  rw [(entryOf_eq_some (textOf_toJson htext)).2 he]
  rfl

/-! ### Tables -/

/-- The entries of the binding rows of the tables. -/
def ledgerOf (tables : OutboxTables) : List Entry := entriesOf (logOf isBinding tables)

/-- The rows whose ids are in order have ids in range. -/
theorem FiledAll.of_ordered {tables : OutboxTables} (hordered : Ordered tables)
    (hfiled : ∀ i r, (logOf isBinding tables)[i]? = some r → Filed (i + 1) r) : FiledAll (logOf isBinding tables) where
  filed := hfiled
  ids r hr := hordered.id_pos (List.mem_of_mem_filter hr)

end Verdant.Binding
