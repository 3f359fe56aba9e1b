import Verdant.Binding.Replaying
import Verdant.Library.Leads

/-!
# The binding rows under interference

Any number of registries and of other owners work on one database.  A registry writes on the history it replayed: the guard
counts the rows, and under `bindingLaw` a history of the same length is the same history, so every submit leaves the binding
rows or adds one row to them, which stands for a `Commit` to their ledger.  `loose` says whether a proposal may be written
that does not read back; where it is false every row reads.
-/

namespace Verdant.Binding

open TextCodec Storage Access Prog

/-! ### The law -/

/-- What the binding rows of a database keep. -/
structure Kept (loose : Prop) (db : Database OutboxTables) : Prop where
  ordered : Ordered db.tables
  filed : ∀ i r, (logOf isBinding db.tables)[i]? = some r → Filed (i + 1) r
  reachable : Reachable (ledgerOf db.tables)
  readable : ¬ loose → Readable (logOf isBinding db.tables)
  receipts : ∀ e ∈ ledgerOf db.tables, ∃ r ∈ db.receipts, r.operation = e.operation

theorem Kept.filedAll {loose : Prop} {db : Database OutboxTables} (h : Kept loose db) :
    FiledAll (logOf isBinding db.tables) := .of_ordered h.ordered h.filed

def bindingLaw (loose : Prop) : Law (Database OutboxTables) :=
  .keeping (Kept loose) (fun s t => history s.tables <+: history t.tables ∧ s.receipts <+: t.receipts)
    BothGrow.refl @BothGrow.trans

/-- What an operation does to the binding rows: nothing, or it adds one, which is a commit to their ledger if it reads. -/
def Settled (loose : Prop) (op : StoreOp OutboxTables) (m : Moment) (db : Database OutboxTables) : Prop :=
  logOf isBinding (op.exec m db).1.tables = logOf isBinding db.tables ∨
    ∃ r, logOf isBinding (op.exec m db).1.tables = logOf isBinding db.tables ++ [r] ∧
      ((∃ e, entryOf r = some e ∧ Commit (ledgerOf db.tables) e) ∨ (loose ∧ entryOf r = none))

theorem settled_noSubmit {loose : Prop} {op : StoreOp OutboxTables} (h : NoSubmit op) (m : Moment)
    (db : Database OutboxTables) : Settled loose op m db := .inl (by rw [h.exec])

/-! ### Writing a row -/

/-- A registry as a replay of the tables gives it. -/
structure Replayed (registry : BindingRegistry) (tables : OutboxTables) : Prop where
  memory : registry.memory = memoryOf (ledgerOf tables)
  sequence : registry.sequence = (logOf isBinding tables).length
  readable : Readable (logOf isBinding tables)
  guards : ∀ t, registry.guard.holds t = true → countIs isBinding (logOf isBinding tables).length t = true

/-- What a descriptor says when it is written at a ledger under an operation identity. -/
structure Meaning (loose : Prop) (log : List Entry) (kind text : String) (operation : OperationId) : Prop where
  known : kind ∈ bindingOperations
  names : Names text
  reads : ¬ loose → ∃ e, readEntry kind text = .ok e
  entry : ∀ e, readEntry kind text = .ok e → e.operation = operation.text ∧ e.revision = (memoryOf log).revision ∧
    (e.event.isFinding = false → kind ≠ opFindingText) ∧ Allowed (memoryOf log) e.event

/-- A batch a registry prepared for one row. -/
structure Prepared (registry : BindingRegistry) (operation : OperationId) (kind text : String)
    (pending : PreparedMutation OutboxTables) : Prop where
  operation : pending.operation = operation
  bound : registry.sequence + 1 < 2 ^ 64
  room : kind ≠ opFindingText → registry.memory.revision.value.toNat ≠ 2 ^ 32 - 1
  body : ∃ guard entity authority, (∀ t, Guard.holds guard t = true → registry.guard.holds t = true) ∧
    pending.body = guardedBatch guard.text (fun s => guard.holds s.tables)
      (bindingScript (bindingRow (registry.sequence + 1) kind entity (Value.text text).toJson) entity authority)

theorem isBinding_kind {kind : String} (h : kind ∈ bindingOperations) : likePrefix "binding-" kind = true := by
  revert kind
  decide

/-- A row appended to the tables is the last binding row. -/
theorem logOf_appended {s t : OutboxTables} {seq : Nat} {kind : String} {entity : InstalledId} {valueJson : String}
    (h : Appended s t [bindingRow seq kind entity valueJson]) (hkind : kind ∈ bindingOperations) :
    logOf isBinding t = logOf isBinding s ++ [(bindingRow seq kind entity valueJson).record (s.lastId + 1)] := by
  rw [h.logOf_eq]
  have hmine : isBinding ((bindingRow seq kind entity valueJson).record (s.lastId + 1)) = true := isBinding_kind hkind
  unfold numbered numbered
  rw [List.filter_cons, if_pos hmine, List.filter_nil]

/-- One more row under the columns of the history. -/
theorem filed_concat {rs : List OutboxRecord} {r : OutboxRecord} (hrs : ∀ i x, rs[i]? = some x → Filed (i + 1) x)
    (hr : Filed (rs.length + 1) r) : ∀ i x, (rs ++ [r])[i]? = some x → Filed (i + 1) x := by
  intro i x hx
  rcases Nat.lt_or_ge i rs.length with hi | hi
  · rw [List.getElem?_append_left hi] at hx
    exact hrs i x hx
  · rw [List.getElem?_append_right hi, List.getElem?_singleton] at hx
    split at hx
    · cases hx
      have hlen : i = rs.length := by omega
      rw [hlen]
      exact hr
    · exact nomatch hx

/-- A submit of a prepared row leaves the binding rows, or adds the row to the history it was prepared on. -/
theorem submit_prepared {loose : Prop} {registry : BindingRegistry} {operation : OperationId} {kind text : String}
    {pending : PreparedMutation OutboxTables} (hpending : Prepared registry operation kind text pending)
    {s t : Database OutboxTables} (hreplayed : Replayed registry s.tables) (hst : history s.tables <+: history t.tables)
    (ht : Kept loose t) (hmeaning : Meaning loose (ledgerOf s.tables) kind text operation) (store : SqliteStore)
    (m : Moment) :
    Settled loose (.submit store pending) m t ∧
      (bindingLaw loose).rel t (StoreOp.exec (.submit store pending) m t).1 := by
  obtain ⟨guard, entity, authority, hguard, hbody⟩ := hpending.body
  have hexec : StoreOp.exec (.submit store pending) m t = Storage.submit store pending m.host t := rfl
  rcases submit_guarded store hbody m.host t with hsame | ⟨u, v, inner, out, hholds, hdb, -, hrun, -, -, -, hfresh, hnext⟩
  · refine ⟨.inl (by rw [hexec, hsame]), ?_⟩
    rw [hexec, hsame]
    exact (bindingLaw loose).refl t
  -- the guard counted the rows of the history the row was prepared on
  have hcount := hreplayed.guards _ (hguard _ hholds)
  unfold countIs at hcount
  rw [decide_eq_true_eq] at hcount
  have hlog : logOf isBinding t.tables = logOf isBinding s.tables := logOf_eq_of_length hst hcount
  have hledger : ledgerOf t.tables = ledgerOf s.tables := congrArg entriesOf hlog
  obtain ⟨hreceipts, happended⟩ := bindingScript_run hrun
  rw [congrArg Database.tables hdb] at happended
  have hrow := logOf_appended happended hmeaning.known
  have hafter : (StoreOp.exec (.submit store pending) m t).1.tables = v.tables := by rw [hexec, hnext]
  have hnewReceipts : (StoreOp.exec (.submit store pending) m t).1.receipts =
      t.receipts ++ [⟨pending.operation.text, pending.request, encodeResponse out⟩] := by
    rw [hexec, hnext, hreceipts, congrArg Database.receipts hdb]
  generalize hr : (bindingRow (registry.sequence + 1) kind entity (Value.text text).toJson).record (t.tables.lastId + 1) =
    r at hrow
  have htext : textOf r = some text := by
    refine textOf_toJson ?_
    rw [← hr]
    rfl
  have hkind : r.operation = kind := by
    rw [← hr]
    rfl
  have hfiled : Filed ((logOf isBinding t.tables).length + 1) r := by
    rw [hlog, ← hreplayed.sequence]
    refine ⟨?_, ?_, hpending.bound, text, ?_, hmeaning.names⟩
    · rw [hkind]
      exact hmeaning.known
    · rw [← hr]
      rfl
    · rw [← hr]
      rfl
  have hcommit : ∀ e, entryOf r = some e → Commit (ledgerOf t.tables) e := by
    intro e he
    rw [entryOf_eq_some htext, hkind] at he
    obtain ⟨hidentity, hrevision, hroom, hallowed⟩ := hmeaning.entry e he
    rw [hledger]
    refine ⟨hrevision, fun hfinding => ?_, fun d hd hsame => ?_, hallowed⟩
    · rw [← hreplayed.memory]
      exact hpending.room (hroom hfinding)
    · -- an entry of this identity would have left a receipt
      rw [← hledger] at hd
      obtain ⟨receipt, hreceipt, hop⟩ := ht.receipts d hd
      refine findReceipt_none.1 hfresh receipt hreceipt ?_
      rw [hop, hsame, hidentity, hpending.operation]
  have hreads : ¬ loose → ∃ e, entryOf r = some e := by
    intro hstrict
    obtain ⟨e, he⟩ := hmeaning.reads hstrict
    refine ⟨e, ?_⟩
    rw [entryOf_eq_some htext, hkind]
    exact he
  have hentries : ledgerOf (StoreOp.exec (.submit store pending) m t).1.tables =
      ledgerOf t.tables ++ (entryOf r).toList := by
    unfold ledgerOf
    rw [hafter, hrow, entriesOf_concat]
  refine ⟨.inr ⟨r, by rw [hafter, hrow], ?_⟩, fun _ => ⟨⟨?_, ?_, ?_, fun hstrict => ?_, ?_⟩, ?_, ?_⟩⟩
  · cases he : entryOf r with
    | some e => exact .inl ⟨e, rfl, hcommit e he⟩
    | none =>
      refine .inr ⟨?_, rfl⟩
      by_contra hstrict
      obtain ⟨e, he'⟩ := hreads hstrict
      exact nomatch he.symm.trans he'
  · rw [hafter]
    exact happended.ordered ht.ordered
  · rw [hafter, hrow]
    exact filed_concat ht.filed hfiled
  · rw [hentries]
    cases he : entryOf r with
    | none => simpa using ht.reachable
    | some e => exact .commit ht.reachable (hcommit e he)
  · rw [hafter, hrow]
    intro x hx
    rcases List.mem_append.1 hx with hx | hx
    · exact ht.readable hstrict x hx
    · rw [List.mem_singleton.1 hx]
      exact Option.isSome_iff_exists.2 (hreads hstrict)
  · intro e he
    rw [hentries, List.mem_append] at he
    rw [hnewReceipts]
    rcases he with he | he
    · obtain ⟨receipt, hreceipt, hop⟩ := ht.receipts e he
      exact ⟨receipt, List.mem_append_left _ hreceipt, hop⟩
    · rw [Option.mem_toList, entryOf_eq_some htext, hkind] at he
      refine ⟨_, List.mem_append_right _ (List.mem_singleton_self _), ?_⟩
      show pending.operation.text = e.operation
      rw [(hmeaning.entry e he).1, hpending.operation]
  · rw [hafter]
    exact happended.grows
  · rw [hnewReceipts]
    exact List.prefix_append _ _

end Verdant.Binding
