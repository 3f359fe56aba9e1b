import Verdant.Api.JournalTables
import Verdant.Library.Leads

/-!
# Coordinators under interference

Any number of coordinators and of other owners work on one database.  An append leaves the rows of the coordinators or adds
one: its guard counts the intents of the scope that were read, so under `apiLaw` the scope still has the history the append
was decided on, and the ticket of the operation has no receipt, so no scope has an intent of it.  What an append answers is
read off the receipt of its ticket.
-/

namespace Verdant.Api

open TextCodec Storage Access Binding Prog

/-! ### The law -/

def apiLaw : Law (Database OutboxTables) :=
  .keeping Kept (fun s t => history s.tables <+: history t.tables ∧ s.receipts <+: t.receipts)
    BothGrow.refl @BothGrow.trans

/-- The identities a process draws for its tickets. -/
def Drawn (m : Moment) : Prop := startsWith "storage-" m.id = true

/-- The rows of the coordinators. -/
def apiLog (db : Database OutboxTables) : List OutboxRecord := logOf isApiRow db.tables

/-- What one append asks of the database it meets: an intent is a commit of the ledger. -/
def Fits (db : Database OutboxTables) (r : OutboxRecord) : Prop :=
  r.operation = eventText →
    ∃ i, Intent.decode (intentColumns r) = .ok i ∧ r.entity = i.scope.text ∧ Commit (journal db.tables) i

/-- What an operation of a run does to the rows of the coordinators: nothing, or one append. -/
def Settled (op : StoreOp OutboxTables) (m : Moment) (db : Database OutboxTables) : Prop :=
  apiLog (op.exec m db).1 = apiLog db ∨ ∃ r, Fits db r ∧ apiLog (op.exec m db).1 = apiLog db ++ [r]

theorem settled_of_eq {op : StoreOp OutboxTables} {m : Moment} {db : Database OutboxTables} (h : (op.exec m db).1 = db) :
    Settled op m db := .inl (by rw [h])

theorem apiLog_grows {s t : Database OutboxTables} (h : history s.tables <+: history t.tables) :
    apiLog s <+: apiLog t := logOf_grows h

/-- The receipt of an operation stays. -/
theorem findReceipt_grows {old new : List ReceiptRow} (h : old <+: new) {op : String} {receipt : ReceiptRow}
    (hfind : findReceipt old op = some receipt) : findReceipt new op = some receipt := by
  obtain ⟨more, rfl⟩ := h
  unfold findReceipt at hfind ⊢
  rw [List.find?_append, hfind]
  rfl

theorem isApiTicket_drawn {id : String} (h : startsWith "storage-" id = true) : isApiTicket id = false := by
  have hfirst : ∀ front : String, front.toList.head? = some 'a' → startsWith front id = false := by
    intro front hfront
    by_contra hnot
    rw [Bool.not_eq_false] at hnot
    unfold startsWith at h hnot
    rw [List.isPrefixOf_iff_prefix] at h hnot
    obtain ⟨rest, hrest⟩ := h
    obtain ⟨rest', hrest'⟩ := hnot
    have hheads := congrArg List.head? (hrest.trans hrest'.symm)
    obtain ⟨tail, htail⟩ : ∃ tail, front.toList = 'a' :: tail := by
      cases hlist : front.toList with
      | nil =>
        rw [hlist] at hfront
        exact nomatch hfront
      | cons c tail =>
        rw [hlist] at hfront
        obtain rfl := Option.some.inj hfront
        exact ⟨tail, rfl⟩
    have hs : ("storage-" : String).toList.head? = some 's' := by decide
    rw [htail, List.head?_append, hs] at hheads
    exact absurd (Option.some.inj hheads) (by decide)
  unfold isApiTicket
  rw [hfirst _ (by decide), hfirst _ (by decide)]
  rfl

theorem isApiTicket_journal (op : OperationId) : isApiTicket (journalFront ++ "-" ++ op.text) = true := by
  unfold isApiTicket
  rw [startsWith_append, Bool.true_or]

theorem isApiTicket_cancel (op : OperationId) : isApiTicket (cancelFront ++ "-" ++ op.text) = true := by
  unfold isApiTicket
  rw [startsWith_append, Bool.or_true]

/-! ### Steps -/

section Steps

variable {s t : Database OutboxTables}

/-- The intents of databases with the same rows are the same. -/
theorem journal_congr (h : apiLog t = apiLog s) : journal t.tables = journal s.tables := by
  unfold apiLog at h
  unfold journal
  rw [logOf_isIntent, logOf_isIntent, h]

/-- Work of another owner keeps the invariant. -/
theorem Kept.foreign (h : Kept s) (hordered : Ordered t.tables) (hlog : apiLog t = apiLog s)
    (hold : s.receipts <+: t.receipts)
    (hnew : ∀ receipt ∈ t.receipts, receipt ∈ s.receipts ∨ isApiTicket receipt.operation = false) : Kept t := by
  have hintents : logOf isIntent t.tables = logOf isIntent s.tables := by
    rw [logOf_isIntent, logOf_isIntent]
    exact congrArg _ hlog
  have hrows : logOf isApiRow t.tables = logOf isApiRow s.tables := hlog
  constructor
  · exact hordered
  · rw [hintents]
    exact h.written
  · rw [journal_congr hlog]
    exact h.reachable
  · rw [hrows]
    intro r hr
    obtain ⟨receipt, hmem, hticket⟩ := h.receipts r hr
    exact ⟨receipt, hold.subset hmem, hticket⟩
  · rw [hrows]
    exact h.distinct
  · rw [hrows]
    intro receipt hmem hticket
    rcases hnew receipt hmem with hmem | hforeign
    · exact h.journaled receipt hmem hticket
    · rw [hforeign] at hticket
      exact nomatch hticket

/-- No row stands for an operation without a receipt. -/
theorem Kept.fresh (h : Kept s) {id : String} (hfresh : findReceipt s.receipts id = none) :
    ∀ r ∈ apiLog s, ticketOf r ≠ some id := by
  intro r hr hticket
  obtain ⟨receipt, hmem, hreceipt⟩ := h.receipts r hr
  rw [hticket] at hreceipt
  exact findReceipt_none.1 hfresh receipt hmem (Option.some.inj hreceipt).symm

/-- An append under a fresh ticket keeps the invariant. -/
theorem Kept.append (h : Kept s) {row : NewRow} {id : String} {receipt : ReceiptRow}
    (happended : Appended s.tables t.tables [row]) (hreceipts : t.receipts = s.receipts ++ [receipt])
    (hfresh : findReceipt s.receipts id = none) (hid : receipt.operation = id)
    (hmine : isApiRow (row.record (s.tables.lastId + 1)) = true)
    (hjournaled : Journaled receipt (row.record (s.tables.lastId + 1)))
    (hfits : Fits s (row.record (s.tables.lastId + 1))) :
    Kept t ∧ apiLog t = apiLog s ++ [row.record (s.tables.lastId + 1)] := by
  generalize hr : row.record (s.tables.lastId + 1) = r at hmine hjournaled hfits ⊢
  have hnumbered : numbered s.tables.lastId [row] = [r] := by rw [numbered, numbered, hr]
  have hlog : ∀ mine, logOf mine t.tables = logOf mine s.tables ++ [r].filter mine := by
    intro mine
    rw [happended.logOf_eq, hnumbered]
  have hrows : apiLog t = apiLog s ++ [r] := by
    unfold apiLog
    rw [hlog, List.filter_cons_of_pos hmine]
    rfl
  have hrows' : logOf isApiRow t.tables = logOf isApiRow s.tables ++ [r] := hrows
  have hticket : ticketOf r = some id := hid ▸ hjournaled.operation
  refine ⟨?_, hrows⟩
  -- an intent adds to the ledger, a cancel row leaves it
  have hledger : (∀ x ∈ logOf isIntent t.tables, ∃ i, Intent.decode (intentColumns x) = .ok i ∧
      x.entity = i.scope.text) ∧ Reachable (journal t.tables) := by
    by_cases hkind : r.operation = eventText
    · obtain ⟨i, hdecode, hentity, hcommit⟩ := hfits hkind
      have hintents : logOf isIntent t.tables = logOf isIntent s.tables ++ [r] := by
        rw [hlog, List.filter_cons_of_pos (by simpa [isIntent] using hkind)]
        rfl
      have hjournal : journal t.tables = journal s.tables ++ [i] := by
        unfold journal
        rw [hintents, List.filterMap_append, List.filterMap_cons_some (intentOf_eq_some.2 hdecode)]
        rfl
      refine ⟨fun x hx => ?_, ?_⟩
      · rw [hintents, List.mem_append, List.mem_singleton] at hx
        rcases hx with hx | rfl
        · exact h.written x hx
        · exact ⟨i, hdecode, hentity⟩
      · rw [hjournal]
        exact .commit h.reachable hcommit
    · have hintents : logOf isIntent t.tables = logOf isIntent s.tables := by
        rw [hlog, List.filter_cons_of_neg (by simpa [isIntent] using hkind), List.filter_nil, List.append_nil]
      refine ⟨?_, ?_⟩
      · rw [hintents]
        exact h.written
      · unfold journal
        rw [hintents]
        exact h.reachable
  constructor
  · exact happended.ordered h.ordered
  · exact hledger.1
  · exact hledger.2
  · rw [hrows', hreceipts]
    intro x hx
    rcases List.mem_append.1 hx with hx | hx
    · obtain ⟨old, hmem, hold⟩ := h.receipts x hx
      exact ⟨old, List.mem_append_left _ hmem, hold⟩
    · rw [List.mem_singleton.1 hx]
      exact ⟨receipt, List.mem_append_right _ List.mem_cons_self, hjournaled.operation⟩
  · rw [hrows', List.map_append, List.nodup_append]
    refine ⟨h.distinct, List.nodup_singleton _, ?_⟩
    intro a ha b hb hab
    obtain ⟨x, hx, rfl⟩ := List.mem_map.1 ha
    rw [List.map_singleton, List.mem_singleton] at hb
    exact h.fresh hfresh x hx (hab.trans (hb.trans hticket))
  · rw [hrows', hreceipts]
    intro x hx happ
    rcases List.mem_append.1 hx with hx | hx
    · obtain ⟨old, hmem, hold⟩ := h.journaled x hx happ
      exact ⟨old, List.mem_append_left _ hmem, hold⟩
    · rw [List.mem_singleton.1 hx]
      exact ⟨r, List.mem_append_right _ List.mem_cons_self, hjournaled⟩

/-- A foreign operation leaves the rows of the coordinators. -/
theorem settled_foreign {op : StoreOp OutboxTables} (hop : Foreign op) (m : Moment) (h : Kept t) :
    Settled op m t ∧ apiLaw.rel t (op.exec m t).1 := by
  cases op with
  | submit store pending =>
    obtain ⟨own, hid⟩ := hop
    obtain ⟨hordered, hgrows, hreceipts, hlog⟩ := own.submit store m.host h.ordered
    refine ⟨.inl hlog, fun _ => ⟨h.foreign hordered hlog hreceipts ?_, hgrows, hreceipts⟩⟩
    intro receipt hmem
    rcases submit_step store pending m.host t with hsame | ⟨-, -, rows, happly, -⟩
    · have hexec : StoreOp.exec (.submit store pending) m t = Storage.submit store pending m.host t := rfl
      rw [hexec, hsame] at hmem
      exact .inl hmem
    · obtain ⟨u, hrun, hnext⟩ := Application.apply_eq_some.1 happly
      have hkept := (own.frame _ _ _ hrun h.ordered).2.2.2
      have hexec : StoreOp.exec (.submit store pending) m t = Storage.submit store pending m.host t := rfl
      rw [hexec, hnext] at hmem
      have hbegin : (t.begin m.host.clock).receipts = t.receipts := rfl
      rcases List.mem_append.1 hmem with hmem | hmem
      · rw [hkept] at hmem
        exact .inl (hbegin ▸ hmem)
      · rw [List.mem_singleton.1 hmem]
        exact .inr hid
  | draw | reconcile | reconcileOperation | read | wall | poll =>
    exact ⟨settled_of_eq rfl, apiLaw.refl t⟩

/-- Another owner's work, whatever it does between. -/
theorem keeps_foreign {α : Type} {p : Call OutboxTables α} (hp : p.Issues Foreign) (hs : Kept s) :
    Keeps StoreOp.exec apiLaw Drawn Settled (fun _ _ => True) s p :=
  Issues.keeps hp fun _ m _ hst hop _ => settled_foreign hop m (hst hs).1

end Steps

end Verdant.Api
