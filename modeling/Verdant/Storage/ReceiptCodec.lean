import Verdant.Storage.Receipts

/-!
# Receipt texts read back

A receipt keeps two texts: the request, framed by colons around the store identity, and the response, framed by commas
and semicolons around hexadecimal cells.  The request of a ticket determines its shape, its store and its body, since
neither a shape's name nor an admitted identity has a colon; the response determines the rows.  So
`reconcileOperation`, which has the operation identity only, answers with the shape and the rows that were written.
-/

namespace Verdant.Storage

open TextCodec

variable {ρ : Type}

/-! ### Store identities -/

def isAsciiHexdigit (c : Char) : Bool := (hexDigitValue c).isSome

/-- The check of the stored identity when a store is opened. -/
def validateIdentity (identity : String) : Except StorageError String :=
  if identity.utf8ByteSize ≠ 64 ∨ identity.toList.all isAsciiHexdigit = false then
    .error (failure "invalid store identity")
  else .ok identity

theorem colon_not_mem_identity {raw identity : String} (h : validateIdentity raw = .ok identity) :
    ':' ∉ identity.toList := by
  unfold validateIdentity at h
  rw [Result.ite_error_eq_ok] at h
  obtain ⟨hvalid, h⟩ := h
  cases h
  intro hmem
  have hall : raw.toList.all isAsciiHexdigit = true := by
    by_contra hall
    exact hvalid (.inr (by simpa using hall))
  have hcolon := List.all_eq_true.1 hall ':' hmem
  exact absurd hcolon (by decide)

/-! ### Tickets -/

/-- The tickets the program holds: made on a store whose identity was admitted, given a payload size, rebuilt under a
persisted operation identity, or dispatched. -/
inductive Ticket : PreparedMutation ρ → Prop where
  | new {store : SqliteStore} {id : String} {body : Script ρ} {shape : Shape} {pending : PreparedMutation ρ}
      (admitted : validateIdentity store.identity = .ok store.identity)
      (made : PreparedMutation.new store id body shape = .ok pending) : Ticket pending
  | sized {pending : PreparedMutation ρ} (payloadBytes : Nat) (ticket : Ticket pending) :
      Ticket { pending with payloadBytes := payloadBytes }
  | withOperation {pending : PreparedMutation ρ} (operation : OperationId) (ticket : Ticket pending) :
      Ticket (pending.withOperation operation)
  | dispatched {pending : PreparedMutation ρ} (ticket : Ticket pending) : Ticket pending.dispatched

theorem Ticket.colon_not_mem_store {pending : PreparedMutation ρ} (h : Ticket pending) :
    ':' ∉ pending.store.toList := by
  induction h with
  | new admitted made =>
    rw [(PreparedMutation.new_eq_ok made).2]
    exact colon_not_mem_identity admitted
  | sized _ _ ih => exact ih
  | withOperation _ _ ih => exact ih
  | dispatched _ ih => exact ih

/-! ### The request text -/

theorem colon_not_mem_debug (shape : Shape) : ':' ∉ shape.debug.toList := by
  cases shape <;> decide

theorem Shape.debug_injective : Function.Injective Shape.debug := by
  intro a b h
  cases a <;> cases b <;> first | rfl | exact absurd h (by decide)

@[simp]
theorem Shape.parse_debug (shape : Shape) : Shape.parse shape.debug = .ok shape := by
  cases shape <;> rfl

/-- What `reconcileOperation` reads of a request text: the shape and the store before the second colon. -/
private theorem splitOnce_request {pending : PreparedMutation ρ} (h : ':' ∉ pending.store.toList) :
    ∃ rest, splitOnce ':' (pending.shape.debug ++ ":" ++ pending.store ++ ":" ++ pending.body.text) =
        some (pending.shape.debug, rest) ∧
      splitOnce ':' rest = some (pending.store, pending.body.text) := by
  refine ⟨pending.store ++ ":" ++ pending.body.text, ?_, splitOnce_append h⟩
  have hsplit : splitOnce ':' (pending.shape.debug ++ ":" ++ (pending.store ++ ":" ++ pending.body.text)) =
      some (pending.shape.debug, pending.store ++ ":" ++ pending.body.text) :=
    splitOnce_append (colon_not_mem_debug pending.shape)
  rw [← hsplit]
  simp only [String.append_assoc]

/-- The stored request text determines the shape, the store and the body. -/
theorem Ticket.request_inj {a b : PreparedMutation ρ} (ha : Ticket a) (hb : Ticket b) (h : a.request = b.request) :
    a.shape = b.shape ∧ a.store = b.store ∧ a.body.text = b.body.text := by
  have htexts := hexText_injective h
  obtain ⟨rest, hshape, hstore⟩ := splitOnce_request ha.colon_not_mem_store
  obtain ⟨rest', hshape', hstore'⟩ := splitOnce_request hb.colon_not_mem_store
  rw [htexts, hshape', Option.some.injEq, Prod.mk.injEq] at hshape
  obtain ⟨hdebug, rfl⟩ := hshape
  rw [hstore', Option.some.injEq, Prod.mk.injEq] at hstore
  exact ⟨(Shape.debug_injective hdebug).symm, hstore.1.symm, hstore.2.symm⟩

/-! ### Receipts -/

/-- A receipt of this request reads back as the request's shape with the rows of its response. -/
theorem decodeReceipt_of_request {store : SqliteStore} {pending : PreparedMutation ρ} {receipt : ReceiptRow}
    {rows : Rows} (hticket : Ticket pending) (hstore : pending.store = store.identity)
    (hrequest : receipt.request = pending.request) (hrows : decodeResponse receipt.response = .ok rows)
    (hvalid : validateRows pending.shape rows = .ok ()) :
    decodeReceipt store receipt = .ok (pending.shape, rows) := by
  obtain ⟨rest, hshape, hsplit⟩ := splitOnce_request hticket.colon_not_mem_store
  unfold decodeReceipt
  rw [hrequest, PreparedMutation.request, unhex_hexText, Result.ok_bind, hshape]
  simp only [hsplit]
  rw [if_neg (not_not.2 hstore), Shape.parse_debug, Result.ok_bind, hrows, Result.ok_bind, hvalid, Result.ok_bind]

/-- The receipt of a staged transaction is found under its operation. -/
theorem findReceipt_staged {store : SqliteStore} {pending : PreparedMutation ρ} {host : Host} {db staged : Database ρ}
    {rows : Rows} (h : stage store pending host db = .ok (staged, rows)) :
    findReceipt staged.receipts pending.operation.text =
      some ⟨pending.operation.text, pending.request, encodeResponse rows⟩ := by
  unfold stage at h
  obtain ⟨-, -, h⟩ := Result.bind_eq_ok.1 h
  obtain ⟨⟨s, rows'⟩, -, h⟩ := Result.bind_eq_ok.1 h
  obtain ⟨⟨⟩, -, h⟩ := Result.bind_eq_ok.1 h
  obtain ⟨⟨t, out⟩, hrecord, h⟩ := Result.bind_eq_ok.1 h
  simp only [Except.ok.injEq, Prod.mk.injEq] at h
  obtain ⟨rfl, rfl⟩ := h
  obtain ⟨u, first, more, hinsert, hnil, -⟩ := Script.run_cons_ok.1 (exchange_eq_ok.1 hrecord).2
  cases hnil
  unfold insertReceipt at hinsert
  simp only at hinsert
  split at hinsert
  · exact nomatch hinsert
  · rename_i hfresh
    cases hinsert
    have hnone : findReceipt s.receipts pending.operation.text = none := by simpa using hfresh
    unfold findReceipt at hnone ⊢
    simp [hnone]

/-- The receipt of a staged transaction decodes to the shape and the rows of the transaction. -/
theorem decodeReceipt_staged {store : SqliteStore} {pending : PreparedMutation ρ} {host : Host} {db staged : Database ρ}
    {rows : Rows} (hticket : Ticket pending) (hstore : pending.store = store.identity)
    (h : stage store pending host db = .ok (staged, rows)) :
    decodeReceipt store ⟨pending.operation.text, pending.request, encodeResponse rows⟩ =
      .ok (pending.shape, rows) := by
  have hvalid := (stage_eq_ok h).2
  have hresponse := decodeResponse_encodeResponse (framed_of_validateRows hvalid)
  apply decodeReceipt_of_request hticket hstore
  · rfl
  · exact hresponse
  · exact hvalid

/-- A lookup that reaches the receipt of a request answers with the outcome of its shape and rows. -/
theorem reconcileOperation_of_request {store : SqliteStore} {pending : PreparedMutation ρ} {receipt : ReceiptRow}
    {rows : Rows} {host : Host} {db : Database ρ} (hdecode : decodeReceipt store receipt = .ok (pending.shape, rows))
    (hadmission : host.admission = none) (hlookup : host.lookup = none)
    (hfound : findReceipt db.receipts pending.operation.text = some receipt) :
    reconcileOperation store pending.operation host db = outcome pending.shape pending.operation rows := by
  unfold reconcileOperation barrierLookup lookupReceipt
  simp only [hadmission, hlookup, hfound, hdecode]

/-! ### The codec -/

/-- What the two texts of a receipt keep of a mutation. -/
structure ReceiptCodec (ρ : Type) : Prop where
  response : ∀ shape rows, validateRows shape rows = .ok () → decodeResponse (encodeResponse rows) = .ok rows
  request : ∀ a b : PreparedMutation ρ, Ticket a → Ticket b → a.request = b.request →
    a.shape = b.shape ∧ a.store = b.store ∧ a.body.text = b.body.text
  /-- The receipt a transaction writes decodes to the shape and the rows it was written with. -/
  written : ∀ (store : SqliteStore) (pending : PreparedMutation ρ) (host : Host) (db staged : Database ρ) (rows : Rows),
    Ticket pending → pending.store = store.identity → stage store pending host db = .ok (staged, rows) →
    ∃ receipt, findReceipt staged.receipts pending.operation.text = some receipt ∧
      decodeReceipt store receipt = .ok (pending.shape, rows) ∧
      ∀ (later : Database ρ) (barrier : Host),
        findReceipt later.receipts pending.operation.text = some receipt →
        barrier.admission = none → barrier.lookup = none →
        reconcileOperation store pending.operation barrier later = outcome pending.shape pending.operation rows
  /-- A committed answer, of a first dispatch or of a replay, is the answer a later lookup gives. -/
  recovered : ∀ (store : SqliteStore) (pending : PreparedMutation ρ) (host : Host) (db : Database ρ)
    (operation : OperationId) (rows : Rows),
    Ticket pending → (submit store pending host db).2 = .committed operation rows →
    ∃ receipt, findReceipt (submit store pending host db).1.receipts pending.operation.text = some receipt ∧
      decodeReceipt store receipt = .ok (pending.shape, rows) ∧
      ∀ (later : Database ρ) (barrier : Host),
        findReceipt later.receipts pending.operation.text = some receipt →
        barrier.admission = none → barrier.lookup = none →
        reconcileOperation store pending.operation barrier later = .committed operation rows

private theorem outcome_committed {shape : Shape} {operation operation' : OperationId} {rows rows' : Rows}
    (h : outcome shape operation rows = .committed operation' rows') : rows = rows' := by
  unfold outcome at h
  split at h
  · exact nomatch h
  · exact (MutationOutcome.committed.inj h).2

private theorem replay_committed {pending : PreparedMutation ρ} {receipt : ReceiptRow} {operation : OperationId}
    {rows : Rows} (h : replay pending receipt = .committed operation rows) :
    receipt.request = pending.request ∧ decodeResponse receipt.response = .ok rows ∧
      validateRows pending.shape rows = .ok () ∧
      outcome pending.shape pending.operation rows = .committed operation rows := by
  unfold replay at h
  split at h
  · exact nomatch h
  · rename_i hrequest
    split at h
    · exact nomatch h
    · rename_i found hdecode
      split at h
      · exact nomatch h
      · rename_i hvalid
        have hrows := outcome_committed h
        subst hrows
        exact ⟨not_not.1 hrequest, hdecode, hvalid, h⟩

theorem receipt_codec (ρ : Type) : ReceiptCodec ρ where
  response _ _ h := decodeResponse_encodeResponse (framed_of_validateRows h)
  request _ _ ha hb h := ha.request_inj hb h
  written store pending host db staged rows hticket hstore hstage := by
    have hdecode := decodeReceipt_staged hticket hstore hstage
    refine ⟨_, findReceipt_staged hstage, hdecode, fun later barrier hfound hadmission hlookup => ?_⟩
    exact reconcileOperation_of_request hdecode hadmission hlookup hfound
  recovered store pending host db operation rows hticket h := by
    have hcases := submit_cases store pending host db
    generalize (submit store pending host db).1 = next at hcases ⊢
    generalize (submit store pending host db).2 = out at hcases h
    subst h
    generalize hout : MutationOutcome.committed operation rows = out at hcases
    cases hcases with
    | foreign | unread | rolledBack | unseen => exact nomatch hout
    | refused => split at hout <;> exact nomatch hout
    | replayed hstore _ _ receipt hfound =>
      obtain ⟨hrequest, hresponse, hvalid, hanswer⟩ := replay_committed hout.symm
      have hdecode := decodeReceipt_of_request hticket hstore hrequest hresponse hvalid
      refine ⟨receipt, hfound, hdecode, fun later barrier hlater hadmission hlookup => ?_⟩
      rw [reconcileOperation_of_request hdecode hadmission hlookup hlater, hanswer, hout]
    | applied hstore _ _ rows' hstage _ =>
      have hrows := outcome_committed hout.symm
      subst hrows
      have hdecode := decodeReceipt_staged hticket hstore hstage
      refine ⟨_, findReceipt_staged hstage, hdecode, fun later barrier hlater hadmission hlookup => ?_⟩
      rw [reconcileOperation_of_request hdecode hadmission hlookup hlater]

end Verdant.Storage
