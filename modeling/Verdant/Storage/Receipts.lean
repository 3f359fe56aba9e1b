import Verdant.Library.Ledger
import Verdant.Storage.Response

/-!
# What one submit can do

`submit_cases` says everything a call of `submit` can do to the database: leave it as it is, with the answer of the
branch taken, or apply the request once and record its receipt.  Later proofs use these cases and never unfold
`submit`.
-/

namespace Verdant.Storage

variable {ρ : Type}

/-! ### Fresh tickets -/

theorem PreparedMutation.new_eq_ok {store : SqliteStore} {id : String} {body : Script ρ} {shape : Shape}
    {pending : PreparedMutation ρ} (h : PreparedMutation.new store id body shape = .ok pending) :
    pending.operation.text = id ∧ pending = ⟨pending.operation, store.identity, body, shape, 0, false⟩ := by
  unfold PreparedMutation.new at h
  split at h
  · exact nomatch h
  · rename_i operation hparse
    cases h
    exact ⟨OperationId.text_of_parse hparse, rfl⟩

theorem PreparedMutation.new_body {store : SqliteStore} {id : String} {body : Script ρ} {shape : Shape}
    {pending : PreparedMutation ρ} (h : PreparedMutation.new store id body shape = .ok pending) :
    pending.body = body := by
  rw [(PreparedMutation.new_eq_ok h).2]

/-! ### Receipt lookup -/

theorem findReceipt_some {receipts : List ReceiptRow} {operation : String} {r : ReceiptRow}
    (h : findReceipt receipts operation = some r) : r ∈ receipts ∧ r.operation = operation := by
  unfold findReceipt at h
  exact ⟨List.mem_of_find?_eq_some h, by simpa using List.find?_some h⟩

theorem findReceipt_none {receipts : List ReceiptRow} {operation : String} :
    findReceipt receipts operation = none ↔ ∀ r ∈ receipts, r.operation ≠ operation := by
  simp [findReceipt]

theorem findReceipt_isSome {receipts : List ReceiptRow} {operation : String} :
    (findReceipt receipts operation).isSome = true ↔ ∃ r ∈ receipts, r.operation = operation := by
  simp [findReceipt]

/-! ### Applications -/

/-- One application of a request: the ticket, the wall readings and the rows its body returned. -/
structure Application (ρ : Type) where
  mutation : PreparedMutation ρ
  clock : Nat → Int64
  rows : Rows

/-- The receipt that records an application. -/
def Application.receipt (a : Application ρ) : ReceiptRow :=
  ⟨a.mutation.operation.text, a.mutation.request, encodeResponse a.rows⟩

/-- Runs the body in one transaction and records the receipt; it fails when the body does not return these rows. -/
def Application.apply (a : Application ρ) (db : Database ρ) : Option (Database ρ) :=
  match a.mutation.body.run (db.begin a.clock) with
  | .ok (s, rows) =>
    if rows = a.rows then some { tables := s.tables, receipts := s.receipts ++ [a.receipt] } else none
  | .error _ => none

theorem Application.apply_eq_some {a : Application ρ} {db next : Database ρ} :
    a.apply db = some next ↔ ∃ s, a.mutation.body.run (db.begin a.clock) = .ok (s, a.rows) ∧
      next = { tables := s.tables, receipts := s.receipts ++ [a.receipt] } := by
  unfold Application.apply
  cases hrun : a.mutation.body.run (db.begin a.clock) with
  | error e => simp
  | ok p =>
    obtain ⟨s, rows⟩ := p
    by_cases hrows : rows = a.rows
    · subst hrows
      simp only [if_true, Option.some.injEq, Except.ok.injEq, Prod.mk.injEq, and_true]
      constructor
      · rintro rfl
        exact ⟨s, rfl, rfl⟩
      · rintro ⟨s', rfl, rfl⟩
        rfl
    · simp [hrows]

/-! ### The staged transaction -/

theorem exchange_eq_ok {fault : Option ChildError} {script : Script ρ} {s t : Session ρ} {rows : Rows} :
    exchange fault script s = .ok (t, rows) ↔ fault = none ∧ script.run s = .ok (t, rows) := by
  unfold exchange
  cases fault with
  | some e => simp
  | none => cases hrun : script.run s <;> simp

/-- A staged transaction is an application of the request whose rows have the request's shape. -/
theorem stage_eq_ok {store : SqliteStore} {pending : PreparedMutation ρ} {host : Host}
    {db staged : Database ρ} {rows : Rows} (h : stage store pending host db = .ok (staged, rows)) :
    (⟨pending, host.clock, rows⟩ : Application ρ).apply db = some staged ∧ validateRows pending.shape rows = .ok () := by
  unfold stage at h
  rw [Result.bind_eq_ok] at h
  obtain ⟨-, -, h⟩ := h
  rw [Result.bind_eq_ok] at h
  obtain ⟨⟨s, rows'⟩, hbody, h⟩ := h
  rw [Result.bind_eq_ok] at h
  obtain ⟨⟨⟩, hvalid, h⟩ := h
  rw [Result.bind_eq_ok] at h
  obtain ⟨⟨t, out⟩, hrecord, h⟩ := h
  simp only [Except.ok.injEq, Prod.mk.injEq] at h
  obtain ⟨rfl, rfl⟩ := h
  obtain ⟨-, hbody⟩ := exchange_eq_ok.1 hbody
  obtain ⟨-, hrecord⟩ := exchange_eq_ok.1 hrecord
  refine ⟨Application.apply_eq_some.2 ⟨s, hbody, ?_⟩, hvalid⟩
  obtain ⟨u, first, more, hinsert, hnil, -⟩ := Script.run_cons_ok.1 hrecord
  cases hnil
  unfold insertReceipt at hinsert
  simp only at hinsert
  split at hinsert
  · exact nomatch hinsert
  · cases hinsert
    rfl

/-- An insert that was staged fits the bound of a value. -/
theorem stage_bounded {store : SqliteStore} {pending : PreparedMutation ρ} {host : Host} {db staged : Database ρ}
    {rows : Rows} (h : stage store pending host db = .ok (staged, rows)) (hshape : pending.shape = .insert) :
    pending.payloadBytes ≤ store.bounds.maxValueBytes := by
  unfold stage at h
  obtain ⟨_, hadmitted, -⟩ := Result.bind_eq_ok.1 h
  unfold insertAdmission at hadmitted
  rw [if_pos hshape, Result.ite_error_eq_ok] at hadmitted
  exact Nat.not_lt.1 hadmitted.1

private def NotConflict (e : StorageError) : Prop := ∀ detail, e ≠ .conflict detail

private theorem toStorageError_notConflict (e : ChildError) : NotConflict e.toStorageError := by
  intro detail
  cases e <;> simp [ChildError.toStorageError]

private theorem failure_notConflict (detail : String) : NotConflict (failure detail) := by
  intro d
  simp [failure]

private theorem invalidRecord_notConflict {e : StorageError} (h : e.IsInvalidRecord) : NotConflict e := by
  obtain ⟨d, rfl⟩ := h
  intro detail
  simp

private theorem exchange_fails (fault : Option ChildError) (script : Script ρ) (s : Session ρ) :
    Result.Fails NotConflict (exchange fault script s) := by
  unfold exchange
  split
  · exact Result.Fails.error (toStorageError_notConflict _)
  · split
    · exact Result.Fails.error (failure_notConflict _)
    · exact Result.Fails.ok

private theorem scalar_fails (rows : Rows) : Result.Fails NotConflict (scalar rows) := by
  unfold scalar
  split
  · exact Result.Fails.ok
  · exact Result.Fails.error (failure_notConflict _)

private theorem validateRows_fails (shape : Shape) (rows : Rows) :
    Result.Fails NotConflict (validateRows shape rows) := by
  cases shape with
  | insert =>
    simp only [validateRows]
    split
    · refine (scalar_fails _).bind fun cell => ?_
      split
      · split
        · exact Result.Fails.ok
        · exact Result.Fails.error (failure_notConflict _)
      · exact Result.Fails.error (failure_notConflict _)
    · exact Result.Fails.error (failure_notConflict _)
  | rows =>
    simp only [validateRows]
    refine Result.Fails.forM fun row => ?_
    refine Result.Fails.bind (fun e he => ?_) fun _ => Result.Fails.ok
    exact invalidRecord_notConflict (decodeRow_fails row e he)
  | change =>
    simp only [validateRows]
    refine (scalar_fails _).bind fun cell => ?_
    split
    · exact Result.Fails.ok
    · exact Result.Fails.error (failure_notConflict _)

private theorem insertAdmission_fails (store : SqliteStore) (pending : PreparedMutation ρ) (host : Host) :
    Result.Fails NotConflict (insertAdmission store pending host) := by
  unfold insertAdmission
  split
  · split
    · exact Result.Fails.error (by simp [NotConflict])
    · split
      · exact Result.Fails.error (by simp [NotConflict])
      · split
        · exact Result.Fails.error (by simp [NotConflict])
        · exact Result.Fails.ok
  · exact Result.Fails.ok

/-- No failure of the staged transaction is reported as a conflict. -/
theorem stage_ne_conflict (store : SqliteStore) (pending : PreparedMutation ρ) (host : Host) (db : Database ρ)
    (detail : String) : stage store pending host db ≠ .error (.conflict detail) := by
  intro h
  have hfails : Result.Fails NotConflict (stage store pending host db) := by
    unfold stage
    refine (insertAdmission_fails store pending host).bind fun _ => ?_
    refine (exchange_fails _ _ _).bind fun out => ?_
    refine (validateRows_fails _ _).bind fun _ => ?_
    exact (exchange_fails _ _ _).bind fun _ => Result.Fails.ok
  exact hfails _ h detail rfl

/-! ### Submit -/

/-- What a call of `submit` did. -/
inductive Submitted (store : SqliteStore) (pending : PreparedMutation ρ) (host : Host) (db : Database ρ) :
    Database ρ → MutationOutcome → Prop where
  | foreign (h : pending.store ≠ store.identity) :
    Submitted store pending host db db (.conflict pending.operation "request belongs to a different store")
  | refused (h : pending.store = store.identity) (e : StorageError) (he : host.admission = some e) :
    Submitted store pending host db db
      (if pending.attempted then .unknown pending.operation e.display else .notCommitted pending.operation e)
  | unread (h : pending.store = store.identity) (ha : host.admission = none) (e : ChildError)
      (he : host.lookup = some e) :
    Submitted store pending host db db (.unknown pending.operation e.toStorageError.display)
  | replayed (h : pending.store = store.identity) (ha : host.admission = none) (hl : host.lookup = none)
      (receipt : ReceiptRow) (hr : findReceipt db.receipts pending.operation.text = some receipt) :
    Submitted store pending host db db (replay pending receipt)
  | rolledBack (h : pending.store = store.identity)
      (hr : findReceipt db.receipts pending.operation.text = none) (e : StorageError)
      (he : stage store pending host db = .error e) :
    Submitted store pending host db db (.notCommitted pending.operation e)
  | applied (h : pending.store = store.identity)
      (hr : findReceipt db.receipts pending.operation.text = none) (staged : Database ρ) (rows : Rows)
      (hs : stage store pending host db = .ok (staged, rows)) (hc : host.commit = .reply) :
    Submitted store pending host db staged (outcome pending.shape pending.operation rows)
  | unseen (h : pending.store = store.identity)
      (hr : findReceipt db.receipts pending.operation.text = none) (staged : Database ρ) (rows : Rows)
      (hs : stage store pending host db = .ok (staged, rows)) (applied : Bool) (e : ChildError)
      (hc : host.commit = .lost applied e) :
    Submitted store pending host db (if applied then staged else db)
      (.unknown pending.operation e.toStorageError.display)

theorem submit_cases (store : SqliteStore) (pending : PreparedMutation ρ) (host : Host) (db : Database ρ) :
    Submitted store pending host db (submit store pending host db).1 (submit store pending host db).2 := by
  unfold submit
  by_cases hstore : pending.store = store.identity
  swap
  · rw [if_pos hstore]
    exact .foreign hstore
  rw [if_neg (not_not.2 hstore)]
  cases hadmission : host.admission with
  | some e => exact .refused hstore e hadmission
  | none =>
    cases hlookup : host.lookup with
    | some e =>
      simp only [lookupReceipt]
      exact .unread hstore hadmission e hlookup
    | none =>
      cases hreceipt : findReceipt db.receipts pending.operation.text with
      | some receipt =>
        simp only [lookupReceipt, hreceipt]
        exact .replayed hstore hadmission hlookup receipt hreceipt
      | none =>
        simp only [lookupReceipt, hreceipt]
        cases hstage : stage store pending host db with
        | error e =>
          cases e with
          | conflict detail => exact absurd hstage (stage_ne_conflict store pending host db detail)
          | _ => exact .rolledBack hstore hreceipt _ hstage
        | ok p =>
          obtain ⟨staged, rows⟩ := p
          simp only [settle]
          cases hcommit : host.commit with
          | reply => exact .applied hstore hreceipt staged rows hstage hcommit
          | lost applied e => exact .unseen hstore hreceipt staged rows hstage applied e hcommit

/-- A call of `submit` leaves the database or applies the request once, when no receipt was there. -/
theorem submit_step (store : SqliteStore) (pending : PreparedMutation ρ) (host : Host) (db : Database ρ) :
    (submit store pending host db).1 = db ∨
      (pending.store = store.identity ∧ findReceipt db.receipts pending.operation.text = none ∧
        ∃ rows, (⟨pending, host.clock, rows⟩ : Application ρ).apply db = some (submit store pending host db).1 ∧
          validateRows pending.shape rows = .ok ()) := by
  have h := submit_cases store pending host db
  generalize (submit store pending host db).1 = next at h
  generalize (submit store pending host db).2 = out at h
  cases h with
  | foreign | refused | unread | replayed | rolledBack => exact .inl rfl
  | applied h hr _ rows hs hc => exact .inr ⟨h, hr, rows, stage_eq_ok hs⟩
  | unseen h hr staged rows hs applied e hc =>
    cases applied with
    | false => exact .inl rfl
    | true => exact .inr ⟨h, hr, rows, stage_eq_ok hs⟩

/-- The answer of a ticket that did not commit. -/
def MutationOutcome.Refused : MutationOutcome → Prop
  | .notCommitted _ _ => True
  | .conflict _ _ => True
  | _ => False

theorem submit_refused {store : SqliteStore} {pending : PreparedMutation ρ} {host : Host} {db : Database ρ}
    (hshape : pending.shape ≠ .change) (h : (submit store pending host db).2.Refused) :
    (submit store pending host db).1 = db := by
  have hcases := submit_cases store pending host db
  generalize (submit store pending host db).1 = next at hcases ⊢
  generalize (submit store pending host db).2 = out at hcases h
  cases hcases with
  | foreign | refused | unread | replayed | rolledBack => rfl
  | applied => simp [outcome, hshape, MutationOutcome.Refused] at h
  | unseen => exact h.elim

/-- The receipt of a committed answer is there, and it is the receipt of this request. -/
theorem submit_committed {store : SqliteStore} {pending : PreparedMutation ρ} {host : Host} {db : Database ρ}
    {operation : OperationId} {rows : Rows} (h : (submit store pending host db).2 = .committed operation rows) :
    ∃ receipt ∈ (submit store pending host db).1.receipts,
      receipt.operation = pending.operation.text ∧ receipt.request = pending.request := by
  have hcases := submit_cases store pending host db
  generalize (submit store pending host db).1 = next at hcases ⊢
  generalize (submit store pending host db).2 = out at hcases h
  cases hcases with
  | foreign | unread | rolledBack | unseen => exact nomatch h
  | refused => split at h <;> exact nomatch h
  | replayed _ _ _ receipt hr =>
    obtain ⟨hmem, hoperation⟩ := findReceipt_some hr
    refine ⟨receipt, hmem, hoperation, ?_⟩
    unfold replay at h
    by_contra hrequest
    rw [if_pos hrequest] at h
    exact nomatch h
  | applied _ _ staged rows' hs =>
    obtain ⟨happly, -⟩ := stage_eq_ok hs
    obtain ⟨s, -, rfl⟩ := Application.apply_eq_some.1 happly
    exact ⟨_, List.mem_append_right _ (List.mem_singleton_self _), rfl, rfl⟩

/-- A reconciliation that found nothing met no receipt. -/
theorem reconcile_notCommitted {store : SqliteStore} {pending : PreparedMutation ρ} {host : Host} {db : Database ρ}
    (hshape : pending.shape ≠ .change) {operation : OperationId} {e : StorageError}
    (h : reconcile store pending host db = .notCommitted operation e) :
    findReceipt db.receipts pending.operation.text = none := by
  unfold reconcile barrierLookup lookupReceipt at h
  cases hreceipt : findReceipt db.receipts pending.operation.text with
  | none => rfl
  | some receipt =>
    cases hadmission : host.admission with
    | some e => simp [hadmission] at h
    | none =>
      cases hlookup : host.lookup with
      | some e => simp [hadmission, hlookup] at h
      | none =>
        -- a receipt that is there commits, conflicts or stays unknown
        simp only [hadmission, hlookup, hreceipt] at h
        split at h
        · cases hresponse : decodeResponse receipt.response with
          | error e => simp [hresponse] at h
          | ok rows =>
            simp only [hresponse] at h
            cases hrows : validateRows pending.shape rows with
            | error e => simp [hrows] at h
                  | ok _ => simp [hrows, outcome, hshape] at h
        · exact nomatch h

/-! ### Submit of a request without a receipt -/

/-- What a call of `submit` does to a request whose operation has no receipt. -/
inductive FreshSubmit (pending : PreparedMutation ρ) (host : Host) (db : Database ρ) :
    Database ρ → MutationOutcome → Prop where
  | untouched (out : MutationOutcome) (e : StorageError) (h : out.intoResult = .error e) :
    FreshSubmit pending host db db out
  | applied (s : Session ρ) (rows : Rows) (hrun : pending.body.run (db.begin host.clock) = .ok (s, rows))
      (hshape : validateRows pending.shape rows = .ok ()) (out : MutationOutcome)
      (hout : out = outcome pending.shape pending.operation rows ∨ ∃ detail, out = .unknown pending.operation detail) :
    FreshSubmit pending host db
      ⟨s.tables, s.receipts ++ [⟨pending.operation.text, pending.request, encodeResponse rows⟩]⟩ out

theorem submit_fresh {store : SqliteStore} {pending : PreparedMutation ρ} (host : Host) {db : Database ρ}
    (hstore : pending.store = store.identity)
    (hnone : findReceipt db.receipts pending.operation.text = none) :
    FreshSubmit pending host db (submit store pending host db).1 (submit store pending host db).2 := by
  have h := submit_cases store pending host db
  generalize (submit store pending host db).1 = next at h ⊢
  generalize (submit store pending host db).2 = out at h ⊢
  have happlied {staged : Database ρ} {rows : Rows} (hs : stage store pending host db = .ok (staged, rows)) :
      ∃ s, pending.body.run (db.begin host.clock) = .ok (s, rows) ∧ validateRows pending.shape rows = .ok () ∧
        staged = ⟨s.tables, s.receipts ++ [⟨pending.operation.text, pending.request, encodeResponse rows⟩]⟩ := by
    obtain ⟨happly, hshape⟩ := stage_eq_ok hs
    obtain ⟨s, hrun, hstaged⟩ := Application.apply_eq_some.1 happly
    exact ⟨s, hrun, hshape, hstaged⟩
  cases h with
  | foreign h => exact absurd hstore h
  | refused _ e he =>
    split
    · exact .untouched _ _ rfl
    · exact .untouched _ e rfl
  | unread => exact .untouched _ _ rfl
  | replayed _ _ _ receipt hr => rw [hnone] at hr; exact nomatch hr
  | rolledBack _ _ e he => exact .untouched _ e rfl
  | applied _ _ _ rows hs hc =>
    obtain ⟨s, hrun, hshape, rfl⟩ := happlied hs
    exact .applied s rows hrun hshape _ (.inl rfl)
  | unseen _ _ staged rows hs applied e hc =>
    cases applied with
    | false => exact .untouched _ _ rfl
    | true =>
      obtain ⟨s, hrun, hshape, rfl⟩ := happlied hs
      exact .applied s rows hrun hshape _ (.inr ⟨_, rfl⟩)

/-- The error an unknown outcome is reported as. -/
def StorageError.IsUnknownOutcome (e : StorageError) : Prop :=
  ∃ operation detail, (MutationOutcome.unknown operation detail).intoResult = .error e

end Verdant.Storage
