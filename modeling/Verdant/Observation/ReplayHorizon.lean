import Verdant.Library.Interference
import Verdant.Observation.WriterSteps

/-!
# The replay horizon

Receipts of tickets are pruned `replayRows` revisions after their own, so their absence proves nothing unless the
durable revision says that they would still be there.  The law of the receipts (`writerLaw`): the revision never goes
back, a receipt of a ticket stays until its horizon has passed and is gone from then on.  Under it, whatever is done
between the two operations of a call, a call about a ticket whose revision was taken answers with the receipt that took
it, or that it does not know.
-/

namespace Verdant.Observation

open Storage TextCodec Prog

/-! ### The law -/

/-- The durable state has a revision, and no receipt is left behind its horizon. -/
structure Stated (db : Database WindowTables) : Prop where
  revised : ∀ raw, stateText db.receipts = some raw → ∃ n, revisionOf raw = .ok n
  pruned : ∀ r, 0 < r → r + replayRows ≤ revision db → findReceipt db.receipts (ticketKey r) = none

/-- The revision does not go back and receipts stay until their horizon. -/
structure Later (db next : Database WindowTables) : Prop where
  revision_le : revision db ≤ revision next
  retained : ∀ r receipt, 0 < r → findReceipt db.receipts (ticketKey r) = some receipt →
    findReceipt next.receipts (ticketKey r) = some receipt ∨ r + replayRows ≤ revision next

theorem Later.refl (db : Database WindowTables) : Later db db := ⟨le_refl _, fun _ _ _ h => .inl h⟩

theorem Later.trans {a b c : Database WindowTables} (hab : Later a b) (hbc : Later b c) : Later a c := by
  refine ⟨le_trans hab.revision_le hbc.revision_le, fun r receipt hpos h => ?_⟩
  rcases hab.retained r receipt hpos h with hkept | hpassed
  · exact hbc.retained r receipt hpos hkept
  · exact .inr (le_trans hpassed hbc.revision_le)

def writerLaw : Law (Database WindowTables) := .keeping Stated Later Later.refl Later.trans

theorem writerLaw_of_eq {db next : Database WindowTables} (h : next = db) : writerLaw.rel db next := by
  rw [h]
  exact writerLaw.refl db

/-- An applied ticket is inside the law. -/
theorem Applied.law {old new : Image} {ticket : Ticket} {db next : Database WindowTables}
    (h : Applied old new ticket db next) : writerLaw.rel db next := by
  intro hdb
  have hbefore := h.revision_before
  have hafter := h.revision_after
  refine ⟨⟨fun raw hraw => ?_, fun r hpos hpassed => ?_⟩, ⟨by omega, fun r receipt hpos hr => ?_⟩⟩
  · obtain ⟨p, state, u, v, hplanned, -⟩ := h.ran
    rw [h.stateText_after, hplanned.state_eq] at hraw
    cases hraw
    exact ⟨_, hplanned.revision_eq⟩
  · rw [hafter] at hpassed
    have hother : r ≠ ticket.revision := by
      simp only [replayRows] at hpassed
      omega
    rw [h.findReceipt hpos, if_neg hother, if_pos hpassed]
  · rw [h.findReceipt hpos, hafter]
    by_cases hown : r = ticket.revision
    · rw [hown, h.fresh] at hr
      cases hr
    · by_cases hpassed : r + replayRows ≤ ticket.revision
      · exact .inr hpassed
      · exact .inl (by rw [if_neg hown, if_neg hpassed, hr])

/-! ### Other owners -/

/-- A mutation of another owner: it leaves the window's tables and has none of the window's keys. -/
structure Foreign (pending : PreparedMutation WindowTables) : Prop where
  frame : ∀ s t rows, pending.body.run s = .ok (t, rows) → t.tables = s.tables ∧ t.receipts = s.receipts
  not_state : pending.operation.text ≠ stateOperation
  not_ticket : ∀ r, pending.operation.text ≠ ticketKey r

/-- A submit leaves the database, or leaves the owners' tables and adds one receipt under its own key. -/
theorem submit_frame {pending : PreparedMutation WindowTables}
    (hframe : ∀ s t rows, pending.body.run s = .ok (t, rows) → t.tables = s.tables ∧ t.receipts = s.receipts)
    (store : SqliteStore) (host : Host) (db : Database WindowTables) :
    (Storage.submit store pending host db).1 = db ∨
      (findReceipt db.receipts pending.operation.text = none ∧ ∃ response,
        (Storage.submit store pending host db).1 =
          ⟨db.tables, db.receipts ++ [⟨pending.operation.text, pending.request, response⟩]⟩) := by
  rcases submit_step store pending host db with hsame | ⟨-, hnone, rows, happly, -⟩
  · exact .inl hsame
  · obtain ⟨s, hrun, hnext⟩ := Application.apply_eq_some.1 happly
    obtain ⟨htables, hreceipts⟩ := hframe _ _ _ hrun
    refine .inr ⟨hnone, encodeResponse rows, ?_⟩
    rw [hnext, htables, hreceipts]
    rfl

theorem hexText_ne {s t : String} {c : Char} (hc : ∀ n < 16, hexDigit n ≠ c) (ht : c ∈ t.toList) : hexText s ≠ t := by
  rintro rfl
  exact not_mem_hexText hc ht

/-- No request of a mutation reads as the request of the state row. -/
theorem request_ne_stateRequest (pending : PreparedMutation WindowTables) : pending.request ≠ stateRequest :=
  hexText_ne (c := 'o') (by decide) (by decide)

theorem Foreign.law {pending : PreparedMutation WindowTables} (h : Foreign pending) (store : SqliteStore) (host : Host)
    (db : Database WindowTables) :
    writerLaw.rel db (Storage.submit store pending host db).1 ∧
      ∀ r, findReceipt (Storage.submit store pending host db).1.receipts (ticketKey r) =
        findReceipt db.receipts (ticketKey r) := by
  rcases submit_frame h.frame store host db with hsame | ⟨-, response, hnext⟩
  · rw [hsame]
    exact ⟨writerLaw.refl db, fun r => rfl⟩
  have hstate : stateText (Storage.submit store pending host db).1.receipts = stateText db.receipts := by
    rw [hnext]
    exact stateText_append fun _ => request_ne_stateRequest pending
  have hfind : ∀ r, findReceipt (Storage.submit store pending host db).1.receipts (ticketKey r) =
      findReceipt db.receipts (ticketKey r) := by
    intro r
    rw [hnext, findReceipt_append, if_neg (h.not_ticket r), Option.or_none]
  have hrevision : revision (Storage.submit store pending host db).1 = revision db := by
    unfold revision
    rw [hstate]
  refine ⟨fun hdb => ⟨⟨fun raw hraw => hdb.revised raw (hstate ▸ hraw), fun r hpos hpassed => ?_⟩,
    ⟨le_of_eq hrevision.symm, fun r receipt _ hr => .inl ?_⟩⟩, hfind⟩
  · rw [hfind]
    exact hdb.pruned r hpos (hrevision ▸ hpassed)
  · rw [hfind]
    exact hr

/-! ### What one operation answers -/

/-- The host answers for the receipts: it admits the call and its lookup succeeds. -/
def Answers (host : Host) : Prop := host.admission = none ∧ host.lookup = none

/-- The answer to a ticket whose revision was taken under `receipt`. -/
def Settles (ticket : Ticket) (receipt : ReceiptRow) (out : MutationOutcome) : Prop :=
  if receipt.request = ticket.mutation.request then out = .committed ticket.mutation.operation [["1"], ["1"]]
  else ∃ detail, out = .conflict ticket.mutation.operation detail

/-- The receipt of an applied ticket of this revision. -/
def Takes (revision : Nat) (receipt : ReceiptRow) : Prop :=
  ∃ request, receipt = ⟨ticketKey revision, request, encodeResponse [["1"], ["1"]]⟩

theorem Takes.rows {revision : Nat} {receipt : ReceiptRow} (h : Takes revision receipt) :
    decodeResponse receipt.response = .ok [["1"], ["1"]] ∧ validateRows .insert [["1"], ["1"]] = .ok () := by
  obtain ⟨request, rfl⟩ := h
  have hvalid : validateRows .insert [["1"], ["1"]] = .ok () :=
    validateRows_insert.2 ⟨"1", 1, rfl, by decide, by decide⟩
  exact ⟨decodeResponse_encodeResponse (framed_of_validateRows hvalid), hvalid⟩

section Reply

variable {identity : String} {old new : Image} {ticket : Ticket} {store : SqliteStore} {host : Host}
variable {db : Database WindowTables}

/-- The mutation asks for exactly what the ticket asks for. -/
structure Asks (pending : PreparedMutation WindowTables) (ticket : Ticket) : Prop where
  operation : pending.operation = ticket.mutation.operation
  request : pending.request = ticket.mutation.request
  shape : pending.shape = .insert
  store : pending.store = ticket.mutation.store

theorem Prepared.asks (h : Prepared identity old new ticket) : Asks ticket.mutation ticket :=
  ⟨rfl, rfl, h.shape, rfl⟩

theorem submit_taken (hprepared : Prepared identity old new ticket) (hstore : store.identity = identity)
    {receipt : ReceiptRow} (htakes : Takes ticket.revision receipt)
    (hfind : findReceipt db.receipts (ticketKey ticket.revision) = some receipt) :
    (Settles ticket receipt (Storage.submit store ticket.mutation host db).2 ∨
      ¬ Answers host ∧ ∃ detail, (Storage.submit store ticket.mutation host db).2 =
        .unknown ticket.mutation.operation detail) := by
  rw [← hprepared.operation] at hfind
  have hcases := submit_cases store ticket.mutation host db
  generalize (Storage.submit store ticket.mutation host db).1 = next at hcases
  generalize (Storage.submit store ticket.mutation host db).2 = out at hcases ⊢
  cases hcases with
  | foreign h => exact absurd (hprepared.store.trans hstore.symm) h
  | refused _ e he =>
    refine .inr ⟨fun h => ?_, e.display, by rw [if_pos hprepared.attempted]⟩
    rw [h.1] at he
    exact nomatch he
  | unread _ _ e he =>
    refine .inr ⟨fun h => ?_, _, rfl⟩
    rw [h.2] at he
    exact nomatch he
  | replayed _ _ _ found hr =>
    rw [hfind] at hr
    obtain rfl := Option.some.inj hr
    refine .inl ?_
    unfold Settles replay
    by_cases hrequest : receipt.request = ticket.mutation.request
    · rw [if_pos hrequest, if_neg (not_not.2 hrequest), htakes.rows.1, hprepared.shape]
      simp only [htakes.rows.2]
      rfl
    · rw [if_neg hrequest, if_pos hrequest]
      exact ⟨_, rfl⟩
  | rolledBack _ hr | applied _ hr | unseen _ hr => rw [hfind] at hr; exact nomatch hr

theorem reconcile_taken {pending : PreparedMutation WindowTables} (hasks : Asks pending ticket)
    (hprepared : Prepared identity old new ticket) (hstore : store.identity = identity)
    {receipt : ReceiptRow} (htakes : Takes ticket.revision receipt)
    (hfind : findReceipt db.receipts (ticketKey ticket.revision) = some receipt) :
    (Settles ticket receipt (Storage.reconcile store pending host db) ∨
      ¬ Answers host ∧ ∃ detail, Storage.reconcile store pending host db =
        .unknown ticket.mutation.operation detail) := by
  rw [← hprepared.operation, ← hasks.operation] at hfind
  have hown : pending.store = store.identity := by rw [hasks.store, hprepared.store, hstore]
  unfold Storage.reconcile barrierLookup
  rw [hasks.operation] at hfind ⊢
  cases hadmission : host.admission with
  | some e =>
    refine .inr ⟨fun h => ?_, e.display, rfl⟩
    rw [h.1] at hadmission
    exact nomatch hadmission
  | none =>
    cases hlookup : host.lookup with
    | some e =>
      refine .inr ⟨fun h => ?_, e.toStorageError.display, rfl⟩
      rw [h.2] at hlookup
      exact nomatch hlookup
    | none =>
      refine .inl ?_
      simp only [lookupReceipt, hfind, hasks.request, hasks.shape, hown, and_true]
      unfold Settles
      by_cases hrequest : receipt.request = ticket.mutation.request
      · rw [if_pos hrequest, if_pos hrequest, htakes.rows.1]
        simp only [htakes.rows.2]
        rfl
      · rw [if_neg hrequest, if_neg hrequest]
        exact ⟨_, rfl⟩

/-- The answers that leave a ticket without a receipt open. -/
def Open (ticket : Ticket) (out : MutationOutcome) : Prop :=
  (∃ detail, out = .unknown ticket.mutation.operation detail) ∨
    ∃ error, out = .notCommitted ticket.mutation.operation error

theorem submit_absent (hprepared : Prepared identity old new ticket) (hstore : store.identity = identity)
    (hfind : findReceipt db.receipts (ticketKey ticket.revision) = none) (hpast : ticket.revision ≤ revision db) :
    Open ticket (Storage.submit store ticket.mutation host db).2 := by
  rw [← hprepared.operation] at hfind
  have hcases := submit_cases store ticket.mutation host db
  generalize (Storage.submit store ticket.mutation host db).1 = next at hcases
  generalize (Storage.submit store ticket.mutation host db).2 = out at hcases ⊢
  cases hcases with
  | foreign h => exact absurd (hprepared.store.trans hstore.symm) h
  | refused _ e he => exact .inl ⟨e.display, by rw [if_pos hprepared.attempted]⟩
  | unread _ _ e he => exact .inl ⟨_, rfl⟩
  | replayed _ _ _ found hr => rw [hfind] at hr; exact nomatch hr
  | rolledBack _ _ e he => exact .inr ⟨e, rfl⟩
  | applied _ _ staged rows hs =>
    have hbefore := (stage_prepared hprepared hfind hs).2.revision_before
    omega
  | unseen => exact .inl ⟨_, rfl⟩

theorem reconcile_absent {pending : PreparedMutation WindowTables} (hasks : Asks pending ticket)
    (hprepared : Prepared identity old new ticket) (hstore : store.identity = identity)
    (hfind : findReceipt db.receipts (ticketKey ticket.revision) = none) :
    Open ticket (Storage.reconcile store pending host db) := by
  rw [← hprepared.operation, ← hasks.operation] at hfind
  have hown : pending.store = store.identity := by rw [hasks.store, hprepared.store, hstore]
  unfold Storage.reconcile barrierLookup
  rw [hasks.operation] at hfind ⊢
  cases hadmission : host.admission with
  | some e => exact .inl ⟨e.display, rfl⟩
  | none =>
    cases hlookup : host.lookup with
    | some e => exact .inl ⟨e.toStorageError.display, rfl⟩
    | none =>
      simp only [lookupReceipt, hfind, if_pos hown]
      exact .inr ⟨_, rfl⟩

end Reply

/-! ### Saved bytes -/

theorem text_put_self (fields : Object) (key value : String) : text (put fields key value) key = .ok value := by
  unfold text put
  rw [lookup_insertField_self]

theorem text_put_of_ne {key other : String} (h : other ≠ key) (fields : Object) (value : String) :
    text (put fields key value) other = text fields other := by
  unfold text put
  rw [lookup_insertField_of_ne h]

theorem number_of_text {fields : Object} {key : String} {n : Nat} (h : text fields key = .ok (Nat.repr n))
    (hn : n < 2 ^ 64) : number fields key = .ok n := by
  unfold number
  rw [h, Result.ok_bind, parseU64_repr hn]

/-- The fields of the saved bytes, when they can be read at all. -/
theorem savedBytes_fields {store condition body : String} {revision payload : Nat} {fields : Object}
    (hrevision : revision < 2 ^ 64) (hpayload : payload < 2 ^ 64)
    (h : object (savedBytes store condition body revision payload) = .ok fields) :
    text fields "store" = .ok store ∧ number fields "revision" = .ok revision ∧
      text fields "condition" = .ok condition ∧ text fields "body" = .ok body ∧
      number fields "payload" = .ok payload := by
  have hnil : (JsonVal.object []).Sorted := .object [] List.Pairwise.nil fun f hf => nomatch hf
  have hsorted := sorted_put (sorted_put (sorted_put (sorted_put (sorted_put hnil "store" store) "revision"
    (Nat.repr revision)) "condition" condition) "body" body) "payload" (Nat.repr payload)
  have hfields := object_encode hsorted h
  rw [hfields]
  refine ⟨?_, number_of_text ?_ hrevision, ?_, ?_, number_of_text (text_put_self _ _ _) hpayload⟩
  · rw [text_put_of_ne (by decide), text_put_of_ne (by decide), text_put_of_ne (by decide),
      text_put_of_ne (by decide), text_put_self]
  · rw [text_put_of_ne (by decide), text_put_of_ne (by decide), text_put_of_ne (by decide), text_put_self]
  · rw [text_put_of_ne (by decide), text_put_of_ne (by decide), text_put_self]
  · rw [text_put_of_ne (by decide), text_put_self]

/-- The text of a guarded batch depends on the texts of its parts only. -/
theorem guardedBatch_text {ρ : Type} {condition : String} {holds : Session ρ → Bool} {body : Script ρ} (h : body ≠ []) :
    Script.text (guardedBatch condition holds body) =
      Script.text (accessGuard condition holds) ++ " " ++ body.text ++ " " ++
        Script.text [selectLastInsertRowid ρ, selectChanges ρ] := by
  unfold guardedBatch Script.text
  have hguard : (accessGuard condition holds).map Statement.text ≠ [] := by simp [accessGuard]
  have hbody : body.map Statement.text ≠ [] := by simpa using h
  rw [List.map_append, String.intercalate_append_of_ne_nil (by simp [accessGuard]) (by simp), List.map_append,
    String.intercalate_append_of_ne_nil hguard hbody]

theorem savedBody_text (body : String) : Script.text (savedBody body) = body := by
  unfold savedBody Script.text
  exact String.intercalate_singleton

theorem plan_body_ne_nil {old new : Image} {state : String} {p : Plan} (h : Planned old new state p) :
    p.body ≠ [] := by
  obtain ⟨front, hbody, hne, -⟩ := h.body_eq
  rw [hbody]
  simp

/-! ### Calls under the law -/

/-- A receipt of a ticket that an operation leaves is that of a ticket it applied. -/
def Recorded (identity : String) (op : StoreOp WindowTables) (m : Moment) (db : Database WindowTables) : Prop :=
  ∀ r receipt, 0 < r → findReceipt db.receipts (ticketKey r) = none →
    findReceipt (op.exec m db).1.receipts (ticketKey r) = some receipt →
    ∃ old new ticket, Prepared identity old new ticket ∧ ticket.revision = r ∧ receipt = ticket.receipt ∧
      Applied old new ticket db (op.exec m db).1

theorem recorded_of_eq {identity : String} {op : StoreOp WindowTables} {m : Moment} {db : Database WindowTables}
    (h : (op.exec m db).1 = db) : Recorded identity op m db := by
  intro r receipt _ hnone hsome
  rw [h, hnone] at hsome
  exact nomatch hsome

section Calls

variable {identity : String} {E : Moment → Prop} {s : Database WindowTables}

/-- A submit of a prepared ticket, with what it answers where it is issued. -/
theorem keeps_submit {old new : Image} {ticket : Ticket} (hprepared : Prepared identity old new ticket)
    (store : SqliteStore) {R : Database WindowTables → MutationOutcome → Prop}
    (h : ∀ t, writerLaw.rel s t → ∀ m, E m → ∀ u,
      writerLaw.rel (Storage.submit store ticket.mutation m.host t).1 u →
        R u (Storage.submit store ticket.mutation m.host t).2) :
    Keeps StoreOp.exec writerLaw E (Recorded identity) R s (Call.submit store ticket.mutation) := by
  refine keeps_issue fun t hst m hm => ?_
  have hanswer := h t hst m hm
  have hexec : StoreOp.exec (.submit store ticket.mutation) m t = Storage.submit store ticket.mutation m.host t := rfl
  rw [hexec] at *
  rcases submit_prepared hprepared store m.host t with hsame | happlied
  · exact ⟨recorded_of_eq hsame, writerLaw_of_eq hsame, hanswer⟩
  · refine ⟨fun r receipt hpos hnone hsome => ?_, happlied.law, hanswer⟩
    have hsome' : findReceipt (Storage.submit store ticket.mutation m.host t).1.receipts (ticketKey r) = some receipt :=
      hsome
    rw [happlied.findReceipt hpos] at hsome'
    by_cases hown : r = ticket.revision
    · rw [if_pos hown] at hsome'
      exact ⟨old, new, ticket, hprepared, hown.symm, (Option.some.inj hsome').symm, happlied⟩
    · rw [if_neg hown, hnone] at hsome'
      split at hsome' <;> exact nomatch hsome'

theorem keeps_foreign {pending : PreparedMutation WindowTables} (hforeign : Foreign pending) (store : SqliteStore) :
    Keeps StoreOp.exec writerLaw E (Recorded identity) (fun _ _ => True) s (Call.submit store pending) := by
  refine keeps_issue fun t _ m _ => ?_
  obtain ⟨hlaw, hfind⟩ := hforeign.law store m.host t
  refine ⟨fun r receipt _ hnone hsome => ?_, hlaw, fun _ _ => trivial⟩
  have hsame := hfind r
  rw [hnone] at hsame
  exact nomatch hsame.symm.trans hsome

theorem keeps_reconcile (store : SqliteStore) (pending : PreparedMutation WindowTables)
    {R : Database WindowTables → MutationOutcome → Prop}
    (h : ∀ t, writerLaw.rel s t → ∀ m, E m → ∀ u, writerLaw.rel t u → R u (Storage.reconcile store pending m.host t)) :
    Keeps StoreOp.exec writerLaw E (Recorded identity) R s (Call.reconcile store pending) :=
  keeps_look (fun _ _ => rfl) (fun _ _ _ => recorded_of_eq rfl) h

theorem keeps_load : Keeps StoreOp.exec writerLaw E (Recorded identity)
    (fun u r => ∀ image, r = .ok image → ∃ t, writerLaw.rel s t ∧ writerLaw.rel t u ∧ image = imageOf t) s load := by
  refine Keeps.bind (P := fun u answer => ∀ rows, answer = .ok rows →
    ∃ t, writerLaw.rel s t ∧ writerLaw.rel t u ∧ rows = imageRows t) ?_ fun t answer _ hanswer => ?_
  · refine keeps_look (fun _ _ => rfl) (fun _ _ _ => recorded_of_eq rfl) fun t hst m _ u htu rows hrows => ?_
    exact ⟨t, hst, htu, load_answer hrows⟩
  · cases answer with
    | error e => exact keeps_done fun u _ image h => nomatch h
    | ok rows =>
      refine keeps_done fun u htu image himage => ?_
      obtain ⟨v, hsv, hvu, rfl⟩ := hanswer u htu rows rfl
      exact ⟨v, hsv, hvu, decodeImage_rows himage⟩

theorem keeps_identity (store : SqliteStore) : Keeps StoreOp.exec writerLaw E (Recorded identity)
    (onResult (fun _ _ => True) fun _ name => name = store.identity) s (Observation.identity store) := by
  refine Keeps.bind (P := fun _ answer => ∀ rows, answer = .ok rows → rows = [[store.identity]]) ?_
    fun t answer _ hanswer => ?_
  · refine keeps_look (fun _ _ => rfl) (fun _ _ _ => recorded_of_eq rfl) fun t _ m _ u _ rows hrows => ?_
    have hread : execScript m (identitySql store) t = .ok rows := hrows
    unfold execScript at hread
    split at hread
    · exact nomatch hread
    · exact (Except.ok.inj hread).symm
  · cases answer with
    | error e => exact keeps_done fun _ _ => trivial
    | ok rows =>
      rw [hanswer t (writerLaw.refl t) rows rfl]
      exact keeps_done fun _ _ => rfl

theorem keeps_draw : Keeps StoreOp.exec writerLaw E (Recorded identity) (fun _ _ => True) s
    (Call.draw : Call WindowTables String) :=
  keeps_look (fun _ _ => rfl) (fun _ _ _ => recorded_of_eq rfl) fun _ _ _ _ _ _ => trivial

/-- An answer through the horizon is inside the law. -/
theorem keeps_retainedOutcome (out : MutationOutcome) (revision : Nat) :
    Keeps StoreOp.exec writerLaw E (Recorded identity) (fun _ _ => True) s (retainedOutcome out revision) := by
  cases out with
  | committed | conflict | unknown => exact keeps_done fun _ _ => trivial
  | notCommitted operation error =>
    refine Keeps.bind keeps_load fun t answer _ _ => ?_
    split <;> exact keeps_done fun _ _ => trivial

/-- Behind the horizon an open answer says that it does not know. -/
theorem keeps_retainedOutcome_passed {ticket : Ticket} {out : MutationOutcome} (hopen : Open ticket out)
    (hs : Stated s) (hpassed : ticket.revision + replayRows ≤ revision s) :
    Keeps StoreOp.exec writerLaw E (Recorded identity)
      (fun _ o => ∃ detail, o = .unknown ticket.mutation.operation detail) s
      (retainedOutcome out ticket.revision) := by
  rcases hopen with ⟨detail, rfl⟩ | ⟨error, rfl⟩
  · exact keeps_done fun _ _ => ⟨detail, rfl⟩
  refine Keeps.bind keeps_load fun t answer hst hanswer => ?_
  have hnot : ∀ image, answer = .ok image → horizon image ticket.revision ≠ .ok true := by
    rintro image himage hhorizon
    obtain ⟨u, hsu, -, rfl⟩ := hanswer t (writerLaw.refl t) image himage
    obtain ⟨hu, hlater⟩ := hsu hs
    have hle := hlater.revision_le
    unfold horizon imageOf at hhorizon
    simp only at hhorizon
    cases hstate : stateText u.receipts with
    | none =>
      rw [hstate] at hhorizon
      exact nomatch hhorizon
    | some raw =>
      obtain ⟨n, hn⟩ := hu.revised raw hstate
      rw [hstate] at hhorizon
      simp only [hn, Result.ok_bind, Except.ok.injEq, decide_eq_true_eq] at hhorizon
      rw [revision_of_state hstate hn] at hle
      simp only [replayRows] at hhorizon hpassed
      omega
  cases hbind : (answer >>= fun image => horizon image ticket.revision) with
  | error e => exact keeps_done fun _ _ => ⟨_, rfl⟩
  | ok passed =>
    cases passed with
    | false => exact keeps_done fun _ _ => ⟨_, rfl⟩
    | true =>
      obtain ⟨image, himage, hhorizon⟩ := Result.bind_eq_ok.1 hbind
      exact absurd hhorizon (hnot image himage)

/-! ### A ticket whose revision was taken -/

/-- The ticket's revision was taken under this receipt, which stays until the horizon has passed. -/
structure Took (ticket : Ticket) (receipt : ReceiptRow) (db : Database WindowTables) : Prop where
  takes : Takes ticket.revision receipt
  past : ticket.revision ≤ revision db
  kept : findReceipt db.receipts (ticketKey ticket.revision) = some receipt ∨
    ticket.revision + replayRows ≤ revision db

theorem Took.later {ticket : Ticket} {receipt : ReceiptRow} {a b : Database WindowTables} (h : Took ticket receipt a)
    (hpos : 0 < ticket.revision) (hab : Later a b) : Took ticket receipt b := by
  refine ⟨h.takes, le_trans h.past hab.revision_le, ?_⟩
  rcases h.kept with hkept | hpassed
  · exact hab.retained _ _ hpos hkept
  · exact .inr (le_trans hpassed hab.revision_le)

/-- The answer to a ticket whose revision was taken before the call began at `s`, with the call ended at `u`: that of
the receipt, unless the horizon had passed when it began; or unknown, and then, if the host answered, the horizon has
passed when it ended. -/
def Answered (ticket : Ticket) (receipt : ReceiptRow) (answers : Prop) (s u : Database WindowTables)
    (out : MutationOutcome) : Prop :=
  (Settles ticket receipt out ∧ revision s < ticket.revision + replayRows) ∨
    ((∃ detail, out = .unknown ticket.mutation.operation detail) ∧
      (answers → ticket.revision + replayRows ≤ revision u))

section Taken

variable {old new : Image} {ticket : Ticket} {receipt : ReceiptRow} {answers : Prop} {store : SqliteStore}

/-- What the first operation of such a call answers. -/
def Replied (ticket : Ticket) (receipt : ReceiptRow) (answers : Prop) (s u : Database WindowTables)
    (out : MutationOutcome) : Prop :=
  (Settles ticket receipt out ∧ revision s < ticket.revision + replayRows) ∨
    ((∃ detail, out = .unknown ticket.mutation.operation detail) ∧ ¬ answers) ∨
    (Open ticket out ∧ ticket.revision + replayRows ≤ revision u)

theorem retainedOutcome_of_settles {out : MutationOutcome} (h : Settles ticket receipt out) (revision : Nat) :
    retainedOutcome out revision = .done out := by
  unfold Settles at h
  split at h
  · rw [h]
    rfl
  · obtain ⟨detail, rfl⟩ := h
    rfl

/-- The horizon read after the first operation settles the call. -/
theorem keeps_settle (hs : Stated s) {p : Call WindowTables MutationOutcome}
    (hp : Keeps StoreOp.exec writerLaw E (Recorded identity) (Replied ticket receipt answers s) s p) :
    Keeps StoreOp.exec writerLaw E (Recorded identity) (Answered ticket receipt answers s) s
      (p >>= fun out => retainedOutcome out ticket.revision) := by
  refine hp.bind fun t out hst hreply => ?_
  obtain ⟨ht, -⟩ := hst hs
  rcases hreply t (writerLaw.refl t) with ⟨hsettles, hbefore⟩ | ⟨⟨detail, rfl⟩, hfault⟩ | ⟨hopen, hpassed⟩
  · rw [retainedOutcome_of_settles hsettles]
    exact keeps_done fun u _ => .inl ⟨hsettles, hbefore⟩
  · exact keeps_done fun u _ => .inr ⟨⟨detail, rfl⟩, fun h => absurd h hfault⟩
  · refine (keeps_retainedOutcome_passed hopen ht hpassed).mono fun u o htu ho => ?_
    obtain ⟨-, hlater⟩ := htu ht
    exact .inr ⟨ho u (writerLaw.refl u), fun _ => le_trans hpassed hlater.revision_le⟩

/-- The first operation, given what it answers where a receipt is and where none is. -/
theorem replied_of {t u : Database WindowTables} {m : Moment} {out : MutationOutcome} (hs : Stated s)
    (hpos : 0 < ticket.revision) (htook : Took ticket receipt s) (hst : writerLaw.rel s t) (htu : writerLaw.rel t u)
    (hanswers : answers → Answers m.host)
    (htaken : findReceipt t.receipts (ticketKey ticket.revision) = some receipt →
      Settles ticket receipt out ∨ ¬ Answers m.host ∧ ∃ detail, out = .unknown ticket.mutation.operation detail)
    (habsent : findReceipt t.receipts (ticketKey ticket.revision) = none → ticket.revision ≤ revision t →
      Open ticket out) : Replied ticket receipt answers s u out := by
  obtain ⟨ht, hlater⟩ := hst hs
  obtain ⟨-, hlater'⟩ := htu ht
  have htook' := htook.later hpos hlater
  by_cases hpassed : ticket.revision + replayRows ≤ revision t
  · have hnone := ht.pruned ticket.revision hpos hpassed
    exact .inr (.inr ⟨habsent hnone htook'.past, le_trans hpassed hlater'.revision_le⟩)
  · have hkept := htook'.kept.resolve_right hpassed
    rcases htaken hkept with hsettles | ⟨hfault, hunknown⟩
    · have hle := hlater.revision_le
      exact .inl ⟨hsettles, by omega⟩
    · exact .inr (.inl ⟨hunknown, fun h => hfault (hanswers h)⟩)

theorem keeps_submit_took (hprepared : Prepared identity old new ticket) (hstore : store.identity = identity)
    (hs : Stated s) (htook : Took ticket receipt s) :
    Keeps StoreOp.exec writerLaw (fun m => answers → Answers m.host) (Recorded identity)
      (Answered ticket receipt answers s) s (submit store ticket) := by
  refine keeps_settle hs (keeps_submit hprepared store fun t hst m hm u htu => ?_)
  have hstep : writerLaw.rel t (Storage.submit store ticket.mutation m.host t).1 := by
    rcases submit_prepared hprepared store m.host t with hsame | happlied
    · exact writerLaw_of_eq hsame
    · exact happlied.law
  exact replied_of hs hprepared.revision_pos htook hst (writerLaw.trans hstep htu) hm
    (submit_taken hprepared hstore htook.takes) (submit_absent hprepared hstore)

theorem keeps_reconcile_took {pending : PreparedMutation WindowTables} (hasks : Asks pending ticket)
    (hprepared : Prepared identity old new ticket) (hstore : store.identity = identity)
    (hs : Stated s) (htook : Took ticket receipt s) :
    Keeps StoreOp.exec writerLaw (fun m => answers → Answers m.host) (Recorded identity)
      (Answered ticket receipt answers s) s
      (Call.reconcile store pending >>= fun out => retainedOutcome out ticket.revision) := by
  refine keeps_settle hs (keeps_reconcile store pending fun t hst m hm u htu => ?_)
  exact replied_of hs hprepared.revision_pos htook hst htu hm
    (reconcile_taken hasks hprepared hstore htook.takes) fun hnone _ => reconcile_absent hasks hprepared hstore hnone

/-- The request rebuilt from the saved bytes of a ticket asks for what the ticket asks for. -/
theorem asks_of_saved {p : Plan} {operation : OperationId} (hplan : plan old new = .ok p)
    (hoperation : operation.text = ticketKey p.revision) (hstore : store.identity = identity) {id : String}
    {batch : PreparedMutation WindowTables} {payload : Nat} (hbatch : prepareGuardedBatch store id
      (guardText old.state) (fun _ => false) (savedBody p.body.text) payload = .ok batch) {rebuilt : OperationId}
    (hrebuilt : ticketOperation p.revision = .ok rebuilt) :
    Asks (batch.withOperation rebuilt) {
      mutation := ⟨operation, identity, guardedBatch (guardText old.state) (guardHolds old.state) p.body, .insert,
        p.payloadBytes, true⟩
      revision := p.revision
      saved := savedBytes identity (guardText old.state) p.body.text p.revision p.payloadBytes } := by
  obtain ⟨state, hplanned, -⟩ := plan_eq_ok hplan
  obtain ⟨-, heq⟩ := prepareGuardedBatch_eq_ok hbatch
  have htext : rebuilt.text = ticketKey p.revision := OperationId.text_of_parse (Result.mapError_eq_ok.1 hrebuilt)
  have hbody : Script.text (guardedBatch (guardText old.state) (fun _ => false) (savedBody p.body.text)) =
      Script.text (guardedBatch (guardText old.state) (guardHolds old.state) p.body) := by
    rw [guardedBatch_text (by simp [savedBody]), guardedBatch_text (plan_body_ne_nil hplanned), savedBody_text]
    rfl
  rw [heq]
  refine ⟨OperationId.ext_text (htext.trans hoperation.symm), ?_, rfl, hstore⟩
  simp only [PreparedMutation.withOperation, PreparedMutation.request, hbody, hstore]

theorem keeps_saved_took (hprepared : Prepared identity old new ticket) (hstore : store.identity = identity)
    (hs : Stated s) (htook : Took ticket receipt s) :
    Keeps StoreOp.exec writerLaw (fun m => answers → Answers m.host) (Recorded identity)
      (onResult (fun _ _ => True) (Answered ticket receipt answers s)) s (reconcileSaved store ticket.saved).run := by
  have hprepared' := hprepared
  obtain ⟨p, operation, hplan, hoperation, rfl⟩ := hprepared'
  obtain ⟨state, hplanned, -⟩ := plan_eq_ok hplan
  have hrevision : p.revision < 2 ^ 64 := by
    have := hplanned.le
    omega
  unfold reconcileSaved
  refine Keeps.checkBind (fun _ _ _ _ => trivial) fun fields hfields => ?_
  obtain ⟨hown, hnumber, hcondition, hbody, hpayload⟩ :=
    savedBytes_fields hrevision hplanned.payload_lt hfields
  refine Keeps.checkBind (fun _ _ _ _ => trivial) fun owner howner => ?_
  refine Keeps.tryBind (keeps_identity store) fun t₁ name ht₁ hname => ?_
  split
  · exact keeps_check fun _ _ => trivial
  refine Keeps.checkBind (fun _ _ _ _ => trivial) fun revision hread => ?_
  refine Keeps.checkBind (fun _ _ _ _ => trivial) fun rebuilt hrebuilt => ?_
  refine Keeps.checkBind (fun _ _ _ _ => trivial) fun payload _ => ?_
  refine Keeps.checkBind (fun _ _ _ _ => trivial) fun condition hcond => ?_
  refine Keeps.checkBind (fun _ _ _ _ => trivial) fun body hbod => ?_
  refine Keeps.liftBind keeps_draw fun t₂ id ht₂ _ => ?_
  refine Keeps.checkBind (fun _ _ _ _ => trivial) fun batch hbatch => ?_
  -- what the saved bytes say is what the ticket says
  obtain rfl : condition = guardText old.state := Except.ok.inj (hcond.symm.trans hcondition)
  obtain rfl : body = p.body.text := Except.ok.inj (hbod.symm.trans hbody)
  obtain rfl : revision = p.revision := by
    rw [hnumber, Result.ok_bind, integer_eq_ok] at hread
    exact hread.1
  have hasks := asks_of_saved hplan hoperation hstore hbatch hrebuilt
  have hrel : writerLaw.rel s t₂ := writerLaw.trans ht₁ ht₂
  obtain ⟨ht, hlater⟩ := hrel hs
  have htook' := htook.later hprepared.revision_pos hlater
  refine Keeps.lift ((keeps_reconcile_took hasks hprepared hstore ht htook').mono fun u out _ hout => ?_)
  rcases hout u (writerLaw.refl u) with ⟨hsettles, hbefore⟩ | hunknown
  · have hle := hlater.revision_le
    exact .inl ⟨hsettles, by omega⟩
  · exact .inr hunknown

end Taken

end Calls

/-! ### Every run of the writer -/

/-- What `prepare` answers with is a prepared ticket. -/
theorem keeps_prepare {E : Moment → Prop} {s : Database WindowTables} (store : SqliteStore) (old new : Image)
    (identity : String) : Keeps StoreOp.exec writerLaw E (Recorded identity)
      (onResult (fun _ _ => True) fun _ ticket => Prepared store.identity old new ticket) s
      (prepare store old new).run := by
  unfold prepare
  refine Keeps.checkBind (fun _ _ _ _ => trivial) fun p hplan => ?_
  refine Keeps.checkBind (fun _ _ _ _ => trivial) fun operation hoperation => ?_
  refine Keeps.liftBind keeps_draw fun t₁ id _ _ => ?_
  refine Keeps.checkBind (fun _ _ _ _ => trivial) fun batch hbatch => ?_
  refine Keeps.tryBind (keeps_identity store) fun t₂ name _ hname => ?_
  obtain rfl : name = store.identity := hname t₂ (writerLaw.refl t₂)
  obtain ⟨-, heq⟩ := prepareGuardedBatch_eq_ok hbatch
  have htext := OperationId.text_of_parse (Result.mapError_eq_ok.1 hoperation)
  refine keeps_done fun u _ => ⟨p, operation, hplan, htext, ?_⟩
  rw [heq]
  rfl

/-- A handle of the store with this identity. -/
structure OwnStore (identity : String) where
  store : SqliteStore
  names : store.identity = identity

/-- A ticket that `prepare` made on the store with this identity, of whatever images. -/
structure IssuedTicket (identity : String) extends Ticket where
  old : Image
  new : Image
  prepared : Prepared identity old new toTicket

/-- One call on the store: about a ticket of the window, or another owner's submit. -/
inductive WriterRequest (identity : String) where
  | submit (store : OwnStore identity) (ticket : IssuedTicket identity)
  | reconcile (store : OwnStore identity) (ticket : IssuedTicket identity)
  | reconcileSaved (store : OwnStore identity) (ticket : IssuedTicket identity)
  | foreign (store : SqliteStore) (pending : PreparedMutation WindowTables) (other : Foreign pending)

namespace WriterRequest

variable {identity : String}

def ticket? : WriterRequest identity → Option (IssuedTicket identity)
  | .submit _ ticket => some ticket
  | .reconcile _ ticket => some ticket
  | .reconcileSaved _ ticket => some ticket
  | .foreign _ _ _ => none

def call : WriterRequest identity → Call WindowTables (Except StorageError MutationOutcome)
  | .submit store ticket => do return .ok (← Observation.submit store.store ticket.toTicket)
  | .reconcile store ticket => do return .ok (← Observation.reconcile store.store ticket.toTicket)
  | .reconcileSaved store ticket => (Observation.reconcileSaved store.store ticket.saved).run
  | .foreign store pending _ => do return .ok (← Call.submit store pending)

end WriterRequest

section Run

variable {identity : String}

abbrev WriterTurn (identity : String) := Turn (WriterRequest identity) Moment

/-- The store without a receipt, whatever its tables hold, after the turns. -/
def writerRun (tables : WindowTables) (turns : List (WriterTurn identity)) :
    Pool (StoreOp.Answer (ρ := WindowTables)) (Database WindowTables) (Except StorageError MutationOutcome) :=
  (Pool.idle ⟨tables, []⟩).played StoreOp.exec (fun _ r => r.call) turns

def writerTrace (tables : WindowTables) (turns : List (WriterTurn identity)) :
    List (Pool.Issued (StoreOp WindowTables) Moment (Database WindowTables)) :=
  Pool.issuedBy StoreOp.exec (fun _ (r : WriterRequest identity) => r.call)
    (Pool.idle ⟨tables, []⟩ : Pool (StoreOp.Answer (ρ := WindowTables)) _ _) turns

/-- The operation commits a mutation of this revision under this request. -/
def Commits (x : Pool.Issued (StoreOp WindowTables) Moment (Database WindowTables)) (revision : Nat)
    (request : String) : Prop :=
  findReceipt x.before.receipts (ticketKey revision) = none ∧
    ∃ receipt, findReceipt (x.op.exec x.env x.before).1.receipts (ticketKey revision) = some receipt ∧
      receipt.request = request

/-- The host answers every operation of the call that comes in after `front`. -/
def HostAnswers (tables : WindowTables) (front back : List (WriterTurn identity)) : Prop :=
  Pool.TurnsMeet (fun m : Moment => Answers m.host) (· = (writerRun tables front).calls.length) back

/-- The call that comes in after `front` has ended with `out`. -/
def Ended (tables : WindowTables) (front turns : List (WriterTurn identity)) (out : MutationOutcome) : Prop :=
  (writerRun tables turns).calls[(writerRun tables front).calls.length]? = some (.done (.ok out))

/-- What the answers of a run are worth. -/
structure AnswersProve (tables : WindowTables) (turns : List (WriterTurn identity)) : Prop where
  /-- A commit of a positive revision is an applied ticket, and no later operation commits that revision. -/
  applied : ∀ x ∈ writerTrace tables turns, ∀ revision request, 0 < revision → Commits x revision request →
    ∃ ticket : IssuedTicket identity, ticket.revision = revision ∧ ticket.mutation.request = request ∧
      Applied ticket.old ticket.new ticket.toTicket x.before (x.op.exec x.env x.before).1
  once : ∀ a x b y c revision request request', 0 < revision → writerTrace tables turns = a ++ x :: b ++ y :: c →
    Commits x revision request → ¬ Commits y revision request'
  /-- A call about a ticket answers that it did not commit only when it had not. -/
  unproved : ∀ front request back (ticket : IssuedTicket identity) operation error,
    turns = front ++ .ask request :: back → request.ticket? = some ticket →
    Ended tables front turns (.notCommitted operation error) →
    ∀ x ∈ writerTrace tables front, ∀ taken, ¬ Commits x ticket.revision taken
  /-- Once its revision was taken: the answer of the receipt that took it, unless the horizon had passed at the start of
  the call; else unknown, and then the horizon has passed or the host failed the call. -/
  settled : ∀ front request back (ticket : IssuedTicket identity) out,
    turns = front ++ .ask request :: back → request.ticket? = some ticket → Ended tables front turns out →
    ∀ x ∈ writerTrace tables front, ∀ taken, Commits x ticket.revision taken →
      Answered ticket.toTicket ⟨ticketKey ticket.revision, taken, encodeResponse [["1"], ["1"]]⟩
        (HostAnswers tables front back) (writerRun tables front).state (writerRun tables turns).state out

theorem stated_empty (tables : WindowTables) : Stated ⟨tables, []⟩ where
  revised _ h := nomatch h
  pruned _ _ _ := rfl

/-- Reconciling saved bytes is inside the law, whatever the bytes are. -/
theorem keeps_reconcileSaved {E : Moment → Prop} {s : Database WindowTables} (store : SqliteStore) (saved : String) :
    Keeps StoreOp.exec writerLaw E (Recorded identity) (onResult (fun _ _ => True) fun _ _ => True) s
      (reconcileSaved store saved).run := by
  unfold reconcileSaved
  refine Keeps.checkBind (fun _ _ _ _ => trivial) fun fields _ => ?_
  refine Keeps.checkBind (fun _ _ _ _ => trivial) fun owner _ => ?_
  refine Keeps.tryBind (keeps_identity store) fun _ name _ _ => ?_
  split
  · exact keeps_check fun _ _ => trivial
  refine Keeps.checkBind (fun _ _ _ _ => trivial) fun revision _ => ?_
  refine Keeps.checkBind (fun _ _ _ _ => trivial) fun operation _ => ?_
  refine Keeps.checkBind (fun _ _ _ _ => trivial) fun payload _ => ?_
  refine Keeps.checkBind (fun _ _ _ _ => trivial) fun condition _ => ?_
  refine Keeps.checkBind (fun _ _ _ _ => trivial) fun body _ => ?_
  refine Keeps.liftBind keeps_draw fun _ id _ _ => ?_
  refine Keeps.checkBind (fun _ _ _ _ => trivial) fun batch _ => ?_
  refine Keeps.lift (Keeps.bind (P := fun _ _ => True) ?_ fun _ out _ _ => keeps_retainedOutcome out revision)
  exact keeps_reconcile store _ fun _ _ _ _ _ _ => trivial

theorem keeps_call (r : WriterRequest identity) (s : Database WindowTables) :
    Keeps StoreOp.exec writerLaw (fun _ => True) (Recorded identity) (fun _ _ => True) s r.call := by
  cases r with
  | submit store ticket =>
    refine Keeps.bind (P := fun _ _ => True) ?_ fun _ _ _ _ => keeps_done fun _ _ => trivial
    exact Keeps.bind (P := fun _ _ => True) (keeps_submit ticket.prepared store.store fun _ _ _ _ _ _ => trivial)
      fun _ out _ _ => keeps_retainedOutcome out ticket.revision
  | reconcile store ticket =>
    refine Keeps.bind (P := fun _ _ => True) ?_ fun _ _ _ _ => keeps_done fun _ _ => trivial
    exact Keeps.bind (P := fun _ _ => True) (keeps_reconcile store.store _ fun _ _ _ _ _ _ => trivial)
      fun _ out _ _ => keeps_retainedOutcome out ticket.revision
  | reconcileSaved store ticket => exact (keeps_reconcileSaved store.store ticket.saved).mono fun _ _ _ _ => trivial
  | foreign store pending other =>
    exact Keeps.bind (keeps_foreign other store) fun _ _ _ _ => keeps_done fun _ _ => trivial

theorem lawful_start (tables : WindowTables) :
    (Pool.idle ⟨tables, []⟩ : Pool (StoreOp.Answer (ρ := WindowTables)) (Database WindowTables)
      (Except StorageError MutationOutcome)).Lawful StoreOp.exec writerLaw (fun _ => True) (Recorded identity)
        fun _ _ => True := Pool.lawful_idle _

theorem writerRun_keeps (tables : WindowTables) (turns : List (WriterTurn identity)) :
    writerLaw.rel ⟨tables, []⟩ (writerRun tables turns).state ∧ ∀ x ∈ writerTrace tables turns,
      Recorded identity x.op x.env x.before ∧ writerLaw.rel ⟨tables, []⟩ x.before ∧
        writerLaw.rel (x.op.exec x.env x.before).1 (writerRun tables turns).state := by
  have hmeets : Pool.TurnsMeet (fun _ : Moment => True) (fun _ => True) turns := fun _ _ _ _ => trivial
  obtain ⟨hlaw, -, htrace⟩ := Pool.keeps_played (lawful_start tables) (fun s _ r _ _ => keeps_call r s) hmeets
  exact ⟨hlaw, htrace⟩

/-- A commit of a positive revision, by its ticket. -/
theorem commits_applied {tables : WindowTables} {turns : List (WriterTurn identity)} {x} {revision : Nat}
    {request : String} (hx : x ∈ writerTrace tables turns) (hpos : 0 < revision) (h : Commits x revision request) :
    ∃ ticket : IssuedTicket identity, ticket.revision = revision ∧ ticket.mutation.request = request ∧
      Applied ticket.old ticket.new ticket.toTicket x.before (x.op.exec x.env x.before).1 ∧
      findReceipt (x.op.exec x.env x.before).1.receipts (ticketKey revision) = some ticket.receipt := by
  obtain ⟨hnone, receipt, hsome, hrequest⟩ := h
  obtain ⟨old, new, ticket, hprepared, hrevision, rfl, happlied⟩ :=
    ((writerRun_keeps tables turns).2 x hx).1 revision receipt hpos hnone hsome
  exact ⟨⟨ticket, old, new, hprepared⟩, hrevision, hrequest, happlied, hsome⟩

/-- A revision that was taken along the way is taken at the end. -/
theorem took_of_commits {tables : WindowTables} {turns : List (WriterTurn identity)} {x} {ticket : Ticket}
    {request : String} (hx : x ∈ writerTrace tables turns) (hpos : 0 < ticket.revision)
    (h : Commits x ticket.revision request) :
    Took ticket ⟨ticketKey ticket.revision, request, encodeResponse [["1"], ["1"]]⟩ (writerRun tables turns).state := by
  obtain ⟨taker, hrevision, hrequest, happlied, hfind⟩ := commits_applied hx hpos h
  obtain ⟨-, hbefore, hafter⟩ := (writerRun_keeps tables turns).2 x hx
  obtain ⟨hstated, -⟩ := hbefore (stated_empty tables)
  obtain ⟨hstated', -⟩ := happlied.law hstated
  obtain ⟨-, hlater⟩ := hafter hstated'
  have hreceipt : taker.receipt = ⟨ticketKey ticket.revision, request, encodeResponse [["1"], ["1"]]⟩ := by
    rw [Ticket.receipt, hrevision, hrequest]
  have htaken : Took ticket ⟨ticketKey ticket.revision, request, encodeResponse [["1"], ["1"]]⟩
      (x.op.exec x.env x.before).1 := by
    refine ⟨⟨request, rfl⟩, ?_, .inl ?_⟩
    · rw [happlied.revision_after, hrevision]
    · rw [hfind, hreceipt]
  exact htaken.later hpos hlater

/-- A call about a ticket whose revision was taken, from where it comes in. -/
theorem keeps_call_took {request : WriterRequest identity} {ticket : IssuedTicket identity}
    (hasked : request.ticket? = some ticket) {s : Database WindowTables} (hs : Stated s) {receipt : ReceiptRow}
    (htook : Took ticket.toTicket receipt s) (answers : Prop) :
    Keeps StoreOp.exec writerLaw (fun m => answers → Answers m.host) (Recorded identity)
      (onResult (fun _ _ => True) (Answered ticket.toTicket receipt answers s)) s request.call := by
  cases request with
  | submit store asked =>
    obtain rfl := Option.some.inj hasked
    exact Keeps.bind (keeps_submit_took asked.prepared store.names hs htook) fun _ _ _ h => keeps_done h
  | reconcile store asked =>
    obtain rfl := Option.some.inj hasked
    exact Keeps.bind (keeps_reconcile_took asked.prepared.asks asked.prepared store.names hs htook)
      fun _ _ _ h => keeps_done h
  | reconcileSaved store asked =>
    obtain rfl := Option.some.inj hasked
    exact keeps_saved_took asked.prepared store.names hs htook
  | foreign => exact nomatch hasked

theorem settled_of_commits {tables : WindowTables} {front back : List (WriterTurn identity)}
    {request : WriterRequest identity} {ticket : IssuedTicket identity} (hasked : request.ticket? = some ticket)
    {out : MutationOutcome} (hended : Ended tables front (front ++ .ask request :: back) out) {x}
    (hx : x ∈ writerTrace tables front) {taken : String} (hcommits : Commits x ticket.revision taken) :
    Answered ticket.toTicket ⟨ticketKey ticket.revision, taken, encodeResponse [["1"], ["1"]]⟩
      (HostAnswers tables front back) (writerRun tables front).state
      (writerRun tables (front ++ .ask request :: back)).state out := by
  obtain ⟨hlaw, -⟩ := writerRun_keeps tables front
  obtain ⟨hstated, -⟩ := hlaw (stated_empty tables)
  have hcall := keeps_call_took hasked hstated (took_of_commits hx ticket.prepared.revision_pos hcommits)
    (HostAnswers tables front back)
  have hmeets : Pool.TurnsMeet (fun m : Moment => HostAnswers tables front back → Answers m.host)
      (· = (writerRun tables front).calls.length) back := fun i m hi hmem hanswers => hanswers i m hi hmem
  exact Pool.answer_of_ask (lawful_start tables) (fun s _ r _ _ => keeps_call r s) (fun _ _ _ _ => trivial) hmeets
    hcall hended

/-- In every run, whatever is done between the operations of a call, an answer that a ticket did not commit is true, and
a ticket whose revision was taken is answered by what took it or not at all. -/
theorem pruned_receipts (tables : WindowTables) (turns : List (WriterTurn identity)) : AnswersProve tables turns where
  applied x hx revision request hpos h := by
    obtain ⟨ticket, hrevision, hrequest, happlied, -⟩ := commits_applied hx hpos h
    exact ⟨ticket, hrevision, hrequest, happlied⟩
  once a x b y c revision request request' hpos hsplit hx hy := by
    have hxmem : x ∈ writerTrace tables turns := by
      rw [hsplit]
      simp
    have hymem : y ∈ writerTrace tables turns := by
      rw [hsplit]
      simp
    obtain ⟨first, hfirst, -, happliedx, -⟩ := commits_applied hxmem hpos hx
    obtain ⟨second, hsecond, -, happliedy, -⟩ := commits_applied hymem hpos hy
    obtain ⟨hstated, -⟩ := ((writerRun_keeps tables turns).2 x hxmem).2.1 (stated_empty tables)
    obtain ⟨hstated', -⟩ := happliedx.law hstated
    have hordered := Pool.issued_ordered (lawful_start tables)
      (fun s _ r _ _ => keeps_call r s) (fun _ _ _ _ => trivial) hsplit
    obtain ⟨-, hlater⟩ := hordered hstated'
    -- the revision the first commit left is already the one the second would have to reach
    have hle := hlater.revision_le
    have hreached := happliedx.revision_after
    have hbehind := happliedy.revision_before
    omega
  unproved front request back ticket operation error hturns hasked hended x hx taken hcommits := by
    subst hturns
    rcases settled_of_commits hasked hended hx hcommits with ⟨hsettles, -⟩ | ⟨⟨detail, hunknown⟩, -⟩
    · unfold Settles at hsettles
      split at hsettles
      · exact nomatch hsettles
      · obtain ⟨detail, hconflict⟩ := hsettles
        exact nomatch hconflict
    · exact nomatch hunknown
  settled front request back ticket out hturns hasked hended x hx taken hcommits := by
    subst hturns
    exact settled_of_commits hasked hended hx hcommits

end Run

end Verdant.Observation
