import Verdant.Api.JournalLaw

/-!
# Appends

One append of a coordinator: it submits its ticket, and asks the writer barrier where the answer is lost.  Whatever the
others do between, it adds at most one row; an answer with a row names a row of its ticket and its value; and after a
refusal that is not an open outcome it has added none (`leads_append`).
-/

namespace Verdant.Api

open TextCodec Storage Access Binding Prog

/-! ### What operations added -/

abbrev ApiAct := Act (StoreOp OutboxTables) Moment (Database OutboxTables)

/-- The rows of the coordinators an operation added. -/
def added (x : ApiAct) : List OutboxRecord := (apiLog (x.op.exec x.env x.before).1).drop (apiLog x.before).length

def addedBy (acts : List ApiAct) : List OutboxRecord := acts.flatMap added

@[simp]
theorem addedBy_nil : addedBy [] = [] := rfl

@[simp]
theorem addedBy_cons (x : ApiAct) (acts : List ApiAct) : addedBy (x :: acts) = added x ++ addedBy acts := rfl

@[simp]
theorem addedBy_append (acts more : List ApiAct) : addedBy (acts ++ more) = addedBy acts ++ addedBy more :=
  List.flatMap_append

theorem added_of_eq {x : ApiAct} (h : apiLog (x.op.exec x.env x.before).1 = apiLog x.before) : added x = [] := by
  unfold added
  rw [h, List.drop_length]

theorem added_of_append {x : ApiAct} {r : OutboxRecord}
    (h : apiLog (x.op.exec x.env x.before).1 = apiLog x.before ++ [r]) : added x = [r] := by
  unfold added
  rw [h, List.drop_left]

/-! ### The batch of an append -/

/-- What an append writes, and under which condition. -/
structure Append where
  id : OperationId
  kind : String
  scope : TrustedScope
  value : String
  condition : Condition
  expiry : Option Int64

namespace Append

variable (a : Append)

def body : Script OutboxTables :=
  guardedBatch a.condition.text a.condition.holds (apiLive a.expiry ++ [insertApi a.kind a.scope a.value])

/-- The row the append writes as number `n`. -/
def row (n : Nat) : OutboxRecord := (apiRow a.kind a.scope a.value).record n

structure IsTicket (store : SqliteStore) (ticket : PreparedMutation OutboxTables) : Prop where
  operation : ticket.operation = a.id
  store : ticket.store = store.identity
  body : ticket.body = a.body
  shape : ticket.shape = .insert
  payload : ticket.payloadBytes = a.value.utf8ByteSize
  attempted : ticket.attempted = true

/-- What makes an append sound from a database on: wherever its condition holds, its row is one of its ticket that fits. -/
structure Sound (s : Database OutboxTables) : Prop where
  mine : a.kind = eventText ∨ a.kind = cancelText
  api : isApiTicket a.id.text = true
  ticket : ∀ n, 0 < n → n < 2 ^ 63 → a.value.utf8ByteSize ≤ 65536 → ticketOf (a.row n) = some a.id.text
  fits : ∀ t clock, apiLaw.rel s t → a.condition.holds (t.begin clock).tick = true →
    findReceipt t.receipts a.id.text = none → ∀ n, 0 < n → n < 2 ^ 63 → a.value.utf8ByteSize ≤ 65536 → Fits t (a.row n)

variable {a}

theorem Sound.later {s t : Database OutboxTables} (h : a.Sound s) (hst : apiLaw.rel s t) : a.Sound t where
  mine := h.mine
  api := h.api
  ticket := h.ticket
  fits u clock htu := h.fits u clock (apiLaw.trans hst htu)

end Append

theorem apiLive_run {expiry : Option Int64} {s t : Session OutboxTables} {out : Rows}
    (h : (apiLive expiry).run s = .ok (t, out)) :
    out = [] ∧ t.toDatabase = s.toDatabase ∧ ∀ e ∈ expiry, (s.clock 1).toInt < e.toInt := by
  cases expiry with
  | none =>
    cases h
    exact ⟨rfl, rfl, fun e he => nomatch he⟩
  | some e =>
    unfold apiLive at h
    obtain ⟨u, first, more, hcreate, hmore, rfl⟩ := Script.run_cons_ok.1 h
    have hguard : (createGuard "api_live" "").exec s = .ok (u, first) := hcreate
    obtain ⟨rfl, rfl⟩ := createGuard_exec hguard
    obtain ⟨v, second, last, hinsert, hlast, rfl⟩ := Script.run_cons_ok.1 hmore
    obtain ⟨hholds, rfl, rfl⟩ := insertGuard_exec hinsert
    cases hlast
    refine ⟨rfl, rfl, ?_⟩
    rintro e' ⟨⟩
    simpa [Session.now, Session.tick] using hholds

/-- A batch that ran through appended its row under its condition. -/
theorem Append.run_body {a : Append} {s t : Session OutboxTables} {rows : Rows} (h : a.body.run s = .ok (t, rows)) :
    a.condition.holds s.tick = true ∧ Appended s.tables t.tables [apiRow a.kind a.scope a.value] ∧
      t.receipts = s.receipts ∧ rows = [[Nat.repr (s.tables.lastId + 1)], ["1"]] ∧
      ∀ e ∈ a.expiry, (s.clock 3).toInt < e.toInt := by
  obtain ⟨hholds, u, v, inner, hdb, hclock, hbody, htv, rfl⟩ := run_guardedBatch h
  obtain ⟨w, first, more, hlive, hmore, rfl⟩ := Script.run_append_ok.1 hbody
  obtain ⟨rfl, hwu, hunexpired⟩ := apiLive_run hlive
  obtain ⟨x, out, last, hinsert, hlast, rfl⟩ := Script.run_cons_ok.1 hmore
  obtain ⟨rfl, hreceipts, -, hcases⟩ := insertRow_exec hinsert
  obtain ⟨-, happended, hid, hchanges⟩ := hcases.resolve_right fun hfalse => nomatch hfalse.1
  cases hlast
  have hstart : w.toDatabase = s.toDatabase := hwu.trans hdb
  have htables : w.tables = s.tables := congrArg Database.tables hstart
  refine ⟨hholds, ?_, ?_, ?_, ?_⟩
  · have hend : t.tables = x.tables := congrArg Database.tables htv
    rw [hend, ← htables]
    exact happended
  · have hend : t.receipts = x.receipts := congrArg Database.receipts htv
    rw [hend, hreceipts]
    exact congrArg Database.receipts hstart
  · have hlast : x.tick.lastInsertRowid = s.tables.lastId + 1 := by
      rw [← htables]
      exact hid
    have hone : x.tick.changes = 1 := hchanges
    rw [hlast, hone]
    rfl
  · rw [hclock] at hunexpired
    exact hunexpired

/-! ### Submits -/

/-- An append that was applied: one more row, with its receipt. -/
structure Applied (a : Append) (ticket : PreparedMutation OutboxTables) (t next : Database OutboxTables)
    (r : OutboxRecord) : Prop where
  law : apiLaw.rel t next
  log : apiLog next = apiLog t ++ [r]
  fits : Fits t r
  held : ∃ clock, a.condition.holds (t.begin clock).tick = true
  stands : ticketOf r = some a.id.text
  row : ∃ n, r = a.row n
  receipt : ∃ receipt, findReceipt next.receipts a.id.text = some receipt ∧ receipt.request = ticket.request

/-- What a submit of an append does: nothing, or it is applied. -/
inductive AppendSubmitted (a : Append) (ticket : PreparedMutation OutboxTables) (t : Database OutboxTables) :
    Database OutboxTables → MutationOutcome → Prop where
  | refused (e : StorageError) : AppendSubmitted a ticket t t (.notCommitted ticket.operation e)
  | lost (detail : String) : AppendSubmitted a ticket t t (.unknown ticket.operation detail)
  | replayed (receipt : ReceiptRow) (hfind : findReceipt t.receipts a.id.text = some receipt) :
    AppendSubmitted a ticket t t (replay ticket receipt)
  | applied {next : Database OutboxTables} {r : OutboxRecord} (h : Applied a ticket t next r) {out : MutationOutcome}
      (hout : out = .committed ticket.operation [[Nat.repr r.id], ["1"]] ∨
        ∃ detail, out = .unknown ticket.operation detail) :
    AppendSubmitted a ticket t next out

section Submit

variable {a : Append} {store : SqliteStore} {ticket : PreparedMutation OutboxTables} {s t : Database OutboxTables}

theorem Append.IsTicket.request (h : a.IsTicket store ticket) :
    ∃ head, ticket.request = hexText (head ++ "," ++ sqlQuote a.value ++ appendTail) := by
  obtain ⟨head, hhead⟩ := text_append a.condition a.expiry a.kind a.scope a.value
  refine ⟨ticket.shape.debug ++ ":" ++ ticket.store ++ ":" ++ head, ?_⟩
  have hbody : ticket.body.text = head ++ "," ++ sqlQuote a.value ++ appendTail := by
    rw [h.body]
    exact hhead
  unfold PreparedMutation.request
  rw [hbody]
  simp only [String.append_assoc]

theorem isApiRow_row (h : a.kind = eventText ∨ a.kind = cancelText) (n : Nat) : isApiRow (a.row n) = true := by
  have hop : (a.row n).operation = a.kind := rfl
  unfold isApiRow
  rw [hop]
  rcases h with h | h <;> simp [h]

/-- A staged append is an applied one. -/
theorem applied_of_stage {host : Host} {next : Database OutboxTables} {rows : Rows} (hticket : a.IsTicket store ticket)
    (hbounded : store.bounds.maxValueBytes ≤ 65536) (hsound : a.Sound t) (ht : Kept t)
    (hnone : findReceipt t.receipts a.id.text = none) (hstage : stage store ticket host t = .ok (next, rows)) :
    ∃ r, Applied a ticket t next r ∧ rows = [[Nat.repr r.id], ["1"]] := by
  have hsize : a.value.utf8ByteSize ≤ 65536 := by
    have hpayload := stage_bounded hstage hticket.shape
    rw [hticket.payload] at hpayload
    omega
  obtain ⟨happly, -⟩ := stage_eq_ok hstage
  obtain ⟨u, hrun, rfl⟩ := Application.apply_eq_some.1 happly
  have hbody : a.body.run (t.begin host.clock) = .ok (u, rows) := by
    rw [← hticket.body]
    exact hrun
  obtain ⟨hholds, happended, hreceipts, hrows, -⟩ := Append.run_body hbody
  have htables : (t.begin host.clock).tables = t.tables := rfl
  rw [htables] at happended hrows
  -- the number of the row is a rowid
  have hlast : u.tables.lastId = t.tables.lastId + 1 := happended.lastId
  have hpos : 0 < t.tables.lastId + 1 := Nat.succ_pos _
  have hroom : t.tables.lastId + 1 < 2 ^ 63 := by
    have := happended.room ht.ordered.room
    omega
  have hticketOf := hsound.ticket _ hpos hroom hsize
  have hfits := hsound.fits t host.clock (apiLaw.refl t) hholds hnone _ hpos hroom hsize
  have hstored : u.receipts = t.receipts := hreceipts
  obtain ⟨head, hhead⟩ := hticket.request
  have hjournaled : Journaled (Application.receipt ⟨ticket, host.clock, rows⟩) (a.row (t.tables.lastId + 1)) := by
    refine ⟨?_, ⟨head, hhead⟩, ?_⟩
    · rw [hticketOf, ← hticket.operation]
      rfl
    · unfold Application.receipt
      rw [hrows]
      rfl
  have hop : (Application.receipt ⟨ticket, host.clock, rows⟩).operation = a.id.text := by
    rw [← hticket.operation]
    rfl
  have hnext : (⟨u.tables, u.receipts ++ [Application.receipt ⟨ticket, host.clock, rows⟩]⟩ :
      Database OutboxTables).receipts = t.receipts ++ [Application.receipt ⟨ticket, host.clock, rows⟩] := by
    rw [hstored]
  have hkept := @Kept.append t ⟨u.tables, u.receipts ++ [Application.receipt ⟨ticket, host.clock, rows⟩]⟩ ht
    (apiRow a.kind a.scope a.value) _ _ happended hnext hnone hop
    (isApiRow_row hsound.mine _) hjournaled hfits
  refine ⟨a.row (t.tables.lastId + 1), ⟨fun _ => ⟨hkept.1, happended.grows, ?_⟩, hkept.2, hfits,
    ⟨host.clock, hholds⟩, hticketOf, ⟨_, rfl⟩, Application.receipt ⟨ticket, host.clock, rows⟩, ?_, rfl⟩, hrows⟩
  · rw [hnext]
    exact List.prefix_append _ _
  · rw [hnext]
    unfold findReceipt at hnone ⊢
    rw [List.find?_append, hnone, Option.none_or, List.find?_cons_of_pos (by simpa using hop)]

theorem submit_append (hticket : a.IsTicket store ticket) (hbounded : store.bounds.maxValueBytes ≤ 65536)
    (hsound : a.Sound t) (ht : Kept t) (host : Host) :
    AppendSubmitted a ticket t (submit store ticket host t).1 (submit store ticket host t).2 := by
  have hcases := submit_cases store ticket host t
  have hop : ticket.operation.text = a.id.text := by rw [hticket.operation]
  generalize (submit store ticket host t).1 = next at hcases ⊢
  generalize (submit store ticket host t).2 = out at hcases ⊢
  cases hcases with
  | foreign h => exact absurd hticket.store h
  | refused =>
    rw [hticket.attempted, if_pos rfl]
    exact .lost _
  | unread => exact .lost _
  | replayed _ _ _ receipt hr =>
    rw [hop] at hr
    exact .replayed receipt hr
  | rolledBack _ _ e => exact .refused e
  | applied _ hr _ rows hs =>
    rw [hop] at hr
    obtain ⟨r, happlied, rfl⟩ := applied_of_stage hticket hbounded hsound ht hr hs
    refine .applied happlied (.inl ?_)
    rw [hticket.shape]
    rfl
  | unseen _ hr staged rows hs applied e =>
    rw [hop] at hr
    cases applied with
    | false => exact .lost _
    | true =>
      obtain ⟨r, happlied, -⟩ := applied_of_stage hticket hbounded hsound ht hr hs
      exact .applied happlied (.inr ⟨_, rfl⟩)

/-! ### Answers -/

/-- A committed answer names a row of the ticket and its value. -/
def Known (a : Append) (t : Database OutboxTables) : MutationOutcome → Prop
  | .committed _ rows =>
    ∃ r ∈ apiLog t, ticketOf r = some a.id.text ∧ r.valueJson = a.value ∧ rows = [[Nat.repr r.id], ["1"]]
  | _ => True

theorem Known.later {u : Database OutboxTables} {out : MutationOutcome} (h : Known a t out) (ht : Kept t)
    (htu : apiLaw.rel t u) : Known a u out := by
  cases out with
  | committed op rows =>
    obtain ⟨r, hr, hrest⟩ := h
    exact ⟨r, (apiLog_grows (htu ht).2.1).subset hr, hrest⟩
  | notCommitted | conflict | unknown => exact trivial

/-- The receipt of a request of the ticket is that of a row of its value. -/
theorem response_of_receipt {receipt : ReceiptRow} (hticket : a.IsTicket store ticket)
    (hapi : isApiTicket a.id.text = true) (ht : Kept t) (hfind : findReceipt t.receipts a.id.text = some receipt)
    (hrequest : receipt.request = ticket.request) :
    ∃ r ∈ apiLog t, ticketOf r = some a.id.text ∧ r.valueJson = a.value ∧
      decodeResponse receipt.response = .ok [[Nat.repr r.id], ["1"]] := by
  obtain ⟨hmem, hop⟩ := findReceipt_some hfind
  obtain ⟨r, hr, hjournaled⟩ := ht.journaled receipt hmem (by rw [hop]; exact hapi)
  obtain ⟨head, hhead⟩ := hticket.request
  have hvalue := hjournaled.value_eq (hrequest.trans hhead)
  have hframed : Framed [[Nat.repr r.id], ["1"]] := by
    constructor <;> simp
  refine ⟨r, hr, ?_, hvalue, ?_⟩
  · rw [hjournaled.operation, hop]
  · rw [hjournaled.response]
    exact decodeResponse_encodeResponse hframed

theorem outcome_insert (hticket : a.IsTicket store ticket) (rows : Rows) :
    outcome ticket.shape ticket.operation rows = .committed ticket.operation rows := by
  rw [hticket.shape]
  rfl

theorem known_replay {receipt : ReceiptRow} (hticket : a.IsTicket store ticket) (hapi : isApiTicket a.id.text = true)
    (ht : Kept t) (hfind : findReceipt t.receipts a.id.text = some receipt) : Known a t (replay ticket receipt) := by
  unfold replay
  by_cases hrequest : receipt.request ≠ ticket.request
  · rw [if_pos hrequest]
    exact trivial
  rw [if_neg hrequest]
  obtain ⟨r, hr, hstands, hvalue, hdecode⟩ := response_of_receipt hticket hapi ht hfind (not_not.1 hrequest)
  rw [hdecode]
  simp only
  cases validateRows ticket.shape [[Nat.repr r.id], ["1"]] with
  | error e => exact trivial
  | ok _ =>
    simp only
    rw [outcome_insert hticket]
    exact ⟨r, hr, hstands, hvalue, rfl⟩

/-- What the writer barrier answers: it refuses only where the ticket has no receipt of its request. -/
theorem known_reconcile (hticket : a.IsTicket store ticket) (hapi : isApiTicket a.id.text = true) (ht : Kept t)
    (host : Host) : Known a t (reconcile store ticket host t) ∧
      ∀ receipt, findReceipt t.receipts a.id.text = some receipt → receipt.request = ticket.request →
        ¬ (reconcile store ticket host t).Refused := by
  have hop : ticket.operation.text = a.id.text := by rw [hticket.operation]
  unfold reconcile barrierLookup lookupReceipt
  rw [hop]
  cases host.admission with
  | some e => exact ⟨trivial, fun _ _ _ h => h⟩
  | none =>
    cases host.lookup with
    | some e => exact ⟨trivial, fun _ _ _ h => h⟩
    | none =>
      cases hfind : findReceipt t.receipts a.id.text with
      | none =>
        simp only
        rw [if_pos hticket.store]
        exact ⟨trivial, fun receipt hreceipt => nomatch hreceipt⟩
      | some receipt =>
        simp only
        by_cases hrequest : receipt.request = ticket.request
        · rw [if_pos ⟨hrequest, hticket.store⟩]
          obtain ⟨r, hr, hstands, hvalue, hdecode⟩ := response_of_receipt hticket hapi ht hfind hrequest
          rw [hdecode]
          simp only
          cases validateRows ticket.shape [[Nat.repr r.id], ["1"]] with
          | error e => exact ⟨trivial, fun _ _ _ h => h⟩
          | ok _ =>
            simp only
            rw [outcome_insert hticket]
            exact ⟨⟨r, hr, hstands, hvalue, rfl⟩, fun _ _ _ h => h⟩
        · rw [if_neg fun h => hrequest h.1]
          refine ⟨trivial, ?_⟩
          rintro other ⟨⟩ hsame
          exact absurd hsame hrequest

/-- What an answer gives: the row of the ticket, nothing after a refusal, or it stays open. -/
theorem rowOutcome_cases {out : MutationOutcome} (ht : Kept t) (hknown : Known a t out) :
    (∃ r ∈ apiLog t, ticketOf r = some a.id.text ∧ r.valueJson = a.value ∧ rowOutcome out = .ok (some (r.id : Int))) ∨
      (out.Refused ∧ ∀ n, rowOutcome out ≠ .ok (some n)) ∨ ∃ op detail, rowOutcome out = .error (.unknown op detail) := by
  cases out with
  | committed op rows =>
    obtain ⟨r, hr, hstands, hvalue, rfl⟩ := hknown
    obtain ⟨hpos, hlt⟩ := ht.ordered.id_pos (List.mem_filter.1 hr).1
    refine .inl ⟨r, hr, hstands, hvalue, ?_⟩
    unfold rowOutcome
    simp only [List.head?_cons, Option.bind_some]
    rw [numberI64_repr hlt, Result.ok_bind, if_neg (by omega)]
  | notCommitted op e =>
    refine .inr (.inl ⟨trivial, fun n h => ?_⟩)
    unfold rowOutcome at h
    simp only at h
    split at h <;> exact nomatch h
  | conflict op detail => exact .inr (.inl ⟨trivial, fun n h => nomatch h⟩)
  | unknown op detail => exact .inr (.inr ⟨op, detail, rfl⟩)

end Submit

/-! ### The call -/

/-- What the operations of an append added: one row at most, its own, where `P` held. -/
structure Written (a : Append) (P : Database OutboxTables → Prop) (acts : List ApiAct) : Prop where
  once : (addedBy acts).length ≤ 1
  rows : ∀ x ∈ acts, ∀ r ∈ added x, P x.before ∧ Fits x.before r ∧ ticketOf r = some a.id.text ∧ ∃ n, r = a.row n

/-- Operations that added nothing. -/
def Idle (acts : List ApiAct) : Prop := ∀ x ∈ acts, added x = []

theorem Idle.addedBy {acts : List ApiAct} (h : Idle acts) : Api.addedBy acts = [] := by
  unfold Api.addedBy
  rw [List.flatMap_eq_nil_iff]
  exact h

theorem Idle.append {acts more : List ApiAct} (h : Idle acts) (h' : Idle more) : Idle (acts ++ more) := by
  intro x hx
  rcases List.mem_append.1 hx with hx | hx
  · exact h x hx
  · exact h' x hx

theorem idle_nil : Idle [] := fun x hx => nomatch hx

theorem idle_singleton {x : ApiAct} (h : apiLog (x.op.exec x.env x.before).1 = apiLog x.before) : Idle [x] := by
  intro y hy
  rw [List.mem_singleton.1 hy]
  exact added_of_eq h

section Leads

variable {a : Append} {P : Database OutboxTables → Prop}

theorem Written.idle {acts : List ApiAct} (h : Idle acts) : Written a P acts where
  once := by
    rw [h.addedBy]
    exact Nat.zero_le _
  rows x hx r hr := by
    rw [h x hx] at hr
    exact nomatch hr

theorem Written.append_idle {acts more : List ApiAct} (h : Written a P acts) (hmore : Idle more) :
    Written a P (acts ++ more) where
  once := by
    rw [addedBy_append, hmore.addedBy, List.append_nil]
    exact h.once
  rows x hx := by
    rcases List.mem_append.1 hx with hx | hx
    · exact h.rows x hx
    · intro r hr
      rw [hmore x hx] at hr
      exact nomatch hr

theorem Written.idle_append {acts more : List ApiAct} (hacts : Idle acts) (h : Written a P more) :
    Written a P (acts ++ more) where
  once := by
    rw [addedBy_append, hacts.addedBy, List.nil_append]
    exact h.once
  rows x hx := by
    rcases List.mem_append.1 hx with hx | hx
    · intro r hr
      rw [hacts x hx] at hr
      exact nomatch hr
    · exact h.rows x hx

/-- What a submit of an append, or the barrier after it, answered. -/
structure Answered (a : Append) (P : Database OutboxTables → Prop) (acts : List ApiAct) (t : Database OutboxTables)
    (out : MutationOutcome) : Prop where
  written : Written a P acts
  known : Known a t out
  refused : out.Refused → Idle acts

/-- After a submit: the others see its receipt, unless nothing was added. -/
def Receipted (a : Append) (ticket : PreparedMutation OutboxTables) (acts : List ApiAct) (t : Database OutboxTables) :
    Prop :=
  Idle acts ∨ ∃ receipt, findReceipt t.receipts a.id.text = some receipt ∧ receipt.request = ticket.request

theorem leads_submit {store : SqliteStore} {ticket : PreparedMutation OutboxTables} {s : Database OutboxTables}
    (hs : Kept s) (hticket : a.IsTicket store ticket) (hbounded : store.bounds.maxValueBytes ≤ 65536)
    (hsound : a.Sound s) (hP : ∀ t clock, apiLaw.rel s t → a.condition.holds (t.begin clock).tick = true → P t) :
    Leads StoreOp.exec apiLaw Drawn Settled
      (fun acts t out => Answered a P acts t out ∧ Receipted a ticket acts t) s (Call.submit store ticket) := by
  refine leads_issue (StoreOp.submit store ticket) fun t hst m _ => ?_
  have ht := (hst hs).1
  have hsubmitted := submit_append hticket hbounded (hsound.later hst) ht m.host
  have hexec : StoreOp.exec (.submit store ticket) m t = Storage.submit store ticket m.host t := rfl
  have hsame : ∀ {next : Database OutboxTables}, (Storage.submit store ticket m.host t).1 = next → next = t →
      Settled (.submit store ticket) m t ∧ apiLaw.rel t (StoreOp.exec (.submit store ticket) m t).1 ∧
        Idle [⟨.submit store ticket, m, t⟩] := by
    rintro next hnext rfl
    have hfst : (StoreOp.exec (.submit store ticket) m next).1 = next := hnext
    refine ⟨settled_of_eq hfst, ?_, idle_singleton (congrArg apiLog hfst)⟩
    rw [hfst]
    exact apiLaw.refl next
  generalize hnext : (Storage.submit store ticket m.host t).1 = next at hsubmitted
  generalize hout : (Storage.submit store ticket m.host t).2 = out at hsubmitted
  have hanswer : (StoreOp.exec (.submit store ticket) m t).2 = out := hout
  rw [hanswer]
  cases hsubmitted with
  | refused e =>
    obtain ⟨hsettled, hlaw, hidle⟩ := hsame hnext rfl
    exact ⟨hsettled, hlaw, fun u _ => ⟨⟨.idle hidle, trivial, fun _ => hidle⟩, .inl hidle⟩⟩
  | lost detail =>
    obtain ⟨hsettled, hlaw, hidle⟩ := hsame hnext rfl
    exact ⟨hsettled, hlaw, fun u _ => ⟨⟨.idle hidle, trivial, fun h => h.elim⟩, .inl hidle⟩⟩
  | replayed receipt hfind =>
    obtain ⟨hsettled, hlaw, hidle⟩ := hsame hnext rfl
    refine ⟨hsettled, hlaw, fun u hu => ⟨⟨.idle hidle, ?_, fun _ => hidle⟩, .inl hidle⟩⟩
    exact (known_replay hticket hsound.api ht hfind).later ht (apiLaw.trans hlaw hu)
  | @applied _ r happlied _ hout =>
    have hfst : (StoreOp.exec (.submit store ticket) m t).1 = next := hnext
    have hlog : apiLog (StoreOp.exec (.submit store ticket) m t).1 = apiLog t ++ [r] := by
      rw [hfst]
      exact happlied.log
    have hadded : added ⟨.submit store ticket, m, t⟩ = [r] := added_of_append hlog
    have hkept := (happlied.law ht).1
    obtain ⟨clock, hheld⟩ := happlied.held
    have hwritten : Written a P [⟨.submit store ticket, m, t⟩] := by
      refine ⟨?_, fun x hx r' hr' => ?_⟩
      · rw [addedBy_cons, hadded]
        exact Nat.le_refl _
      · rw [List.mem_singleton.1 hx] at hr' ⊢
        rw [hadded] at hr'
        rw [List.mem_singleton.1 hr']
        exact ⟨hP t clock hst hheld, happlied.fits, happlied.stands, happlied.row⟩
    rw [hfst]
    refine ⟨.inr ⟨r, happlied.fits, hlog⟩, happlied.law, fun u hu => ⟨⟨hwritten, ?_, ?_⟩, .inr ?_⟩⟩
    · have hknown : Known a next out := by
        rcases hout with rfl | ⟨detail, rfl⟩
        · obtain ⟨n, hrow⟩ := happlied.row
          refine ⟨r, ?_, happlied.stands, by rw [hrow]; rfl, rfl⟩
          rw [happlied.log]
          exact List.mem_append_right _ List.mem_cons_self
        · exact trivial
      exact hknown.later hkept hu
    · rcases hout with rfl | ⟨detail, rfl⟩ <;> exact fun h => h.elim
    · obtain ⟨receipt, hfind, hrequest⟩ := happlied.receipt
      exact ⟨receipt, findReceipt_grows (hu hkept).2.2 hfind, hrequest⟩

/-- The barrier after an answer that stays open. -/
theorem leads_barrier {store : SqliteStore} {ticket : PreparedMutation OutboxTables} {s : Database OutboxTables}
    (hs : Kept s) (hticket : a.IsTicket store ticket) (hapi : isApiTicket a.id.text = true) {acts : List ApiAct}
    {first : MutationOutcome} : (∀ t, apiLaw.rel s t → Answered a P acts t first ∧ Receipted a ticket acts t) →
    Leads StoreOp.exec apiLaw Drawn Settled (fun more t out => Answered a P (acts ++ more) t out) s
      (match first with
        | .unknown _ _ => Call.reconcile store ticket
        | other => pure other : Call OutboxTables MutationOutcome) := by
  intro hfirst
  have hdone : Leads StoreOp.exec apiLaw Drawn Settled (fun more t out => Answered a P (acts ++ more) t out) s
      (pure first : Call OutboxTables MutationOutcome) := by
    refine leads_done fun t hst => ?_
    rw [List.append_nil]
    exact (hfirst t hst).1
  cases first with
  | committed | notCommitted | conflict => exact hdone
  | unknown op detail =>
    refine leads_issue (StoreOp.reconcile store ticket) fun t hst m _ => ?_
    have ht := (hst hs).1
    have hidle : Idle [⟨.reconcile store ticket, m, t⟩] := idle_singleton rfl
    obtain ⟨hknown, hrefused⟩ := known_reconcile hticket hapi ht m.host
    refine ⟨settled_of_eq rfl, apiLaw.refl t, fun u hu => ?_⟩
    obtain ⟨hanswered, hreceipted⟩ := hfirst t hst
    refine ⟨hanswered.written.append_idle hidle, hknown.later ht hu, fun h => ?_⟩
    rcases hreceipted with hnothing | ⟨receipt, hfind, hrequest⟩
    · exact hnothing.append hidle
    · exact absurd h (hrefused receipt hfind hrequest)

/-- What an append promises of its operations and its answer. -/
theorem leads_append (api : Api) {s : Database OutboxTables} (hs : Kept s) (hsound : a.Sound s)
    (hP : ∀ t clock, apiLaw.rel s t → a.condition.holds (t.begin clock).tick = true → P t) :
    Leads StoreOp.exec apiLaw Drawn Settled
      (onAnswer (fun acts _ e => Written a P acts ∧ (e.isUnknown = false → Idle acts)) fun acts t n =>
        Written a P acts ∧ ∃ r ∈ apiLog t, ticketOf r = some a.id.text ∧ r.valueJson = a.value ∧ (r.id : Int) = n) s
      (api.append a.id a.kind a.scope a.value a.condition a.expiry).run := by
  unfold Coordinator.append
  refine Leads.liftBind (R := fun acts _ _ => Idle acts) ?_ fun drawn t id hst hdrawn => ?_
  · refine leads_issue StoreOp.draw fun t _ m _ => ⟨settled_of_eq rfl, apiLaw.refl t, fun u _ => ?_⟩
    exact idle_singleton rfl
  have hidle := hdrawn t (apiLaw.refl t)
  refine Leads.checkBind (fun e _ u _ => ?_) fun pending hpending => ?_
  · rw [List.append_nil]
    exact ⟨.idle hidle, fun _ => hidle⟩
  rw [Result.mapError_eq_ok] at hpending
  obtain ⟨-, hpending⟩ := prepareGuardedBatch_eq_ok hpending
  have hticket : a.IsTicket api.registry.store (pending.withOperation a.id) := by
    rw [hpending]
    exact ⟨rfl, rfl, rfl, rfl, rfl, rfl⟩
  have ht := (hst hs).1
  refine Leads.liftBind (leads_submit ht hticket api.bounded (hsound.later hst) fun u clock hu =>
    hP u clock (apiLaw.trans hst hu)) fun acts u first htu hfirst => ?_
  have hu := (htu ht).1
  refine Leads.liftBind (leads_barrier hu hticket hsound.api hfirst) fun more v out huv hout => ?_
  have hv := (huv hu).1
  have hanswered := hout v (apiLaw.refl v)
  have hacts : ∀ tail : List ApiAct, Idle tail → Written a P (drawn ++ (acts ++ (more ++ tail))) := by
    intro tail htail
    rw [← List.append_assoc acts]
    exact (hanswered.written.append_idle htail).idle_append hidle
  rcases rowOutcome_cases hv hanswered.known with ⟨r, hr, hstands, hvalue, hrow⟩ | ⟨hrefused, hnone⟩ | ⟨op, detail, hopen⟩
  · rw [hrow]
    refine leads_done fun w hvw => ⟨hacts [] idle_nil, r, ?_, hstands, hvalue, rfl⟩
    exact (apiLog_grows (hvw hv).2.1).subset hr
  · -- a refusal: the submit and the barrier added nothing
    have hnothing : Idle (drawn ++ (acts ++ (more ++ []))) := by
      rw [List.append_nil]
      exact hidle.append (hanswered.refused hrefused)
    cases hrow : rowOutcome out with
    | error e => exact leads_done fun w _ => ⟨hacts [] idle_nil, fun _ => hnothing⟩
    | ok row =>
      cases row with
      | none => exact leads_done fun w _ => ⟨hacts [] idle_nil, fun _ => hnothing⟩
      | some n => exact absurd hrow (hnone n)
  · rw [hopen]
    exact leads_done fun w _ => ⟨hacts [] idle_nil, fun h => nomatch h⟩

end Leads

end Verdant.Api
