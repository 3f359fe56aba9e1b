import Verdant.Observation.Writer

/-!
# What a ticket of the window does

A prepared ticket is taken apart once (`Prepared`), its body once at the level of the receipts (`planned_receipts`), and
a submit of it once (`submit_prepared`): it leaves the database, or it advances the revision by one from the very state
text it was prepared against, prunes, and leaves its own receipt.
-/

namespace Verdant.Observation

open Storage TextCodec

/-! ### Keys of the receipts -/

/-- The key of the receipt of one revision. -/
def ticketKey (revision : Nat) : String := ticketPrefix ++ Nat.repr revision

theorem toList_ticketKey (revision : Nat) :
    (ticketKey revision).toList = ticketPrefix.toList ++ Nat.toDigits 10 revision := by
  rw [ticketKey, String.toList_append, Nat.toList_repr]

@[simp]
theorem ticketNumber_ticketKey (revision : Nat) : ticketNumber (ticketKey revision) = some revision := by
  have hdigits : ∀ c ∈ Nat.toDigits 10 revision, c.isDigit = true := fun c hc =>
    Nat.isDigit_of_mem_toDigits (by decide) (by decide) hc
  have hprefix : ticketPrefix.toList.isPrefixOf (ticketKey revision).toList = true := by
    rw [toList_ticketKey, List.isPrefixOf_iff_prefix]
    exact List.prefix_append _ _
  have hdrop : (ticketKey revision).toList.drop ticketPrefix.toList.length = Nat.toDigits 10 revision := by
    rw [toList_ticketKey, List.drop_left]
  have htake : (Nat.toDigits 10 revision).takeWhile Char.isDigit = Nat.toDigits 10 revision :=
    List.takeWhile_eq_self_iff.2 hdigits
  unfold ticketNumber
  rw [if_pos hprefix, hdrop]
  simp only [htake]
  rw [if_neg Nat.toDigits_ne_nil, parseDigits_toDigits]

theorem ticketKey_injective : Function.Injective ticketKey := by
  intro a b h
  have hnumber := ticketNumber_ticketKey a
  rw [h, ticketNumber_ticketKey] at hnumber
  exact (Option.some.inj hnumber).symm

theorem ticketNumber_stateOperation : ticketNumber stateOperation = none := by decide

theorem ticketKey_ne_stateOperation (revision : Nat) : ticketKey revision ≠ stateOperation := by
  intro h
  have hnumber := ticketNumber_ticketKey revision
  rw [h, ticketNumber_stateOperation] at hnumber
  exact nomatch hnumber

/-! ### Receipts under the statements -/

theorem findReceipt_append (receipts : List ReceiptRow) (receipt : ReceiptRow) (operation : String) :
    findReceipt (receipts ++ [receipt]) operation =
      (findReceipt receipts operation).or (if receipt.operation = operation then some receipt else none) := by
  unfold findReceipt
  rw [List.find?_append]
  congr 1
  by_cases h : receipt.operation = operation
  · simp [h]
  · simp [h]

/-- The receipts a prune keeps answer as before. -/
theorem findReceipt_prune {receipts : List ReceiptRow} {operation : String} {bound : Nat}
    (h : ∀ n, ticketNumber operation = some n → bound < n) :
    findReceipt (receipts.filter fun r => !Prunes bound r) operation = findReceipt receipts operation := by
  unfold findReceipt
  rw [List.find?_filter]
  congr 1
  funext r
  by_cases hr : r.operation = operation
  · have hkeep : Prunes bound r = false := by
      unfold Prunes
      rw [hr]
      cases hn : ticketNumber operation with
      | none => rfl
      | some n =>
        have := h n hn
        simp only [Option.any_some, decide_eq_false_iff_not]
        omega
    simp [hr, hkeep]
  · simp [hr]

theorem findReceipt_prune_le {receipts : List ReceiptRow} {operation : String} {bound n : Nat}
    (hn : ticketNumber operation = some n) (h : n ≤ bound) :
    findReceipt (receipts.filter fun r => !Prunes bound r) operation = none := by
  rw [findReceipt_none]
  intro r hr hoperation
  have hkeep := List.of_mem_filter hr
  unfold Prunes at hkeep
  rw [hoperation, hn] at hkeep
  simp [h] at hkeep

theorem stateText_prune (receipts : List ReceiptRow) (bound : Nat) :
    stateText (receipts.filter fun r => !Prunes bound r) = stateText receipts := by
  unfold stateText
  rw [List.find?_filter]
  congr 2
  funext r
  by_cases hr : r.operation = stateOperation
  · have hkeep : Prunes bound r = false := by
      unfold Prunes
      rw [hr, ticketNumber_stateOperation]
      rfl
    simp [hr, hkeep]
  · simp [hr]

theorem findReceipt_upsertState {receipts : List ReceiptRow} {operation : String} (h : operation ≠ stateOperation)
    (raw : String) : findReceipt (upsertStateRow raw receipts) operation = findReceipt receipts operation := by
  have hmap (rs : List ReceiptRow) : findReceipt
      (rs.map fun r => if r.operation = stateOperation then { r with response := raw } else r) operation =
      findReceipt rs operation := by
    induction rs with
    | nil => rfl
    | cons r rs ih =>
      unfold findReceipt at ih ⊢
      rw [List.map_cons, List.find?_cons, List.find?_cons, ih]
      by_cases hr : r.operation = stateOperation
      · simp [hr, Ne.symm h]
      · simp [hr]
  unfold upsertStateRow
  split
  · exact hmap receipts
  · rw [findReceipt_append]
    simp [Ne.symm h]

/-- The owner's state is in the table, or no receipt has its key. -/
def StateOwned (receipts : List ReceiptRow) : Prop :=
  (stateText receipts).isSome = true ∨ ∀ r ∈ receipts, r.operation ≠ stateOperation

theorem stateText_upsertState {receipts : List ReceiptRow} (h : StateOwned receipts) (raw : String) :
    stateText (upsertStateRow raw receipts) = some raw := by
  have hmap : ∀ rs : List ReceiptRow, (stateText rs).isSome = true →
      stateText (rs.map fun r => if r.operation = stateOperation then { r with response := raw } else r) = some raw := by
    intro rs
    induction rs with
    | nil => simp [stateText]
    | cons r rs ih =>
      intro hsome
      unfold stateText at hsome ih ⊢
      rw [List.map_cons, List.find?_cons]
      rw [List.find?_cons] at hsome
      by_cases hr : r.operation = stateOperation
      · by_cases hq : r.request = stateRequest
        · simp [hr, hq]
        · simp only [hr, hq, and_false, decide_false, if_true] at hsome ⊢
          exact ih hsome
      · simp only [hr, false_and, decide_false, if_false] at hsome ⊢
        exact ih hsome
  unfold upsertStateRow
  rcases h with hsome | hnone
  · have hany : (receipts.any fun r => decide (r.operation = stateOperation)) = true := by
      unfold stateText at hsome
      rw [Option.isSome_map, List.find?_isSome] at hsome
      obtain ⟨r, hr, hcond⟩ := hsome
      rw [List.any_eq_true]
      exact ⟨r, hr, by simpa using (by simpa using hcond : r.operation = _ ∧ _).1⟩
    rw [if_pos hany]
    exact hmap receipts hsome
  · have hany : ¬ (receipts.any fun r => decide (r.operation = stateOperation)) = true := by
      rw [List.any_eq_true]
      rintro ⟨r, hr, hcond⟩
      exact hnone r hr (by simpa using hcond)
    rw [if_neg hany]
    have hfind : receipts.find? (fun r => decide (r.operation = stateOperation ∧ r.request = stateRequest)) = none := by
      rw [List.find?_eq_none]
      intro r hr
      simp [hnone r hr]
    unfold stateText
    rw [List.find?_append, hfind]
    simp

theorem stateText_append {receipts : List ReceiptRow} {receipt : ReceiptRow}
    (h : receipt.operation = stateOperation → receipt.request ≠ stateRequest) :
    stateText (receipts ++ [receipt]) = stateText receipts := by
  unfold stateText
  rw [List.find?_append]
  by_cases hr : receipt.operation = stateOperation
  · simp [hr, h hr]
  · simp [hr]

/-! ### Plans -/

/-- Statements of the owners' tables leave the receipts. -/
def OnTables (statement : Statement WindowTables) : Prop :=
  ∀ s t rows, statement.exec s = .ok (t, rows) → t.receipts = s.receipts

theorem onTables_createPayload : OnTables createPayload := by
  intro s t rows h
  cases h
  rfl

theorem onTables_onTables {text : String} {effect : Session WindowTables → Except String (TableEffect WindowTables)} :
    OnTables (.onTables text effect) := fun _ _ _ h => Statement.onTables_receipts h

/-- The parts of a plan. -/
structure Planned (old new : Image) (state : String) (plan : Plan) : Prop where
  state_eq : new.state = some state
  revision_eq : revisionOf state = .ok plan.revision
  follows : expectedRevision old.state = .ok (plan.revision - 1)
  pos : 0 < plan.revision
  le : plan.revision ≤ 2 ^ 63 - 1
  payload_lt : plan.payloadBytes < 2 ^ 64
  body_eq : ∃ front, plan.body = front ++ prune plan.revision ++ [upsertState state, insertResult] ∧ front ≠ [] ∧
    ∀ statement ∈ front, OnTables statement

theorem integer_eq_ok {n m : Nat} : integer n = .ok m ↔ m = n ∧ n ≤ 2 ^ 63 - 1 := by
  unfold integer
  rw [Result.ite_error_eq_ok, Except.ok.injEq]
  constructor
  · rintro ⟨hle, rfl⟩
    exact ⟨rfl, by omega⟩
  · rintro ⟨rfl, hle⟩
    exact ⟨by omega, rfl⟩

theorem dropRows_onTables {scope producer : String} {old new : Image} {script : Script WindowTables}
    (h : dropRows scope producer old new = .ok script) : ∀ statement ∈ script, OnTables statement := by
  obtain ⟨seqs, -, h⟩ := Result.bind_eq_ok.1 h
  cases h
  intro statement hmem
  obtain ⟨seq, -, rfl⟩ := List.mem_map.1 hmem
  exact onTables_onTables

theorem writeRows_onTables {scope producer : String} {revision : Nat} {old new : Image} {script : Script WindowTables}
    (h : writeRows scope producer revision old new = .ok script) : ∀ statement ∈ script, OnTables statement := by
  obtain ⟨-, -, h⟩ := Result.bind_eq_ok.1 h
  cases h
  intro statement hmem
  obtain ⟨raw, -, rfl⟩ := List.mem_map.1 hmem
  exact onTables_onTables

theorem addPins_onTables {scope producer : String} {old new : Image} {script : Script WindowTables}
    (h : addPins scope producer old new = .ok script) : ∀ statement ∈ script, OnTables statement := by
  obtain ⟨-, -, h⟩ := Result.bind_eq_ok.1 h
  cases h
  intro statement hmem
  obtain ⟨pin, -, rfl⟩ := List.mem_map.1 hmem
  exact onTables_onTables

theorem replaceGaps_onTables {scope producer : String} {old new : Image} {script : Script WindowTables}
    (h : replaceGaps scope producer old new = .ok script) : ∀ statement ∈ script, OnTables statement := by
  unfold replaceGaps at h
  split at h
  · cases h
    exact fun _ hmem => nomatch hmem
  · obtain ⟨-, -, h⟩ := Result.bind_eq_ok.1 h
    cases h
    intro statement hmem
    rcases List.mem_cons.1 hmem with rfl | hmem
    · exact onTables_onTables
    · obtain ⟨gap, -, rfl⟩ := List.mem_map.1 hmem
      exact onTables_onTables

theorem dropPins_onTables (old new : Image) : ∀ statement ∈ dropPins old new, OnTables statement := by
  intro statement hmem
  obtain ⟨pin, -, rfl⟩ := List.mem_map.1 hmem
  exact onTables_onTables

theorem payloadBytes_lt {state : String} {old new : Image} {n : Nat} (h : payloadBytes state old new = .ok n) :
    n < 2 ^ 64 := by
  unfold payloadBytes at h
  rw [Result.ite_error_eq_ok, Except.ok.injEq] at h
  obtain ⟨hlt, rfl⟩ := h
  omega

/-- The statements a plan runs before it prunes and writes the state. -/
structure PlanParts (old new : Image) (state : String) (plan : Plan) where
  fields : Object
  scope : String
  producer : String
  drops : Script WindowTables
  writes : Script WindowTables
  pins : Script WindowTables
  gaps : Script WindowTables
  fields_eq : object state = .ok fields
  scope_eq : text fields "scope" = .ok scope
  producer_eq : text fields "producer" = .ok producer
  drops_eq : dropRows scope producer old new = .ok drops
  writes_eq : writeRows scope producer plan.revision old new = .ok writes
  pins_eq : addPins scope producer old new = .ok pins
  gaps_eq : replaceGaps scope producer old new = .ok gaps
  body_eq : plan.body = [createPayload] ++ dropPins old new ++ drops ++ writes ++ pins ++ gaps ++ prune plan.revision ++
    [upsertState state, insertResult]

theorem plan_eq_ok {old new : Image} {p : Plan} (h : plan old new = .ok p) :
    ∃ state, Planned old new state p ∧ Nonempty (PlanParts old new state p) := by
  unfold plan at h
  split at h
  · exact nomatch h
  rename_i state hstate
  obtain ⟨fields, hfields, h⟩ := Result.bind_eq_ok.1 h
  obtain ⟨revision, hnumber, h⟩ := Result.bind_eq_ok.1 h
  obtain ⟨checked, hchecked, hrest⟩ := Result.bind_eq_ok.1 h
  clear h
  obtain ⟨rfl, hle⟩ := integer_eq_ok.1 hchecked
  obtain ⟨expected, hexpected, h⟩ := Result.bind_eq_ok.1 hrest
  obtain ⟨hfollows, h⟩ := Result.ite_error_eq_ok.1 h
  obtain ⟨scope, hscope, h⟩ := Result.bind_eq_ok.1 h
  obtain ⟨producer, hproducer, h⟩ := Result.bind_eq_ok.1 h
  obtain ⟨drops, hdrops, h⟩ := Result.bind_eq_ok.1 h
  obtain ⟨writes, hwrites, h⟩ := Result.bind_eq_ok.1 h
  obtain ⟨payload, hpayload, h⟩ := Result.bind_eq_ok.1 h
  obtain ⟨pins, hpins, h⟩ := Result.bind_eq_ok.1 h
  obtain ⟨gaps, hgaps, h⟩ := Result.bind_eq_ok.1 h
  cases h
  have hnext : expected + 1 = checked := not_not.1 hfollows
  refine ⟨state, ?_, ⟨⟨fields, scope, producer, drops, writes, pins, gaps, hfields, hscope, hproducer, hdrops, hwrites,
    hpins, hgaps, rfl⟩⟩⟩
  refine ⟨hstate, ?_, ?_, ?_, hle, payloadBytes_lt hpayload, ?_⟩
  · rw [revisionOf, hfields]
    exact hnumber
  · rw [hexpected]
    simp only [Except.ok.injEq]
    omega
  · simp only
    omega
  · refine ⟨[createPayload] ++ dropPins old new ++ drops ++ writes ++ pins ++ gaps, rfl, by simp, ?_⟩
    intro statement hmem
    simp only [List.mem_append, List.mem_singleton] at hmem
    rcases hmem with ((((rfl | hmem) | hmem) | hmem) | hmem) | hmem
    · exact onTables_createPayload
    · exact dropPins_onTables old new statement hmem
    · exact dropRows_onTables hdrops statement hmem
    · exact writeRows_onTables hwrites statement hmem
    · exact addPins_onTables hpins statement hmem
    · exact replaceGaps_onTables hgaps statement hmem

/-! ### What a body leaves -/

def pruned (revision : Nat) (receipts : List ReceiptRow) : List ReceiptRow :=
  if replayRows < revision then receipts.filter fun r => !Prunes (revision - replayRows) r else receipts

/-- The receipts a body leaves and the counters its batch answers with. -/
theorem planned_receipts {old new : Image} {state : String} {p : Plan} (hplan : Planned old new state p)
    {s t : Session WindowTables} {rows : Rows} (h : p.body.run s = .ok (t, rows)) :
    t.receipts = upsertStateRow state (pruned p.revision s.receipts) ∧ t.lastInsertRowid = 1 ∧ t.changes = 1 := by
  obtain ⟨front, hbody, -, hfront⟩ := hplan.body_eq
  rw [hbody, Script.run_append_ok] at h
  obtain ⟨v, first, last, hfirst, hlast, -⟩ := h
  rw [Script.run_append_ok] at hfirst
  obtain ⟨u, before, middle, hbefore, hprune, -⟩ := hfirst
  have hreceipts : u.receipts = s.receipts := Script.leavesReceipts_of_forall hfront s u before hbefore
  have hpruned : v.receipts = pruned p.revision u.receipts := by
    unfold prune at hprune
    unfold pruned
    by_cases hlt : replayRows < p.revision
    · rw [if_pos hlt] at hprune ⊢
      obtain ⟨w, out, more, hw, hnil, -⟩ := Script.run_cons_ok.1 hprune
      cases hw
      cases hnil
      rfl
    · rw [if_neg hlt] at hprune ⊢
      cases hprune
      rfl
  obtain ⟨w, out, more, hupsert, hresult, -⟩ := Script.run_cons_ok.1 hlast
  cases hupsert
  obtain ⟨x, out', more', hinsert, hnil, -⟩ := Script.run_cons_ok.1 hresult
  cases hinsert
  cases hnil
  refine ⟨?_, rfl, rfl⟩
  rw [← hreceipts, ← hpruned]
  rfl

/-! ### Prepared tickets -/

/-- The ticket is what `prepare` makes of the two images on a store of this identity. -/
def Prepared (identity : String) (old new : Image) (ticket : Ticket) : Prop :=
  ∃ p operation, plan old new = .ok p ∧ operation.text = ticketKey p.revision ∧
    ticket = {
      mutation := ⟨operation, identity, guardedBatch (guardText old.state) (guardHolds old.state) p.body, .insert,
        p.payloadBytes, true⟩
      revision := p.revision
      saved := savedBytes identity (guardText old.state) p.body.text p.revision p.payloadBytes }

/-- What the guard reads of a database. -/
def Unchanged (old : Option String) (db : Database WindowTables) : Prop :=
  match old with
  | some raw => stateText db.receipts = some raw
  | none => (∀ r ∈ db.receipts, r.operation ≠ stateOperation) ∧ db.tables = .empty

theorem unchanged_of_guardHolds {old : Option String} {s : Session WindowTables} (h : guardHolds old s = true) :
    Unchanged old s.toDatabase := by
  cases old with
  | some raw => simpa [guardHolds, Unchanged] using h
  | none =>
    simp only [guardHolds, Bool.and_eq_true, List.isEmpty_iff, Bool.not_eq_true', List.any_eq_false] at h
    obtain ⟨⟨⟨hstate, hrows⟩, hpins⟩, hgaps⟩ := h
    refine ⟨fun r hr => by simpa using hstate r hr, ?_⟩
    have htables : s.tables = ⟨s.tables.observations, s.tables.pins, s.tables.gaps⟩ := rfl
    rw [htables, hrows, hpins, hgaps]
    rfl

theorem Unchanged.stateOwned {old : Option String} {db : Database WindowTables} (h : Unchanged old db) :
    StateOwned db.receipts := by
  cases old with
  | some raw =>
    refine .inl ?_
    rw [show stateText db.receipts = some raw from h]
    rfl
  | none => exact .inr h.1

/-- The receipt an applied ticket leaves. -/
def Ticket.receipt (ticket : Ticket) : ReceiptRow :=
  ⟨ticketKey ticket.revision, ticket.mutation.request, encodeResponse [["1"], ["1"]]⟩

/-- What applying a ticket did. -/
structure Applied (old new : Image) (ticket : Ticket) (db next : Database WindowTables) : Prop where
  fresh : findReceipt db.receipts (ticketKey ticket.revision) = none
  unchanged : Unchanged old.state db
  ran : ∃ p state u v, Planned old new state p ∧ Nonempty (PlanParts old new state p) ∧ p.revision = ticket.revision ∧
    u.toDatabase = db ∧ p.body.run u = .ok (v, []) ∧ next.tables = v.tables
  receipts : ∃ state, new.state = some state ∧
    next.receipts = upsertStateRow state (pruned ticket.revision db.receipts) ++ [ticket.receipt]

theorem stage_prepared {identity : String} {old new : Image} {ticket : Ticket}
    (hprepared : Prepared identity old new ticket) {store : SqliteStore} {host : Host} {db staged : Database WindowTables}
    {rows : Rows} (hnone : findReceipt db.receipts ticket.mutation.operation.text = none)
    (h : stage store ticket.mutation host db = .ok (staged, rows)) :
    rows = [["1"], ["1"]] ∧ Applied old new ticket db staged := by
  obtain ⟨p, operation, hplan, hoperation, rfl⟩ := hprepared
  obtain ⟨state, hplanned, hparts⟩ := plan_eq_ok hplan
  obtain ⟨happly, hvalid⟩ := stage_eq_ok h
  obtain ⟨s, hrun, rfl⟩ := Application.apply_eq_some.1 happly
  obtain ⟨hguard, u, v, inner, hu, -, hbody, hdb, hrows⟩ := run_guardedBatch hrun
  obtain ⟨hreceipts, hrowid, hchanges⟩ := planned_receipts hplanned hbody
  obtain ⟨cell, n, hcell, -⟩ := validateRows_insert.1 hvalid
  -- the batch answers with its two counters only, so the body answered nothing
  have hanswer : inner ++ [[Nat.repr v.lastInsertRowid], [Nat.repr v.changes]] = [[cell], ["1"]] :=
    hrows.symm.trans hcell
  have hinner : inner = [] := by
    have hlen := congrArg List.length hanswer
    simp only [List.length_append, List.length_cons, List.length_nil] at hlen
    exact List.length_eq_zero_iff.1 (by omega)
  have hanswered : rows = [["1"], ["1"]] := by
    refine Eq.trans hrows ?_
    rw [hinner, hrowid, hchanges]
    rfl
  have hdb' : u.toDatabase = db := by
    rw [hu]
    rfl
  refine ⟨hanswered, ?_, ?_, ?_, ?_⟩
  · rw [← hoperation]
    exact hnone
  · exact unchanged_of_guardHolds hguard
  · refine ⟨p, state, u, v, hplanned, hparts, rfl, hdb', ?_, ?_⟩
    · rw [hbody, hinner]
    · have htables : s.tables = v.tables := congrArg Database.tables hdb
      exact htables
  · refine ⟨state, hplanned.state_eq, ?_⟩
    have hsreceipts : s.receipts = v.receipts := congrArg Database.receipts hdb
    have hureceipts : u.receipts = db.receipts := congrArg Database.receipts hdb'
    simp only [hsreceipts, hreceipts, hureceipts, Application.receipt, Ticket.receipt, hoperation, hanswered]

theorem submit_prepared {identity : String} {old new : Image} {ticket : Ticket}
    (hprepared : Prepared identity old new ticket) (store : SqliteStore) (host : Host) (db : Database WindowTables) :
    (Storage.submit store ticket.mutation host db).1 = db ∨
      Applied old new ticket db (Storage.submit store ticket.mutation host db).1 := by
  have hcases := submit_cases store ticket.mutation host db
  generalize (Storage.submit store ticket.mutation host db).1 = next at hcases ⊢
  generalize (Storage.submit store ticket.mutation host db).2 = out at hcases
  cases hcases with
  | foreign | refused | unread | replayed | rolledBack => exact .inl rfl
  | applied _ hnone staged rows hs => exact .inr (stage_prepared hprepared hnone hs).2
  | unseen _ hnone staged rows hs applied =>
    cases applied with
    | false => exact .inl rfl
    | true => exact .inr (stage_prepared hprepared hnone hs).2

theorem Prepared.operation {identity : String} {old new : Image} {ticket : Ticket}
    (h : Prepared identity old new ticket) : ticket.mutation.operation.text = ticketKey ticket.revision := by
  obtain ⟨p, operation, -, hoperation, rfl⟩ := h
  exact hoperation

theorem Prepared.store {identity : String} {old new : Image} {ticket : Ticket}
    (h : Prepared identity old new ticket) : ticket.mutation.store = identity := by
  obtain ⟨p, operation, -, -, rfl⟩ := h
  rfl

theorem Prepared.shape {identity : String} {old new : Image} {ticket : Ticket}
    (h : Prepared identity old new ticket) : ticket.mutation.shape = .insert := by
  obtain ⟨p, operation, -, -, rfl⟩ := h
  rfl

theorem Prepared.attempted {identity : String} {old new : Image} {ticket : Ticket}
    (h : Prepared identity old new ticket) : ticket.mutation.attempted = true := by
  obtain ⟨p, operation, -, -, rfl⟩ := h
  rfl

theorem Prepared.revision_pos {identity : String} {old new : Image} {ticket : Ticket}
    (h : Prepared identity old new ticket) : 0 < ticket.revision := by
  obtain ⟨p, operation, hplan, -, rfl⟩ := h
  obtain ⟨state, hplanned, -⟩ := plan_eq_ok hplan
  exact hplanned.pos

/-! ### The revision -/

/-- The revision of the durable state, zero before the first. -/
def revision (db : Database WindowTables) : Nat :=
  match stateText db.receipts with
  | none => 0
  | some raw => (revisionOf raw).toOption.getD 0

theorem revision_of_state {db : Database WindowTables} {raw : String} {n : Nat}
    (hstate : stateText db.receipts = some raw) (hn : revisionOf raw = .ok n) : revision db = n := by
  unfold revision
  rw [hstate]
  simp [hn, Except.toOption]

theorem Applied.revision_before {old new : Image} {ticket : Ticket} {db next : Database WindowTables}
    (h : Applied old new ticket db next) : revision db + 1 = ticket.revision := by
  obtain ⟨p, state, u, v, hplanned, -, hrevision, -, -, -⟩ := h.ran
  have hpos := hplanned.pos
  have hfollows := hplanned.follows
  have hunchanged := h.unchanged
  rw [← hrevision]
  cases hold : old.state with
  | none =>
    rw [hold] at hfollows hunchanged
    have hzero : p.revision - 1 = 0 := (Except.ok.inj hfollows).symm
    have hnone : stateText db.receipts = none := by
      unfold stateText
      rw [Option.map_eq_none_iff, List.find?_eq_none]
      intro r hr
      simp [hunchanged.1 r hr]
    unfold revision
    rw [hnone]
    simp only
    omega
  | some raw =>
    rw [hold] at hfollows hunchanged
    rw [revision_of_state hunchanged hfollows]
    omega

theorem Applied.stateText_after {old new : Image} {ticket : Ticket} {db next : Database WindowTables}
    (h : Applied old new ticket db next) : stateText next.receipts = new.state := by
  obtain ⟨state, hstate, hreceipts⟩ := h.receipts
  have howned : StateOwned (pruned ticket.revision db.receipts) := by
    unfold pruned
    split
    · rcases h.unchanged.stateOwned with hsome | hnone
      · exact .inl (by rwa [stateText_prune])
      · exact .inr fun r hr => hnone r (List.mem_of_mem_filter hr)
    · exact h.unchanged.stateOwned
  rw [hreceipts, stateText_append, stateText_upsertState howned, hstate]
  intro hkey
  exact absurd hkey (ticketKey_ne_stateOperation _)

theorem Applied.revision_after {old new : Image} {ticket : Ticket} {db next : Database WindowTables}
    (h : Applied old new ticket db next) : revision next = ticket.revision := by
  obtain ⟨p, state, u, v, hplanned, -, hrevision, -, -, -⟩ := h.ran
  have hstate : stateText next.receipts = some state := h.stateText_after.trans hplanned.state_eq
  rw [revision_of_state hstate hplanned.revision_eq, hrevision]

/-- The receipts of the tickets after one of them is applied: its own, and those of its horizon. -/
theorem Applied.findReceipt {old new : Image} {ticket : Ticket} {db next : Database WindowTables}
    (h : Applied old new ticket db next) {r : Nat} (hpos : 0 < r) :
    Storage.findReceipt next.receipts (ticketKey r) =
      if r = ticket.revision then some ticket.receipt
      else if r + replayRows ≤ ticket.revision then none
      else Storage.findReceipt db.receipts (ticketKey r) := by
  obtain ⟨state, -, hreceipts⟩ := h.receipts
  have hpruned : Storage.findReceipt (pruned ticket.revision db.receipts) (ticketKey r) =
      if r + replayRows ≤ ticket.revision then none else Storage.findReceipt db.receipts (ticketKey r) := by
    unfold pruned
    by_cases hlt : replayRows < ticket.revision
    · rw [if_pos hlt]
      by_cases hold : r + replayRows ≤ ticket.revision
      · rw [if_pos hold]
        exact findReceipt_prune_le (ticketNumber_ticketKey r) (by omega)
      · rw [if_neg hold]
        refine findReceipt_prune fun n hn => ?_
        rw [ticketNumber_ticketKey] at hn
        obtain rfl := Option.some.inj hn
        omega
    · rw [if_neg hlt, if_neg (by omega)]
  rw [hreceipts, findReceipt_append, findReceipt_upsertState (ticketKey_ne_stateOperation r), hpruned]
  by_cases hown : r = ticket.revision
  · have hlater : ¬ r + replayRows ≤ ticket.revision := by
      simp only [replayRows]
      omega
    rw [if_pos hown, if_neg hlater, hown, h.fresh]
    simp [Ticket.receipt]
  · have hkey : ticket.receipt.operation ≠ ticketKey r := fun heq => hown (ticketKey_injective heq.symm)
    rw [if_neg hown, if_neg hkey, Option.or_none]

end Verdant.Observation
