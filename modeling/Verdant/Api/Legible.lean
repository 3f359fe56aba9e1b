import Verdant.Api.JournalRuns
import Verdant.Seal.Codec
import Verdant.Storage.Chunks

/-!
# Journals that read back

The codec of the journal round-trips within its limits.  A row of an intent reads as the intent exactly where its bytes
are within the limit of the read, which is a constant, while what an append may write is bounded by the budget of its
store.  So whatever the bounds of their stores, the coordinators keep each scope a list of distinct intents (`Scribed`),
and its history reads exactly where the bytes of every one of them are within that constant and the listing fits the
budgets of the read.
-/

namespace Verdant.Api

open TextCodec Storage Access Binding Prog

/-! ### The codec -/

theorem repr_of_numberUsize {raw : String} {n : Nat} (h : numberUsize raw = .ok n) : Nat.repr n = raw := by
  unfold numberUsize number at h
  split at h
  · exact nomatch h
  · rw [Result.ite_error_eq_ok] at h
    obtain ⟨hspell, h⟩ := h
    cases h
    exact not_not.1 hspell

/-- The accepted texts are the encodings within the limits. -/
theorem decode_eq_ok {raw : String} {bytes limit : Nat} (hbound : bytes < 2 ^ 64) {fields : List String} :
    decode raw bytes limit = .ok fields ↔ encode fields = raw ∧ raw.utf8ByteSize ≤ bytes ∧ fields.length ≤ limit := by
  refine decodeFrames_eq_ok (fun n hn => ?_) fun s n => repr_of_numberUsize
  exact numberUsize_repr (Nat.lt_of_le_of_lt hn hbound)

theorem numberU32_repr (n : UInt32) : numberU32 (Nat.repr n.toNat) = .ok n := by
  unfold numberU32 number
  rw [parseUInt32_repr]
  simp

theorem Digest.parse_text (digest : Digest) : Digest.parse digest.text = .ok digest := by
  unfold Digest.parse
  rw [dif_pos digest.valid]

theorem size_acceptanceBytes (request : AcceptanceRequest) : (acceptanceBytes request).utf8ByteSize ≤ 512 := by
  have hexpected : (Nat.repr request.expected.value.toNat).utf8ByteSize ≤ 128 := by
    have hdigits := utf8ByteSize_repr_le (n := request.expected.value.toNat) (k := 10) (by decide)
      (Nat.lt_trans request.expected.value.toNat_lt (by decide))
    omega
  have hstaged : request.stagedOperation.text.utf8ByteSize ≤ 128 := request.stagedOperation.valid.2.1
  have hseal : request.seal.text.utf8ByteSize ≤ 128 := by
    have hsize := request.seal.valid.1
    omega
  have hfields : ∀ f ∈ [Nat.repr request.expected.value.toNat, request.stagedOperation.text, request.seal.text],
      f.utf8ByteSize ≤ 128 := by
    simp only [List.forall_mem_cons]
    exact ⟨hexpected, hstaged, hseal, fun f hf => nomatch hf⟩
  have hsum := Seal.utf8ByteSize_encode_le (k := 3) (by decide) hfields (by decide)
  exact Nat.le_trans hsum (by simp)

/-- The acceptance an intent was remembered for is read back from it. -/
theorem acceptanceRequest_acceptanceBytes {intent : Intent} {request : AcceptanceRequest} (hkind : intent.kind = .accept)
    (hrequest : intent.request = acceptanceBytes request)
    (hoperation : child effectFront intent.operation = .ok request.operation) (hscope : intent.scope = request.scope) :
    acceptanceRequest intent = .ok request := by
  have hread : decode intent.request 512 3 =
      .ok [Nat.repr request.expected.value.toNat, request.stagedOperation.text, request.seal.text] := by
    rw [hrequest, decode_eq_ok (by decide)]
    exact ⟨rfl, size_acceptanceBytes request, Nat.le_refl 3⟩
  have hexpected : AcceptedRevision.new request.expected.value = some request.expected := dif_pos request.expected.le_max
  unfold acceptanceRequest
  rw [if_neg (not_not.2 hkind), hread, Result.ok_bind]
  unfold acceptanceFields
  simp only
  rw [hoperation, Result.ok_bind, numberU32_repr, Result.ok_bind, hexpected]
  simp only
  rw [OperationId.parse_text, hscope]
  simp only [Except.mapError, Result.ok_bind, Digest.parse_text]

/-! ### Rows of intents -/

/-- The row was written for the intent, of whatever size. -/
structure Carries (r : OutboxRecord) (i : Intent) : Prop where
  value : r.valueJson = (Value.text i.bytes).toJson
  operation : IsApi i.operation
  subject : IsApi i.subject
  parent : ∀ p ∈ i.parent, IsApi p

/-- The bytes of the intent are within the limit of a read. -/
def Short (i : Intent) : Prop := i.bytes.utf8ByteSize ≤ 65536

section Rows

variable {r : OutboxRecord} {i : Intent}

theorem Carries.decode_short (h : Carries r i) (hpos : 0 < r.id) (hlt : r.id < 2 ^ 63) (hshort : Short i) :
    Intent.decode (intentColumns r) = .ok { i with rowId := r.id } := by
  unfold intentColumns
  rw [h.value]
  exact Intent.decode_of_readable ⟨h.operation, h.subject, h.parent, hshort⟩ hpos hlt

/-- A row of more bytes does not read. -/
theorem Carries.decode_long (h : Carries r i) (hlong : ¬ Short i) :
    Intent.decode (intentColumns r) = .error (.limit "API encoded bytes") := by
  have hread : decode i.bytes 65536 8 = .error (.limit "API encoded bytes") := by
    have hbytes : 65536 < i.bytes.utf8ByteSize := Nat.lt_of_not_le hlong
    unfold decode decodeFrames
    rw [if_pos hbytes]
    rfl
  unfold intentColumns Intent.decode
  simp only
  rw [h.value, textColumn_toJson, Result.ok_bind, hread]
  rfl

/-- A row reads as its intent exactly where the bytes are within the limit. -/
theorem Carries.decode_eq_ok (h : Carries r i) (hpos : 0 < r.id) (hlt : r.id < 2 ^ 63) :
    Intent.decode (intentColumns r) = .ok { i with rowId := r.id } ↔ Short i := by
  constructor
  · intro hread
    by_contra hlong
    rw [h.decode_long hlong] at hread
    exact nomatch hread
  · exact h.decode_short hpos hlt

end Rows

/-! ### Histories -/

/-- The rows of a scope. -/
def scopeLog (scope : TrustedScope) (db : Database OutboxTables) : List OutboxRecord := logOf (isIntentOf scope) db.tables

/-- The rows are of distinct intents of the scope, as many as a scope may have. -/
structure Penned (scope : TrustedScope) (rows : List OutboxRecord) (intents : List Intent) : Prop where
  carries : List.Forall₂ Carries rows intents
  within : ∀ i ∈ intents, i.scope = scope
  distinct : (intents.map Intent.operation).Nodup
  bounded : intents.length ≤ maxWork

section Histories

variable {scope : TrustedScope} {rows : List OutboxRecord} {intents : List Intent}

theorem Penned.nil : Penned scope [] [] := ⟨.nil, fun i hi => (nomatch hi), List.nodup_nil, Nat.zero_le _⟩

theorem Penned.append (h : Penned scope rows intents) {r : OutboxRecord} {i : Intent} (hr : Carries r i)
    (hscope : i.scope = scope) (hfresh : ∀ old ∈ intents, old.operation ≠ i.operation)
    (hroom : intents.length < maxWork) : Penned scope (rows ++ [r]) (intents ++ [i]) where
  carries := List.rel_append h.carries (.cons hr .nil)
  within j hj := by
    rcases List.mem_append.1 hj with hj | hj
    · exact h.within j hj
    · rw [List.mem_singleton.1 hj]
      exact hscope
  distinct := by
    rw [List.map_append, List.nodup_append]
    refine ⟨h.distinct, List.nodup_singleton _, ?_⟩
    intro a ha b hb hab
    obtain ⟨old, hold, rfl⟩ := List.mem_map.1 ha
    rw [List.map_singleton, List.mem_singleton] at hb
    exact hfresh old hold (hab.trans hb)
  bounded := by
    rw [List.length_append, List.length_singleton]
    omega

/-- A join of rows whose intents are distinct and of the scope: it reads where all are short. -/
theorem joinIntents_carries (hcarries : List.Forall₂ Carries rows intents) (hids : ∀ r ∈ rows, 0 < r.id ∧ r.id < 2 ^ 63)
    (hwithin : ∀ i ∈ intents, i.scope = scope) (hdistinct : (intents.map Intent.operation).Nodup) {seen : List OperationId}
    (hseen : ∀ i ∈ intents, i.operation ∉ seen) (hshort : ∀ i ∈ intents, Short i) :
    ∃ history, joinIntents scope seen (rows.map intentColumns) = .ok history ∧
      history.map Intent.operation = intents.map Intent.operation := by
  induction hcarries generalizing seen with
  | nil => exact ⟨[], rfl, rfl⟩
  | @cons r i rows intents hr hcarries ih =>
    obtain ⟨hpos, hlt⟩ := hids r List.mem_cons_self
    rw [List.map_cons, List.nodup_cons] at hdistinct
    have hrest : ∀ j ∈ intents, j.operation ∉ i.operation :: seen := by
      intro j hj hmem
      rcases List.mem_cons.1 hmem with heq | hmem
      · exact hdistinct.1 (heq ▸ List.mem_map_of_mem hj)
      · exact hseen j (List.mem_cons_of_mem _ hj) hmem
    obtain ⟨history, hjoin, hops⟩ := ih (fun x hx => hids x (List.mem_cons_of_mem _ hx))
      (fun j hj => hwithin j (List.mem_cons_of_mem _ hj)) hdistinct.2 hrest
      fun j hj => hshort j (List.mem_cons_of_mem _ hj)
    have hread := hr.decode_short hpos hlt (hshort i List.mem_cons_self)
    have hfresh : ¬(({ i with rowId := r.id } : Intent).scope ≠ scope ∨
        ({ i with rowId := r.id } : Intent).operation ∈ seen) := by
      rintro (hne | hmem)
      · exact hne (hwithin i List.mem_cons_self)
      · exact hseen i List.mem_cons_self hmem
    refine ⟨{ i with rowId := r.id } :: history, ?_, ?_⟩
    · rw [List.map_cons, joinIntents, hread, Result.ok_bind, if_neg hfresh]
      simp only
      rw [hjoin, Result.ok_bind]
    · rw [List.map_cons, List.map_cons, hops]

/-- What a join read is short. -/
theorem short_of_joinIntents (hcarries : List.Forall₂ Carries rows intents) {seen : List OperationId}
    {history : List Intent} (h : joinIntents scope seen (rows.map intentColumns) = .ok history) :
    ∀ i ∈ intents, Short i := by
  induction hcarries generalizing seen history with
  | nil => exact fun i hi => nomatch hi
  | @cons r i rows intents hr hcarries ih =>
    rw [List.map_cons, joinIntents] at h
    obtain ⟨first, hfirst, h⟩ := Result.bind_eq_ok.1 h
    rw [Result.ite_error_eq_ok] at h
    obtain ⟨rest, hrest, -⟩ := Result.bind_eq_ok.1 h.2
    intro j hj
    rcases List.mem_cons.1 hj with rfl | hj
    · by_contra hlong
      rw [hr.decode_long hlong] at hfirst
      cases hfirst
    · exact ih hrest j hj

end Histories

/-! ### The law -/

/-- Every scope has distinct intents, of whatever size. -/
structure Scribed (db : Database OutboxTables) : Prop where
  ordered : Ordered db.tables
  penned : ∀ scope, ∃ intents, Penned scope (scopeLog scope db) intents

def scribeLaw : Law (Database OutboxTables) :=
  .keeping Scribed (fun s t => history s.tables <+: history t.tables) RowsGrow.refl @RowsGrow.trans

/-- Whatever the others do, the call keeps the scopes, and its value has `P`. -/
abbrev Scribes {α : Type} (P : Database OutboxTables → α → Prop) (s : Database OutboxTables) (x : ApiCall α) : Prop :=
  Keeps StoreOp.exec scribeLaw (fun _ => True) (fun _ _ _ => True) (onResult (fun _ (_ : ApiError) => True) P) s x.run

section Law

variable {s t : Database OutboxTables} {scope : TrustedScope}

/-- The rows of a scope are among those of the coordinators. -/
theorem scopeLog_eq (h : logOf isApiRow t.tables = logOf isApiRow s.tables) : scopeLog scope t = scopeLog scope s := by
  have hsplit : ∀ tables, logOf (isIntentOf scope) tables = (logOf isApiRow tables).filter (isIntentOf scope) := by
    intro tables
    unfold logOf
    rw [List.filter_filter]
    refine List.filter_congr fun r _ => ?_
    unfold isIntentOf isApiRow
    by_cases hr : r.operation = eventText <;> simp [hr]
  unfold scopeLog
  rw [hsplit, hsplit, h]

theorem scribed_of_other {pending : PreparedMutation OutboxTables} (own : OtherOwner isApiRow pending)
    (store : SqliteStore) (host : Host) : scribeLaw.rel t (submit store pending host t).1 := by
  intro ht
  obtain ⟨hordered, hgrows, -, hlog⟩ := own.submit store host ht.ordered
  refine ⟨⟨hordered, fun scope => ?_⟩, hgrows⟩
  rw [scopeLog_eq hlog]
  exact ht.penned scope

/-- What the condition of an append leaves to its row: the scope has distinct intents with it. -/
def Append.Extends (a : Append) (t : Database OutboxTables) : Prop :=
  a.kind = eventText → ∀ n, ∃ intents, Penned a.scope (scopeLog a.scope t ++ [a.row n]) intents

/-- A submit of an append keeps the scopes. -/
theorem scribed_of_append {a : Append} {store : SqliteStore} {ticket : PreparedMutation OutboxTables}
    (hticket : a.IsTicket store ticket) (host : Host)
    (hext : Scribed t → a.condition.holds (t.begin host.clock).tick = true → a.Extends t) :
    scribeLaw.rel t (submit store ticket host t).1 := by
  intro ht
  rcases submit_step store ticket host t with hsame | ⟨-, -, rows, happly, -⟩
  · rw [hsame]
    exact ⟨ht, List.prefix_refl _⟩
  obtain ⟨u, hrun, hnext⟩ := Application.apply_eq_some.1 happly
  have hbody : a.body.run (t.begin host.clock) = .ok (u, rows) := by
    rw [← hticket.body]
    exact hrun
  obtain ⟨hholds, happended, -, -, -⟩ := Append.run_body hbody
  have htables : (submit store ticket host t).1.tables = u.tables := by rw [hnext]
  have happended' : Appended t.tables (submit store ticket host t).1.tables [apiRow a.kind a.scope a.value] := by
    rw [htables]
    exact happended
  refine ⟨⟨happended'.ordered ht.ordered, fun scope => ?_⟩, happended'.grows⟩
  have hlog : scopeLog scope (submit store ticket host t).1 =
      scopeLog scope t ++ [a.row (t.tables.lastId + 1)].filter (isIntentOf scope) := happended'.logOf_eq _
  rw [hlog]
  by_cases hmine : isIntentOf scope (a.row (t.tables.lastId + 1)) = true
  · -- the row is an intent of the scope of the append
    have hboth := hmine
    unfold isIntentOf at hboth
    rw [Bool.and_eq_true, decide_eq_true_eq, decide_eq_true_eq] at hboth
    obtain rfl : a.scope = scope := TrustedScope.ext_text hboth.2
    rw [List.filter_cons_of_pos hmine, List.filter_nil]
    exact hext ht hholds hboth.1 _
  · rw [List.filter_cons_of_neg hmine, List.filter_nil, List.append_nil]
    exact ht.penned scope

/-- What submits nothing keeps the scopes. -/
theorem keeps_scribed {α : Type} {p : Call OutboxTables α} (hp : p.Issues NoSubmit) :
    Keeps StoreOp.exec scribeLaw (fun _ => True) (fun _ _ _ => True) (fun _ _ => True) s p :=
  Issues.keeps hp fun op m t _ hop _ => ⟨trivial, by
    rw [hop.exec m t]
    exact scribeLaw.refl t⟩

theorem scribes_noSubmit {α : Type} {x : ApiCall α} (hx : x.run.Issues NoSubmit) : Scribes (fun _ _ => True) s x := by
  refine (keeps_scribed hx).mono fun t answer _ _ => ?_
  cases answer <;> exact trivial

theorem scribes_append (api : Coordinator) (a : Append)
    (hext : ∀ t clock, scribeLaw.rel s t → Scribed t → a.condition.holds (t.begin clock).tick = true → a.Extends t) :
    Scribes (fun _ _ => True) s (api.append a.id a.kind a.scope a.value a.condition a.expiry) := by
  unfold Coordinator.append
  refine Keeps.liftBind (keeps_scribed (issues_issue trivial)) fun t id hst _ => ?_
  refine Keeps.checkBind (fun _ _ _ _ => trivial) fun pending hpending => ?_
  rw [Result.mapError_eq_ok] at hpending
  obtain ⟨-, hpending⟩ := prepareGuardedBatch_eq_ok hpending
  have hticket : a.IsTicket api.registry.store (pending.withOperation a.id) := by
    rw [hpending]
    exact ⟨rfl, rfl, rfl, rfl, rfl, rfl⟩
  refine Keeps.liftBind (P := fun _ _ => True) ?_ fun u first htu _ => ?_
  · refine keeps_issue (G := fun _ _ _ => True) (P := fun _ _ => True) fun u htu m _ => ⟨trivial, ?_, fun _ _ => trivial⟩
    exact scribed_of_append hticket m.host fun hu hholds => hext u m.host.clock (scribeLaw.trans hst htu) hu hholds
  refine Keeps.liftBind (P := fun _ _ => True) ?_ fun v out huv _ => ?_
  · cases first with
    | unknown op detail => exact keeps_scribed (issues_issue trivial)
    | committed | notCommitted | conflict => exact keeps_done fun _ _ => trivial
  cases rowOutcome out with
  | error e => exact keeps_done fun _ _ => trivial
  | ok row => cases row <;> exact keeps_done fun _ _ => trivial

end Law

/-! ### Calls -/

section Calls

variable {s : Database OutboxTables} {scope : TrustedScope}

theorem Scribed.ids (hs : Scribed s) : ∀ r ∈ scopeLog scope s, 0 < r.id ∧ r.id < 2 ^ 63 :=
  fun _ hr => hs.ordered.id_pos (List.mem_filter.1 hr).1

/-- A history that was read is that of the rows it was read from. -/
theorem Penned.read {rows : List OutboxRecord} {intents history : List Intent} (h : Penned scope rows intents)
    (hids : ∀ r ∈ rows, 0 < r.id ∧ r.id < 2 ^ 63) (hread : joinIntents scope [] (rows.map intentColumns) = .ok history) :
    history.map Intent.operation = intents.map Intent.operation := by
  obtain ⟨again, hagain, hops⟩ := joinIntents_carries h.carries hids h.within h.distinct
    (fun _ _ => List.not_mem_nil) (short_of_joinIntents h.carries hread)
  rw [hread] at hagain
  rw [Except.ok.inj hagain, hops]

/-- What a read of a scope gives: the operations of its intents, as they stood at some moment. -/
theorem scribes_intents (hs : Scribed s) (scope : TrustedScope) :
    Scribes (fun t history => ∃ u intents, scribeLaw.rel s u ∧ scribeLaw.rel u t ∧
      Penned scope (scopeLog scope u) intents ∧ history.map Intent.operation = intents.map Intent.operation) s
      (intents scope) := by
  unfold intents
  refine Keeps.tryBind (P := fun t rows => ∃ u, scribeLaw.rel s u ∧ scribeLaw.rel u t ∧
    rows = ((scopeLog scope u).take (maxWork + 1)).map intentColumns) ?_ fun t rows hst hrows => ?_
  · unfold readRows
    refine Keeps.mapErr (F := fun _ _ => True) ?_ fun _ _ _ _ => trivial
    refine keeps_look (G := fun _ _ _ => True) (fun _ _ => rfl)
      (fun _ _ _ => trivial) fun u hsu m _ v huv => ?_
    have hanswer : (StoreOp.exec (.read (selectIntents scope)) m u).2 = execScript m (selectIntents scope) u := rfl
    rw [hanswer]
    unfold execScript
    cases m.read with
    | some fault => exact trivial
    | none => exact ⟨u, hsu, huv, rfl⟩
  · obtain ⟨u, hsu, hut, rfl⟩ := hrows t (scribeLaw.refl t)
    have hu := (hsu hs).1
    obtain ⟨intents, hpenned⟩ := hu.penned scope
    have hall : (scopeLog scope u).take (maxWork + 1) = scopeLog scope u := by
      have hlen := hpenned.carries.length_eq
      have hbound := hpenned.bounded
      exact List.take_of_length_le (by omega)
    split
    · exact keeps_done fun _ _ => trivial
    refine keeps_check fun v htv => ?_
    rw [hall]
    cases hread : joinIntents scope [] ((scopeLog scope u).map intentColumns) with
    | error e => exact trivial
    | ok history => exact ⟨u, intents, hsu, scribeLaw.trans hut htv, hpenned, hpenned.read hu.ids hread⟩

/-- The append of an intent adds one of a new operation to the history it was decided on. -/
theorem Entry.append_extends (e : Entry) (hop : IsApi e.op) {u t : Database OutboxTables} {id : OperationId}
    {authority : Authority} {intents history : List Intent} (hpenned : Penned e.scope (scopeLog e.scope u) intents)
    (hops : history.map Intent.operation = intents.map Intent.operation)
    (hfresh : ∀ old ∈ history, old.operation ≠ e.op) (hroom : history.length ≠ maxWork) (hu : Scribed u)
    (hut : scribeLaw.rel u t) {clock : Nat → Int64}
    (hholds : (e.append id authority history.length).condition.holds (t.begin clock).tick = true) :
    (e.append id authority history.length).Extends t := by
  intro _ n
  have hlen : history.length = intents.length := by
    have := congrArg List.length hops
    rwa [List.length_map, List.length_map] at this
  have hguard : (authority.guard.holds t.tables && countIs (isIntentOf e.scope) history.length t.tables &&
      (findReceipt t.receipts (journalFront ++ "-" ++ e.op.text)).isNone) = true := hholds
  rw [Bool.and_eq_true, Bool.and_eq_true] at hguard
  have hcount : (scopeLog e.scope t).length = history.length := of_decide_eq_true hguard.1.2
  have hsame : scopeLog e.scope t = scopeLog e.scope u := by
    refine logOf_eq_of_length (hut hu).2 ?_
    have hrows := hpenned.carries.length_eq
    unfold scopeLog at hcount hrows
    omega
  have hbound := hpenned.bounded
  refine ⟨intents ++ [e.intent (actorText authority.report.actor)], ?_⟩
  have hscope : (e.append id authority history.length).scope = e.scope := rfl
  rw [hscope, hsame]
  refine hpenned.append ⟨rfl, hop, ?_, e.parent_api⟩ rfl (fun old hold heq => ?_) (by omega)
  · exact e.subject_isApi hop _
  · have hmem : old.operation ∈ history.map Intent.operation := by
      rw [hops]
      exact List.mem_map_of_mem hold
    obtain ⟨found, hfound, hfoundop⟩ := List.mem_map.1 hmem
    exact hfresh found hfound (hfoundop.trans heq)

theorem scribes_remember (api : Coordinator) (e : Entry) (credential : Credential) (recovery : Bool) (hs : Scribed s) :
    Scribes (fun _ _ => True) s (api.remember credential e.scope e.op e.kind e.subject e.parent e.request recovery) := by
  unfold Coordinator.remember
  refine Keeps.checkBind (fun _ _ _ _ => trivial) fun op hop => ?_
  obtain ⟨htext, hapi⟩ := operation_eq_ok hop
  obtain rfl := OperationId.ext_text htext
  refine Keeps.tryBind (scribes_intents hs e.scope) fun t history hst hread => ?_
  obtain ⟨u, intents, hsu, hut, hpenned, hops⟩ := hread t (scribeLaw.refl t)
  have hu := (hsu hs).1
  have hauthority : (api.authority (some credential) e.scope (if recovery then .sense else .drive)).run.Issues NoSubmit :=
    Issues.mapErr (authority_noSubmit api.gate _ _ _ api.paths)
  refine Keeps.tryBind (scribes_noSubmit hauthority) fun v authority htv _ => ?_
  cases hfind : history.find? fun i => decide (i.operation = e.op) with
  | some old =>
    refine keeps_check fun w _ => ?_
    cases repeated old e.kind e.subject e.parent e.request <;> exact trivial
  | none =>
    have hfresh : ∀ old ∈ history, old.operation ≠ e.op := by
      intro old hold hsame
      exact absurd (by simpa using hsame) (List.find?_eq_none.1 hfind old hold)
    refine Keeps.checkBind (fun _ _ _ _ => trivial) fun _ hadmits => ?_
    have hroom : history.length ≠ maxWork := by
      unfold admitIntent at hadmits
      rw [Result.ite_error_eq_ok] at hadmits
      exact hadmits.1
    refine Keeps.checkBind (fun _ _ _ _ => trivial) fun id _ => ?_
    refine Keeps.tryBind (scribes_append api (e.append id authority history.length) fun w clock hvw _ hholds => ?_)
      fun _ _ _ _ => keeps_done fun _ _ => trivial
    exact e.append_extends hapi hpenned hops hfresh hroom hu (scribeLaw.trans hut (scribeLaw.trans htv hvw)) hholds

theorem scribes_cancel (api : Coordinator) (credential : Option Credential) (scope : TrustedScope) (op : OperationId) :
    Scribes (fun _ _ => True) s (api.cancel credential scope op) := by
  unfold Coordinator.cancel
  refine Keeps.tryBind (scribes_noSubmit (authenticate_noSubmit api credential scope true)) fun t _ _ _ => ?_
  refine Keeps.tryBind (scribes_noSubmit (findIntent_noSubmit scope op)) fun u intent _ _ => ?_
  refine Keeps.tryBind (scribes_noSubmit (cancelled_noSubmit intent)) fun v stopped _ _ => ?_
  split
  · exact keeps_done fun _ _ => trivial
  have hauthority : (api.authority credential scope .drive).run.Issues NoSubmit :=
    Issues.mapErr (authority_noSubmit api.gate credential scope .drive api.paths)
  refine Keeps.tryBind (scribes_noSubmit hauthority) fun w authority _ _ => ?_
  refine Keeps.checkBind (fun _ _ _ _ => trivial) fun id _ => ?_
  refine Keeps.tryBind (scribes_append api ⟨id, cancelText, scope, cancelValue op, .ofGuard authority.guard,
    expiryOf authority⟩ fun _ _ _ _ _ hkind => absurd hkind (by decide : cancelText ≠ eventText))
    fun _ _ _ _ => keeps_done fun _ _ => trivial

end Calls

/-! ### Runs -/

/-- A call on the journal: of a coordinator whose store has any bounds, or another owner's submit. -/
inductive JournalRequest where
  | remember (api : Coordinator) (e : Entry) (credential : Credential) (recovery : Bool)
  | cancel (api : Coordinator) (credential : Option Credential) (scope : TrustedScope) (op : OperationId)
  | other (store : SqliteStore) (pending : PreparedMutation OutboxTables) (own : OtherOwner isApiRow pending)

def JournalRequest.call : JournalRequest → ApiCall Unit
  | .remember api e credential recovery => do
    let _ ← api.remember credential e.scope e.op e.kind e.subject e.parent e.request recovery
    return ()
  | .cancel api credential scope op => api.cancel credential scope op
  | .other store pending _ => do
    let _ ← (Call.submit store pending : Call OutboxTables MutationOutcome)
    return ()

theorem scribes_call (r : JournalRequest) {s : Database OutboxTables} (hs : Scribed s) :
    Scribes (fun _ _ => True) s r.call := by
  cases r with
  | remember api e credential recovery =>
    exact Keeps.tryBind (scribes_remember api e credential recovery hs) fun _ _ _ _ => keeps_done fun _ _ => trivial
  | cancel api credential scope op => exact scribes_cancel api credential scope op
  | other store pending own =>
    refine Keeps.liftBind (P := fun _ _ => True) ?_ fun _ _ _ _ => keeps_done fun _ _ => trivial
    refine keeps_issue (G := fun _ _ _ => True) (P := fun _ _ => True) fun t _ m _ => ⟨trivial, ?_, fun _ _ => trivial⟩
    exact scribed_of_other own store m.host

theorem EmptyJournal.scribed (start : EmptyJournal) : Scribed start.db where
  ordered := start.ordered
  penned scope := by
    have hempty : scopeLog scope start.db = [] := by
      have hlog : logOf isApiRow start.db.tables = logOf isApiRow OutboxTables.empty := start.empty
      exact scopeLog_eq (s := ⟨OutboxTables.empty, []⟩) (t := start.db) hlog
    rw [hempty]
    exact ⟨[], .nil⟩

/-- The database after the turns of the calls. -/
def journalRun (start : EmptyJournal) (turns : List (Turn JournalRequest Moment)) : Database OutboxTables :=
  ((Pool.idle start.db).played StoreOp.exec (fun _ (r : JournalRequest) => r.call.run) turns).state

theorem scribed_journalRun (start : EmptyJournal) (turns : List (Turn JournalRequest Moment)) :
    Scribed (journalRun start turns) := by
  have hserve : ∀ s (answers : List (Option (Except ApiError Unit))) (r : JournalRequest), scribeLaw.rel start.db s →
      (∀ a, some a ∈ answers → True) →
      Keeps StoreOp.exec scribeLaw (fun _ => True) (fun _ _ _ => True) (fun _ _ => True) s
        ((fun _ r => r.call.run) answers r) :=
    fun s _ r hs _ => (scribes_call r (hs start.scribed).1).mono fun _ _ _ _ => trivial
  have hmeets : Pool.TurnsMeet (fun _ => True) (fun _ => True) turns := fun _ _ _ _ => trivial
  obtain ⟨hrel, -, -⟩ := Pool.keeps_played (P := fun _ _ => True) (Pool.lawful_idle start.db) hserve hmeets
  exact (hrel start.scribed).1

/-! ### Listings -/

/-- The bytes with which the store answers the listing of a scope. -/
def listing (scope : TrustedScope) (db : Database OutboxTables) : List UInt8 :=
  responseBytes (((scopeLog scope db).take (maxWork + 1)).map fun r =>
    String.intercalate (String.singleton Process.colSep) (intentColumns r))

/-- The fault of reading an answer with what is left of the budgets of an operation. -/
def readFault (operation : Operation) (answer : List UInt8) : Option StorageError :=
  match operation.charge .outputBytes answer.length >>= fun o => o.charge .outputRows (answer.count newline) with
  | .ok _ => none
  | .error e => some e

/-- A committed intent of the scope. -/
def Committed (db : Database OutboxTables) (scope : TrustedScope) (i : Intent) : Prop :=
  ∃ r ∈ scopeLog scope db, Carries r i

theorem Penned.short_iff {db : Database OutboxTables} {scope : TrustedScope} {intents : List Intent}
    (h : Penned scope (scopeLog scope db) intents) : (∀ i ∈ intents, Short i) ↔ ∀ i, Committed db scope i → Short i := by
  have hrel := List.forall₂_iff_get.1 h.carries
  constructor
  · rintro hshort i ⟨r, hr, hcarries⟩
    obtain ⟨k, hk, rfl⟩ := List.getElem_of_mem hr
    have hk' : k < intents.length := hrel.1 ▸ hk
    have hsame : (intents.get ⟨k, hk'⟩).bytes = i.bytes := by
      have hvalue := (hrel.2 k hk hk').value
      have htexts : (Value.text (intents.get ⟨k, hk'⟩).bytes).toJson = (Value.text i.bytes).toJson :=
        hvalue.symm.trans hcarries.value
      have hread := congrArg Value.fromJson htexts
      rw [Json.fromJson_toJson, Json.fromJson_toJson] at hread
      exact Value.text.inj (Except.ok.inj hread)
    unfold Short
    rw [← hsame]
    exact hshort _ (List.get_mem _ _)
  · intro hshort i hi
    obtain ⟨k, hk, rfl⟩ := List.getElem_of_mem hi
    have hk' : k < (scopeLog scope db).length := hrel.1.symm ▸ hk
    exact hshort _ ⟨_, List.get_mem _ _, hrel.2 k hk' hk⟩

/-- Where nothing fails, a read of a scope is the join of its rows. -/
theorem Scribed.run_intents {db : Database OutboxTables} (hdb : Scribed db) (scope : TrustedScope) {m : Moment}
    (hread : m.read = none) (rest : List Moment) :
    (intents scope).run.run StoreOp.exec (m :: rest) db =
      (db, some (joinIntents scope [] ((scopeLog scope db).map intentColumns), rest)) := by
  obtain ⟨intents, hpenned⟩ := hdb.penned scope
  have hlen := hpenned.carries.length_eq
  have hbound := hpenned.bounded
  have hall : (scopeLog scope db).take (maxWork + 1) = scopeLog scope db := List.take_of_length_le (by omega)
  have hlimit : ¬ maxWork < ((scopeLog scope db).map intentColumns).length := by
    rw [List.length_map]
    omega
  have hrows : (readRows (selectIntents scope)).run.run StoreOp.exec (m :: rest) db =
      (db, some (.ok ((scopeLog scope db).map intentColumns), rest)) := by
    show (db, some ((execScript m (selectIntents scope) db).mapError ApiError.storage, rest)) = _
    unfold execScript
    rw [hread]
    exact congrArg (fun rows : List OutboxRecord => (db, some (Except.ok (rows.map intentColumns), rest))) hall
  unfold Api.intents
  rw [run_try_bind, hrows]
  simp only [if_neg hlimit]
  rfl

/-- Where nothing fails, a scope reads exactly where every intent of it is short. -/
theorem Scribed.reads_iff {db : Database OutboxTables} (hdb : Scribed db) (scope : TrustedScope) {m : Moment}
    (hread : m.read = none) (rest : List Moment) :
    (∃ history, (intents scope).run.run StoreOp.exec (m :: rest) db = (db, some (.ok history, rest))) ↔
      ∀ i, Committed db scope i → Short i := by
  obtain ⟨intents, hpenned⟩ := hdb.penned scope
  rw [hdb.run_intents scope hread rest, ← hpenned.short_iff]
  constructor
  · rintro ⟨history, h⟩
    exact short_of_joinIntents hpenned.carries (congrArg Prod.fst (Option.some.inj (congrArg Prod.snd h)))
  · intro hshort
    obtain ⟨history, hjoin, -⟩ := joinIntents_carries hpenned.carries hdb.ids hpenned.within hpenned.distinct
      (fun _ _ => List.not_mem_nil) hshort
    exact ⟨history, by rw [hjoin]⟩

/-- A listing reads where the budgets cover it and every intent of the scope is short. -/
theorem Scribed.intents_iff {db : Database OutboxTables} (hdb : Scribed db) (scope : TrustedScope) (operation : Operation)
    {m : Moment} (hread : m.read.map ReadFault.error = readFault operation (listing scope db)) (rest : List Moment) :
    (∃ history, (intents scope).run.run StoreOp.exec (m :: rest) db = (db, some (.ok history, rest))) ↔
      (∀ i, Committed db scope i → Short i) ∧ readFault operation (listing scope db) = none := by
  cases hfault : readFault operation (listing scope db) with
  | none =>
    rw [hfault, Option.map_eq_none_iff] at hread
    rw [hdb.reads_iff scope hread rest, eq_self, and_true]
  | some fault =>
    rw [hfault] at hread
    obtain ⟨f, hf, rfl⟩ := Option.map_eq_some_iff.1 hread
    have hrows : (readRows (selectIntents scope)).run.run StoreOp.exec (m :: rest) db =
        (db, some (.error (.storage f.error), rest)) := by
      show (db, some ((execScript m (selectIntents scope) db).mapError ApiError.storage, rest)) = _
      unfold execScript
      rw [hf]
      rfl
    unfold Api.intents
    rw [run_try_bind, hrows]
    exact ⟨fun ⟨history, h⟩ => (nomatch h), fun ⟨_, h⟩ => nomatch h⟩

/-! ### The codec of the journal -/

/-- What is written is read back, and when. -/
structure JournalCodec (start : EmptyJournal) (turns : List (Turn JournalRequest Moment)) : Prop where
  decodes : ∀ (fields : List String) (bytes limit : Nat), bytes < 2 ^ 64 → (encode fields).utf8ByteSize ≤ bytes →
    fields.length ≤ limit → decode (encode fields) bytes limit = .ok fields
  encodes : ∀ (raw : String) (bytes limit : Nat) (fields : List String), bytes < 2 ^ 64 →
    decode raw bytes limit = .ok fields → encode fields = raw
  accepts : ∀ (intent : Intent) (request : AcceptanceRequest), intent.kind = .accept →
    intent.request = acceptanceBytes request → child effectFront intent.operation = .ok request.operation →
    intent.scope = request.scope → acceptanceRequest intent = .ok request
  /-- The row an entry is remembered in, under any number and author. -/
  rows : ∀ (e : Entry) (actor : String) (n : Nat), IsApi e.op → 0 < n → n < 2 ^ 63 →
    (Intent.decode (intentColumns ((apiRow eventText e.scope (Value.text (e.intent actor).bytes).toJson).record n)) =
      .ok { e.intent actor with rowId := n } ↔ (e.intent actor).bytes.utf8ByteSize ≤ 65536)
  /-- A later listing of a scope, with what is left of the budgets of its operation. -/
  reads : ∀ (scope : TrustedScope) (operation : Operation) (m : Moment) (rest : List Moment),
    m.read.map ReadFault.error = readFault operation (listing scope (journalRun start turns)) →
    ((∃ history, (intents scope).run.run StoreOp.exec (m :: rest) (journalRun start turns) =
        (journalRun start turns, some (.ok history, rest))) ↔
      (∀ i, Committed (journalRun start turns) scope i → i.bytes.utf8ByteSize ≤ 65536) ∧
        readFault operation (listing scope (journalRun start turns)) = none)

/-- The journal reads back exactly where every intent is within the limit of the read and the listing within its
budgets. -/
theorem journal_codec (start : EmptyJournal) (turns : List (Turn JournalRequest Moment)) : JournalCodec start turns where
  decodes fields bytes limit hbound hbytes hlimit := (decode_eq_ok hbound).2 ⟨rfl, hbytes, hlimit⟩
  encodes raw bytes limit fields hbound h := ((decode_eq_ok hbound).1 h).1
  accepts intent request := acceptanceRequest_acceptanceBytes
  rows e actor n hop hpos hlt := by
    exact Carries.decode_eq_ok (i := e.intent actor) ⟨rfl, hop, e.subject_isApi hop actor, e.parent_api⟩ hpos hlt
  reads scope operation m rest hread :=
    (scribed_journalRun start turns).intents_iff scope operation hread rest

end Verdant.Api
