import Verdant.Api.Appends

/-!
# Remembering under interference

A call of `remember` reads the history of its scope and appends at most one row, and its guard holds only where the scope
still has that history and no scope has the operation: what it adds is a commit of the ledger it meets.  So a call that
answers, answers with the one intent of its operation, and it was asked for the same inputs.
-/

namespace Verdant.Api

open TextCodec Storage Access Binding Prog

/-- What a call asks to be remembered. -/
structure Entry where
  scope : TrustedScope
  op : OperationId
  kind : Kind
  subject : OperationId
  parent : Option OperationId
  request : String
  /-- A draft is its own subject. -/
  own : kind = .draft → subject = op ∧ parent = none
  /-- Subjects and parents come from intents, or are the operation itself. -/
  subject_api : subject = op ∨ IsApi subject
  parent_api : ∀ p ∈ parent, IsApi p

/-- The intent was asked for these inputs. -/
structure Entry.Of (e : Entry) (i : Intent) : Prop where
  scope : i.scope = e.scope
  op : i.operation = e.op
  kind : i.kind = e.kind
  subject : i.subject = e.subject
  parent : i.parent = e.parent
  request : i.request = e.request

def Api.remembers (api : Api) (e : Entry) (credential : Credential) (recovery : Bool) : ApiCall Intent :=
  api.remember credential e.scope e.op e.kind e.subject e.parent e.request recovery

/-- What a call of `remember` that went on from `s` did. -/
structure Remembered (e : Entry) (s : Database OutboxTables) (acts : List ApiAct) (t : Database OutboxTables)
    (answer : Except ApiError Intent) : Prop where
  once : (addedBy acts).length ≤ 1
  /-- A row it adds is an intent of its inputs, and a commit of the ledger it meets. -/
  commits : ∀ x ∈ acts, ∀ r ∈ added x, ∃ i, Intent.decode (intentColumns r) = .ok i ∧ e.Of i ∧
    Commit (journal x.before.tables) i
  /-- The scope has the history the call has read. -/
  raced : ∀ x ∈ acts, added x ≠ [] → ∃ first, acts.head? = some first ∧ first.op = .read (selectIntents e.scope) ∧
    ofScope e.scope (journal x.before.tables) = ofScope e.scope (journal first.before.tables)
  told : ∀ i, answer = .ok i → i ∈ journal t.tables ∧ e.Of i
  refused : ∀ error, answer = .error error → error.isUnknown = false → addedBy acts = []
  /-- An operation that is there for the same inputs is refused only where a read or the authority fails. -/
  repeated : ∀ old ∈ journal s.tables, e.Of old → ∀ error, answer = .error error →
    (∃ fault, error = .storage fault) ∨ ∃ denied, error = .binding denied

section Reads

variable {s t : Database OutboxTables}

/-- The journal only grows. -/
theorem journal_grows (hs : Kept s) (hst : apiLaw.rel s t) : journal s.tables <+: journal t.tables :=
  (logOf_grows (hst hs).2.1).filterMap intentOf

/-- A call that submits nothing adds nothing. -/
theorem leads_noSubmit {α : Type} {p : Call OutboxTables α} (hp : p.Issues NoSubmit) :
    Leads StoreOp.exec apiLaw Drawn Settled (fun acts _ _ => Idle acts) s p := by
  have hkeeps : Keeps StoreOp.exec apiLaw Drawn (fun op m t => apiLog (op.exec m t).1 = apiLog t) (fun _ _ => True) s p :=
    Issues.keeps hp fun op m t _ hop _ => by
      have hsame := hop.exec m t
      refine ⟨congrArg apiLog hsame, ?_⟩
      rw [hsame]
      exact apiLaw.refl t
  refine (hkeeps.leads fun op m t _ h => .inl h).mono ?_
  rintro acts u a - ⟨hacts, -⟩
  exact fun x hx => added_of_eq (hacts x hx)

/-- What a read of the history of a scope gives. -/
theorem leads_intents (hs : Kept s) (scope : TrustedScope) :
    Leads StoreOp.exec apiLaw Drawn Settled
      (onAnswer (fun acts _ e => Idle acts ∧ ∃ fault, e = ApiError.storage fault) fun acts t history =>
        ∃ m u, acts = [⟨.read (selectIntents scope), m, u⟩] ∧ apiLaw.rel s u ∧ apiLaw.rel u t ∧
          history = ofScope scope (journal u.tables)) s (intents scope).run := by
  unfold intents
  refine Leads.tryBind (H := fun acts _ e => Idle acts ∧ ∃ fault, e = ApiError.storage fault)
    (R := fun acts t rows => ∃ m u, acts = [⟨.read (selectIntents scope), m, u⟩] ∧ apiLaw.rel s u ∧ apiLaw.rel u t ∧
      rows = (logOf (isIntentOf scope) u.tables).map intentColumns) ?_ (fun _ _ _ _ h => h) ?_
  · unfold readRows
    refine Leads.mapErr (F := fun acts _ _ => Idle acts) ?_ fun acts _ e _ h => ⟨h, e, rfl⟩
    refine leads_issue (StoreOp.read (selectIntents scope)) fun t hst m _ => ?_
    refine ⟨settled_of_eq rfl, apiLaw.refl t, fun u htu => ?_⟩
    have hidle : Idle [⟨.read (selectIntents scope), m, t⟩] := idle_singleton rfl
    have hanswer : (StoreOp.exec (.read (selectIntents scope)) m t).2 = execScript m (selectIntents scope) t := rfl
    rw [hanswer]
    unfold execScript
    cases m.read with
    | some fault => exact hidle
    | none =>
      -- a kept scope has no more rows than the read asks for
      have ht := (hst hs).1
      have hbound := ht.sound.bounded scope
      rw [ht.length_ofScope scope] at hbound
      have hall : (logOf (isIntentOf scope) t.tables).take (maxWork + 1) = logOf (isIntentOf scope) t.tables :=
        List.take_of_length_le (by omega)
      exact ⟨m, t, rfl, hst, htu, congrArg (List.map intentColumns) hall⟩
  · rintro acts t rows hst hrows
    obtain ⟨m, u, rfl, hsu, hut, rfl⟩ := hrows t (apiLaw.refl t)
    have hu := (hsu hs).1
    have hbound := hu.sound.bounded scope
    rw [hu.length_ofScope scope] at hbound
    rw [if_neg (by rw [List.length_map]; omega)]
    refine leads_check fun v htv => ?_
    rw [hu.joinIntents scope]
    refine ⟨m, u, ?_, hsu, apiLaw.trans hut htv, rfl⟩
    rw [List.append_nil]

theorem leads_authority (api : Api) (credential : Option Credential) (scope : TrustedScope) (role : BindingRole) :
    Leads StoreOp.exec apiLaw Drawn Settled
      (onAnswer (fun acts _ e => Idle acts ∧ ∃ denied, e = ApiError.binding denied) fun acts _ _ => Idle acts) s
      (api.authority credential scope role).run := by
  refine Leads.mapErr (F := fun acts _ _ => Idle acts) ?_ fun acts _ e _ h => ⟨h, e, rfl⟩
  refine (leads_noSubmit (authority_noSubmit api.gate credential scope role api.paths)).mono ?_
  intro acts t answer _ h
  cases answer <;> exact h

end Reads

/-! ### The append of an intent -/

section Intents

variable {s t : Database OutboxTables} {e : Entry}

/-- The intent a call appends. -/
def Entry.intent (e : Entry) (actor : String) : Intent :=
  ⟨0, e.op, e.scope, e.kind, e.subject, e.parent, e.request, actor⟩

def Entry.append (e : Entry) (id : OperationId) (authority : Authority) (count : Nat) : Append where
  id := id
  kind := eventText
  scope := e.scope
  value := (Value.text (e.intent (actorText authority.report.actor)).bytes).toJson
  condition := unchanged authority.guard e.scope count e.op
  expiry := expiryOf authority

theorem Entry.subject_isApi (e : Entry) (hop : IsApi e.op) (actor : String) : IsApi (e.intent actor).subject := by
  rcases e.subject_api with h | h
  · have hsubject : (e.intent actor).subject = e.op := h
    rw [hsubject]
    exact hop
  · exact h

theorem Entry.readable (e : Entry) (hop : IsApi e.op) {actor : String}
    (hsize : (Value.text (e.intent actor).bytes).toJson.utf8ByteSize ≤ 65536) : (e.intent actor).Readable where
  operation := hop
  subject := e.subject_isApi hop actor
  parent := e.parent_api
  size := Nat.le_trans (Json.le_size_toJson _) hsize

/-- The row of an intent reads back. -/
theorem Entry.decode_row (e : Entry) (hop : IsApi e.op) {id : OperationId} {authority : Authority} {count n : Nat}
    (hpos : 0 < n) (hlt : n < 2 ^ 63) (hsize : (e.append id authority count).value.utf8ByteSize ≤ 65536) :
    Intent.decode (intentColumns ((e.append id authority count).row n)) =
      .ok { e.intent (actorText authority.report.actor) with rowId := n } :=
  Intent.decode_of_readable (e.readable hop hsize) hpos hlt

theorem Entry.of_intent (e : Entry) (actor : String) (n : Int) : e.Of { e.intent actor with rowId := n } :=
  ⟨rfl, rfl, rfl, rfl, rfl, rfl⟩

/-- Whatever number its row has, the intent is of its inputs. -/
theorem Entry.of_decode_row (e : Entry) {id : OperationId} {authority : Authority} {count n : Nat} {i : Intent}
    (h : Intent.decode (intentColumns ((e.append id authority count).row n)) = .ok i) : e.Of i := by
  obtain ⟨column, value, hcolumns, htext, -⟩ := Intent.decode_eq_ok h
  have hvalue : sqlQuote (Value.text (e.intent (actorText authority.report.actor)).bytes).toJson = value := by
    have hsame : intentColumns ((e.append id authority count).row n) =
      [Nat.repr n, sqlQuote (Value.text (e.intent (actorText authority.report.actor)).bytes).toJson] := rfl
    rw [hsame] at hcolumns
    simp only [List.cons.injEq, and_true] at hcolumns
    exact hcolumns.2
  rw [← hvalue, textColumn_toJson] at htext
  have hbytes : i.bytes = ({ e.intent (actorText authority.report.actor) with rowId := i.rowId } : Intent).bytes :=
    (Except.ok.inj htext).symm
  rw [Intent.eq_of_bytes hbytes rfl]
  exact e.of_intent _ _

/-- A history of a scope that has as many rows as were read is the history that was read. -/
theorem ofScope_of_count {scope : TrustedScope} {u : Database OutboxTables} (hu : Kept u) (hut : apiLaw.rel u t)
    (hcount : countIs (isIntentOf scope) (ofScope scope (journal u.tables)).length t.tables = true) :
    ofScope scope (journal t.tables) = ofScope scope (journal u.tables) := by
  obtain ⟨ht, hgrows, -⟩ := hut hu
  unfold countIs at hcount
  rw [decide_eq_true_eq, ← ht.length_ofScope scope] at hcount
  have hfront : ofScope scope (journal u.tables) <+: ofScope scope (journal t.tables) :=
    (journal_grows hu hut).filter _
  exact (hfront.eq_of_length hcount.symm).symm

/-- No scope has an intent of an operation without a receipt. -/
theorem Kept.fresh_intent (ht : Kept t) {op : OperationId}
    (hnone : findReceipt t.receipts (journalFront ++ "-" ++ op.text) = none) :
    ∀ old ∈ journal t.tables, old.operation ≠ op := by
  rintro old hold rfl
  obtain ⟨r, hr, hdecode⟩ := mem_journal.1 hold
  rw [logOf_isIntent, List.mem_filter] at hr
  have hkind : r.operation = eventText := by simpa [isIntent] using hr.2
  refine ht.fresh hnone r hr.1 ?_
  unfold ticketOf
  rw [if_pos hkind, intentOf_eq_some.2 hdecode]
  rfl

theorem requireLatest_eq_ok {history : List Intent} {subject : OperationId} {parent : Option OperationId}
    (h : requireLatest history subject parent = .ok ()) :
    (∃ old, latestRevision history subject = some old ∧ parent = some old.operation) ∧
      ∀ old ∈ history, old.subject = subject → old.kind ≠ .seal := by
  unfold requireLatest at h
  cases parent with
  | none => exact nomatch h
  | some previous =>
    simp only at h
    cases hlatest : latestRevision history subject with
    | none =>
      rw [hlatest] at h
      exact nomatch h
    | some latest =>
      rw [hlatest] at h
      simp only at h
      rw [Result.ite_error_eq_ok, Result.ite_error_eq_ok] at h
      obtain ⟨hparent, hsealed, -⟩ := h
      refine ⟨⟨latest, rfl, by rw [not_not.1 hparent]⟩, fun old hold hsubject hkind => hsealed ?_⟩
      rw [List.any_eq_true]
      exact ⟨old, hold, by simp [hsubject, hkind]⟩

/-- What a call decides on the history it has read makes its intent a commit, where the history is still that. -/
theorem commit_of_admit {log history : List Intent} {intent : Intent} (hhistory : ofScope intent.scope log = history)
    (hbound : history.length ≤ maxWork) (hfresh : ∀ old ∈ log, old.operation ≠ intent.operation)
    (hown : intent.kind = .draft → intent.subject = intent.operation ∧ intent.parent = none)
    (hadmits : admitIntent history intent.kind intent.subject intent.parent = .ok ()) : Commit log intent := by
  unfold admitIntent at hadmits
  rw [Result.ite_error_eq_ok] at hadmits
  obtain ⟨hroom, hadmits⟩ := hadmits
  have hfollows : intent.kind.followsRevision = true →
      requireLatest history intent.subject intent.parent = .ok () := by
    intro hkind
    rw [if_pos hkind] at hadmits
    exact hadmits
  constructor
  · exact hfresh
  · rw [hhistory]
    omega
  · exact hown
  · intro hkind
    rw [hhistory]
    exact (requireLatest_eq_ok (hfollows hkind)).1
  · intro hkind
    rw [hhistory]
    exact (requireLatest_eq_ok (hfollows hkind)).2

/-- The append of an intent is sound from the read it was decided on. -/
theorem Entry.append_sound (e : Entry) {u : Database OutboxTables} (hu : Kept u) (hop : IsApi e.op) {id : OperationId}
    (hid : id.text = journalFront ++ "-" ++ e.op.text) (authority : Authority)
    (hadmits : admitIntent (ofScope e.scope (journal u.tables)) e.kind e.subject e.parent = .ok ()) :
    (e.append id authority (ofScope e.scope (journal u.tables)).length).Sound u ∧
      ∀ t clock, apiLaw.rel u t →
        (e.append id authority (ofScope e.scope (journal u.tables)).length).condition.holds (t.begin clock).tick = true →
        ofScope e.scope (journal t.tables) = ofScope e.scope (journal u.tables) := by
  have hcount : ∀ t clock, apiLaw.rel u t →
      (e.append id authority (ofScope e.scope (journal u.tables)).length).condition.holds (t.begin clock).tick = true →
      ofScope e.scope (journal t.tables) = ofScope e.scope (journal u.tables) := by
    intro t clock hut hholds
    have hguard : (authority.guard.holds t.tables &&
        countIs (isIntentOf e.scope) (ofScope e.scope (journal u.tables)).length t.tables &&
        (findReceipt t.receipts (journalFront ++ "-" ++ e.op.text)).isNone) = true := hholds
    rw [Bool.and_eq_true, Bool.and_eq_true] at hguard
    exact ofScope_of_count hu hut hguard.1.2
  refine ⟨⟨.inl rfl, ?_, ?_, ?_⟩, hcount⟩
  · have happ : (e.append id authority (ofScope e.scope (journal u.tables)).length).id = id := rfl
    rw [happ, hid]
    exact isApiTicket_journal e.op
  · intro n hpos hlt hsize
    have hdecode := intentOf_eq_some.2 (e.decode_row hop hpos hlt hsize)
    have happ : (e.append id authority (ofScope e.scope (journal u.tables)).length).id = id := rfl
    have hkind : ((e.append id authority (ofScope e.scope (journal u.tables)).length).row n).operation = eventText := rfl
    unfold ticketOf
    rw [if_pos hkind, hdecode, happ, hid]
    rfl
  · intro t clock hut hholds hnone n hpos hlt hsize _
    have ht := (hut hu).1
    have hhistory := hcount t clock hut hholds
    refine ⟨_, e.decode_row hop hpos hlt hsize, rfl, ?_⟩
    have happ : (e.append id authority (ofScope e.scope (journal u.tables)).length).id = id := rfl
    rw [happ, hid] at hnone
    exact commit_of_admit hhistory (hu.sound.bounded e.scope) (ht.fresh_intent hnone) e.own hadmits

/-- The fronts of the two kinds of appends differ. -/
theorem cancel_ne_journal (a b : String) : cancelFront ++ "-" ++ a ≠ journalFront ++ "-" ++ b := by
  intro h
  have hlists := congrArg (fun s : String => s.toList[4]?) h
  have hcancel : cancelFront.toList = ['a', 'p', 'i', '-', 'c', 'a', 'n', 'c', 'e', 'l'] := rfl
  have hjournal : journalFront.toList = ['a', 'p', 'i', '-', 'j', 'o', 'u', 'r', 'n', 'a', 'l'] := rfl
  simp [String.toList_append, hcancel, hjournal] at hlists

/-- A row of the ticket and the value of an intent is that intent in the journal. -/
theorem Entry.mem_of_row (e : Entry) (ht : Kept t) {actor : String} {r : OutboxRecord} (hr : r ∈ apiLog t)
    (hticket : ticketOf r = some (journalFront ++ "-" ++ e.op.text))
    (hvalue : r.valueJson = (Value.text (e.intent actor).bytes).toJson) {n : Int} (hn : (r.id : Int) = n) :
    { e.intent actor with rowId := n } ∈ journal t.tables := by
  obtain ⟨-, hlt⟩ := ht.ordered.id_pos (List.mem_filter.1 hr).1
  have hkind : r.operation = eventText := by
    by_contra hnot
    unfold ticketOf at hticket
    rw [if_neg hnot] at hticket
    split at hticket
    · cases htext : textColumn (sqlQuote r.valueJson) with
      | error err =>
        rw [htext] at hticket
        exact nomatch hticket
      | ok text =>
        rw [htext] at hticket
        exact cancel_ne_journal _ _ (Option.some.inj hticket)
    · exact nomatch hticket
  have hintent : r ∈ logOf isIntent t.tables := by
    rw [logOf_isIntent, List.mem_filter]
    exact ⟨hr, by simpa [isIntent] using hkind⟩
  obtain ⟨i, hdecode, -⟩ := ht.written r hintent
  refine mem_journal.2 ⟨r, hintent, ?_⟩
  obtain ⟨id, value, hcolumns, htext, hid, -⟩ := Intent.decode_eq_ok hdecode
  unfold intentColumns at hcolumns
  obtain ⟨rfl, rfl⟩ : Nat.repr r.id = id ∧ sqlQuote r.valueJson = value := by simpa using hcolumns
  rw [numberI64_repr hlt] at hid
  rw [hvalue, textColumn_toJson] at htext
  have hbytes : i.bytes = ({ e.intent actor with rowId := n } : Intent).bytes := (Except.ok.inj htext).symm
  rw [hdecode, Intent.eq_of_bytes hbytes ((Except.ok.inj hid).symm.trans hn)]

/-! ### The call -/

/-- What is kept of the operations of a call while it goes on: rows and races. -/
structure Going (e : Entry) (acts : List ApiAct) : Prop where
  once : (addedBy acts).length ≤ 1
  commits : ∀ x ∈ acts, ∀ r ∈ added x, ∃ i, Intent.decode (intentColumns r) = .ok i ∧ e.Of i ∧
    Commit (journal x.before.tables) i
  raced : ∀ x ∈ acts, added x ≠ [] → ∃ first, acts.head? = some first ∧ first.op = .read (selectIntents e.scope) ∧
    ofScope e.scope (journal x.before.tables) = ofScope e.scope (journal first.before.tables)

theorem Going.idle {acts : List ApiAct} (h : Idle acts) : Going e acts where
  once := by
    rw [h.addedBy]
    exact Nat.zero_le _
  commits x hx r hr := by
    rw [h x hx] at hr
    exact nomatch hr
  raced x hx hne := absurd (h x hx) hne

/-- What the append of an intent wrote, after the read it was decided on. -/
theorem Going.of_written {m : Moment} {u : Database OutboxTables} {front acts : List ApiAct} {a : Append}
    (hfront : Idle ([⟨.read (selectIntents e.scope), m, u⟩] ++ front))
    (hrows : ∀ n, ∀ i, Intent.decode (intentColumns (a.row n)) = .ok i → e.Of i) (hkind : a.kind = eventText)
    (h : Written a (fun t => ofScope e.scope (journal t.tables) = ofScope e.scope (journal u.tables)) acts) :
    Going e ([⟨.read (selectIntents e.scope), m, u⟩] ++ (front ++ acts)) where
  once := by
    rw [← List.append_assoc, addedBy_append, hfront.addedBy, List.nil_append]
    exact h.once
  commits x hx r hr := by
    rw [← List.append_assoc] at hx
    rcases List.mem_append.1 hx with hx | hx
    · rw [hfront x hx] at hr
      exact nomatch hr
    · obtain ⟨-, hfits, -, n, rfl⟩ := h.rows x hx r hr
      obtain ⟨i, hdecode, -, hcommit⟩ := hfits hkind
      exact ⟨i, hdecode, hrows n i hdecode, hcommit⟩
  raced x hx hne := by
    rw [← List.append_assoc] at hx
    rcases List.mem_append.1 hx with hx | hx
    · exact absurd (hfront x hx) hne
    · obtain ⟨r, hr⟩ := List.exists_mem_of_ne_nil _ hne
      exact ⟨_, rfl, rfl, (h.rows x hx r hr).1⟩

theorem repeated_of {old : Intent} (h : e.Of old) : repeated old e.kind e.subject e.parent e.request = .ok old := by
  unfold repeated
  rw [if_neg]
  rintro (hkind | hsubject | hparent | hrequest)
  · exact hkind h.kind
  · exact hsubject h.subject
  · exact hparent h.parent
  · exact hrequest h.request

theorem of_repeated {old i : Intent} (h : repeated old e.kind e.subject e.parent e.request = .ok i)
    (hscope : old.scope = e.scope) (hop : old.operation = e.op) : old = i ∧ e.Of i := by
  unfold repeated at h
  rw [Result.ite_error_eq_ok] at h
  obtain ⟨hsame, h⟩ := h
  obtain rfl := Except.ok.inj h
  simp only [not_or, not_not] at hsame
  obtain ⟨hkind, hsubject, hparent, hrequest⟩ := hsame
  exact ⟨rfl, hscope, hop, hkind, hsubject, hparent, hrequest⟩

/-- What every call of `remember` does and answers, whatever the others do meanwhile. -/
theorem leads_remember (api : Api) (e : Entry) (credential : Credential) (recovery : Bool) (hs : Kept s) :
    Leads StoreOp.exec apiLaw Drawn Settled (Remembered e s) s (api.remembers e credential recovery).run := by
  have hgoal : Leads StoreOp.exec apiLaw Drawn Settled
      (onAnswer (fun acts _ error => Going e acts ∧ (error.isUnknown = false → Idle acts) ∧
          ((∃ old ∈ journal s.tables, e.Of old) → (∃ fault, error = .storage fault) ∨ ∃ denied, error = .binding denied))
        fun acts t i => Going e acts ∧ i ∈ journal t.tables ∧ e.Of i) s (api.remembers e credential recovery).run := by
    unfold Api.remembers Coordinator.remember
    refine Leads.checkBind (fun error herror t _ => ?_) fun op hop => ?_
    · -- an operation of the journal is one of the API
      refine ⟨.idle idle_nil, fun _ => idle_nil, ?_⟩
      rintro ⟨old, hold, hof⟩
      obtain ⟨r, -, hdecode⟩ := mem_journal.1 hold
      obtain ⟨-, -, -, -, -, -, hapi, -⟩ := Intent.decode_eq_ok hdecode
      rw [hof.op] at hapi
      rw [operation_of_isApi hapi] at herror
      exact nomatch herror
    obtain ⟨-, hapi⟩ := operation_eq_ok hop
    have hopapi : IsApi e.op := by
      rw [operation_eq_ok hop |>.1 |> OperationId.ext_text] at hapi
      exact hapi
    refine Leads.tryBind (leads_intents hs e.scope) ?_ fun acts t history hst hread => ?_
    · rintro acts t error - ⟨hidle, fault, rfl⟩
      exact ⟨.idle hidle, fun _ => hidle, fun _ => .inl ⟨fault, rfl⟩⟩
    obtain ⟨m, u, rfl, hsu, hut, rfl⟩ := hread t (apiLaw.refl t)
    have hu := (hsu hs).1
    have hfirst : Idle [⟨.read (selectIntents e.scope), m, u⟩] := idle_singleton rfl
    refine Leads.tryBind (leads_authority api (some credential) e.scope _) ?_ fun more v authority htv hmore => ?_
    · rintro more v error - ⟨hidle, denied, rfl⟩
      have hall := hfirst.append hidle
      exact ⟨.idle hall, fun _ => hall, fun _ => .inr ⟨denied, rfl⟩⟩
    have hidle := hfirst.append (hmore v (apiLaw.refl v))
    have huv := apiLaw.trans hut htv
    -- an operation that was there is in the history that was read
    have hthere : ∀ old ∈ journal s.tables, e.Of old →
        (ofScope e.scope (journal u.tables)).find? (fun i => decide (i.operation = e.op)) = some old := by
      intro old hold hof
      have hmem : old ∈ ofScope e.scope (journal u.tables) :=
        mem_ofScope.2 ⟨(journal_grows hs hsu).subset hold, hof.scope⟩
      cases hfind : (ofScope e.scope (journal u.tables)).find? fun i => decide (i.operation = e.op) with
      | none =>
        have hnone := List.find?_eq_none.1 hfind old hmem
        exact absurd (by simpa using hof.op) hnone
      | some found =>
        have hfound := List.find?_some hfind
        have hop : found.operation = old.operation := by
          rw [hof.op]
          simpa using hfound
        rw [hu.sound.intent_unique (mem_ofScope.1 (List.mem_of_find?_eq_some hfind)).1 (mem_ofScope.1 hmem).1 hop]
    cases hfind : (ofScope e.scope (journal u.tables)).find? fun i => decide (i.operation = e.op) with
    | some old =>
      obtain ⟨hold, hscope⟩ := mem_ofScope.1 (List.mem_of_find?_eq_some hfind)
      have hop : old.operation = e.op := by simpa using List.find?_some hfind
      refine leads_check fun w hvw => ?_
      rw [← List.append_nil more] at hidle
      cases hrepeated : repeated old e.kind e.subject e.parent e.request with
      | error error =>
        refine ⟨.idle hidle, fun _ => hidle, ?_⟩
        rintro ⟨known, hknown, hof⟩
        have hsame := hthere known hknown hof
        rw [hfind] at hsame
        obtain rfl := Option.some.inj hsame
        rw [repeated_of hof] at hrepeated
        exact nomatch hrepeated
      | ok i =>
        obtain ⟨rfl, hof⟩ := of_repeated hrepeated hscope hop
        exact ⟨.idle hidle, (journal_grows hu (apiLaw.trans huv hvw)).subset hold, hof⟩
    | none =>
      have hnew : ¬ ∃ old ∈ journal s.tables, e.Of old := by
        rintro ⟨old, hold, hof⟩
        rw [hthere old hold hof] at hfind
        exact nomatch hfind
      refine Leads.checkBind (fun error _ w _ => ?_) fun _ hadmits => ?_
      · rw [← List.append_nil more] at hidle
        exact ⟨.idle hidle, fun _ => hidle, fun h => absurd h hnew⟩
      refine Leads.checkBind (fun error _ w _ => ?_) fun id hid => ?_
      · rw [← List.append_nil more] at hidle
        exact ⟨.idle hidle, fun _ => hidle, fun h => absurd h hnew⟩
      obtain ⟨hidtext, -⟩ := child_eq_ok hid
      obtain ⟨hsound, hheld⟩ := e.append_sound hu hopapi hidtext authority hadmits
      have hv := (huv hu).1
      have happend := leads_append api hv (hsound.later huv) fun w clock hvw => hheld w clock (apiLaw.trans huv hvw)
      have hdecoded : ∀ n i, Intent.decode (intentColumns
          ((e.append id authority (ofScope e.scope (journal u.tables)).length).row n)) = .ok i → e.Of i :=
        fun _ _ h => e.of_decode_row h
      refine Leads.tryBind happend ?_ fun acts w row hvw hrow => ?_
      · rintro acts w error - ⟨hwritten, hrefused⟩
        refine ⟨.of_written hidle hdecoded rfl hwritten, fun hknown => ?_, fun h => absurd h hnew⟩
        rw [← List.append_assoc]
        exact hidle.append (hrefused hknown)
      · refine leads_done fun x hwx => ?_
        have hw := (hvw hv).1
        obtain ⟨hwritten, r, hr, hticket, hvalue, hn⟩ := hrow x hwx
        rw [← List.append_nil acts] at hwritten
        refine ⟨.of_written hidle hdecoded rfl hwritten, ?_, e.of_intent _ row⟩
        have hidop : (e.append id authority (ofScope e.scope (journal u.tables)).length).id.text =
            journalFront ++ "-" ++ e.op.text := hidtext
        rw [hidop] at hticket
        exact e.mem_of_row (hwx hw).1 hr hticket hvalue hn
  refine hgoal.mono fun acts t answer _ h => ?_
  cases answer with
  | error error =>
    obtain ⟨hgoing, hrefused, hrepeated⟩ := h
    refine ⟨hgoing.once, hgoing.commits, hgoing.raced, fun i hi => (nomatch hi), ?_, ?_⟩
    · rintro _ ⟨⟩ hknown
      exact (hrefused hknown).addedBy
    · rintro old hold hof _ ⟨⟩
      exact hrepeated ⟨old, hold, hof⟩
  | ok i =>
    obtain ⟨hgoing, htold, hof⟩ := h
    refine ⟨hgoing.once, hgoing.commits, hgoing.raced, ?_, fun error he => (nomatch he), fun old _ _ error he => nomatch he⟩
    rintro _ ⟨⟩
    exact ⟨htold, hof⟩

end Intents

end Verdant.Api
