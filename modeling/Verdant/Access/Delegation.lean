import Verdant.Access.Progress

/-!
# Delegation

Who issued whom: in a run of the gates every issue row is one of the bootstrap's or was committed under a credential that
the log accepted and that was live at the commit.  Such a credential either delegated, within its own policy, or was
rotated, and hands its facts on.  Along chains of both the authority only shrinks.
-/

namespace Verdant.Access

open TextCodec Storage Prog

/-! ### The order of authority -/

/-- What the row may do is within what the administrator may grant. -/
structure Within (admin row : IssueRow) : Prop where
  scope : row.scope ∈ admin.policy.scopes
  level : ∃ level, admin.policy.adminCeiling = some level ∧ row.ceiling ≤ level ∧
    ∀ c ∈ row.policy.adminCeiling, c ≤ level
  ceiling : ∀ c ∈ row.policy.adminCeiling, c ≤ row.ceiling
  scopes : ∀ scope ∈ row.policy.scopes, scope ∈ admin.policy.scopes
  expiry : ∀ expiry ∈ admin.policy.expiresAtMs, ∃ end_, row.policy.expiresAtMs = some end_ ∧ end_ ≤ expiry

theorem Within.trans {a b c : IssueRow} (hab : Within a b) (hbc : Within b c) : Within a c := by
  obtain ⟨level, hlevel, -, hbelow⟩ := hab.level
  obtain ⟨mid, hmid, hceiling, hadmin⟩ := hbc.level
  have hle : mid ≤ level := hbelow mid hmid
  refine ⟨hab.scopes _ hbc.scope, ⟨level, hlevel, UInt8.le_trans hceiling hle, fun l hl => ?_⟩, hbc.ceiling,
    fun scope hscope => hab.scopes scope (hbc.scopes scope hscope), fun expiry hexpiry => ?_⟩
  · exact UInt8.le_trans (hadmin l hl) hle
  · obtain ⟨e, he, hle⟩ := hab.expiry expiry hexpiry
    obtain ⟨e', he', hle'⟩ := hbc.expiry e he
    exact ⟨e', he', Int64.le_trans hle' hle⟩

/-- A row that has not expired was issued by one that has not. -/
theorem Within.live {a b : IssueRow} (h : Within a b) {now : Int} (hlive : b.policy.LiveAt now) :
    a.policy.LiveAt now := by
  intro expiry hexpiry
  obtain ⟨e, he, hle⟩ := h.expiry expiry hexpiry
  have hlt := hlive e he
  have hint := Int64.le_iff_toInt_le.1 hle
  omega

theorem Within.of_same {a b c : IssueRow} (hab : SameFacts a b) (hbc : Within b c) : Within a c := by
  obtain ⟨hscope, hlevel, hceiling, hscopes, hexpiry⟩ := hbc
  rw [← hab.policy] at hscope hlevel hscopes hexpiry
  exact ⟨hscope, hlevel, hceiling, hscopes, hexpiry⟩

theorem Within.to_same {a b c : IssueRow} (hab : Within a b) (hbc : SameFacts b c) : Within a c := by
  obtain ⟨hscope, hlevel, hceiling, hscopes, hexpiry⟩ := hab
  rw [hbc.scope] at hscope
  rw [hbc.ceiling, hbc.policy] at hlevel hceiling
  rw [hbc.policy] at hscopes hexpiry
  exact ⟨hscope, hlevel, hceiling, hscopes, hexpiry⟩

theorem SameFacts.trans {a b c : IssueRow} (hab : SameFacts a b) (hbc : SameFacts b c) : SameFacts a c :=
  ⟨hab.scope.trans hbc.scope, hab.ceiling.trans hbc.ceiling, hab.role.trans hbc.role, hab.label.trans hbc.label,
    hab.policy.trans hbc.policy⟩

/-- The first row of a capability, granted by an administrator. -/
structure Delegates (admin row : IssueRow) : Prop where
  first : row.capgen = 1
  within : Within admin row

/-- The row that follows another in its chain. -/
structure Rotates (prev row : IssueRow) : Prop where
  cap : row.cap = prev.cap
  next : row.capgen.toNat = prev.capgen.toNat + 1
  facts : SameFacts prev row

/-- What the rows of a commit are: a bootstrap's, or granted or handed on by the presented credential's row. -/
theorem Commit.grants {now : Int} {log rows : List Admission} {who : Option Credential} (h : Commit now log who rows)
    {row : IssueRow} (hrow : row ∈ issuesOf rows) :
    (log = [] ∧ row.capgen = 1 ∧ (row.cap = reviewerCap ∨ row.cap = publisherCap)) ∨
      ∃ cred prev, who = some cred ∧ Accepted log cred prev ∧ prev.policy.LiveAt now ∧
        (Delegates prev row ∨ Rotates prev row) := by
  rw [mem_issuesOf] at hrow
  cases h with
  | bootstrap gate hempty hreview hpublish hbuilt =>
    obtain ⟨scopeA, label, label', policy, -, -, rfl⟩ := bootstrapRows_eq_ok hbuilt
    simp only [List.mem_cons, List.not_mem_nil, or_false, reduceCtorEq, Admission.issue.injEq, false_or] at hrow
    rcases hrow with rfl | rfl
    · exact .inl ⟨hempty, rfl, .inl hreview⟩
    · exact .inl ⟨hempty, rfl, .inr hpublish⟩
  | issue gate haccepted hlive hbounds hunexpired hfresh =>
    obtain rfl := Admission.issue.inj (List.mem_singleton.1 hrow)
    exact .inr ⟨_, _, rfl, haccepted, hlive, .inl ⟨rfl, hbounds.scope, hbounds.level, hbounds.ceiling, hbounds.scopes,
      hbounds.expiry⟩⟩
  | rotate gate haccepted hlive hcounted hfresh =>
    simp only [List.mem_cons, List.not_mem_nil, or_false, reduceCtorEq, Admission.issue.injEq, false_or] at hrow
    subst hrow
    exact .inr ⟨_, _, rfl, haccepted, hlive, .inr ⟨rfl, nextGeneration_eq_ok hcounted,
      (SameFacts.refl _).successor _ _ _ _⟩⟩
  | revoke gate haccepted hlive => simp at hrow

/-! ### Who issued whom -/

/-- The operation adds the row to the log. -/
def Adds (x : Pool.Issued (StoreOp OutboxTables) Moment (Database OutboxTables)) (row : IssueRow) : Prop :=
  ∃ rows, logNext x = logBefore x ++ rows ∧ row ∈ issuesOf rows

/-- The row was committed to the empty log. -/
def Founded (start : EmptyLog) (turns : List GateTurn) (row : IssueRow) : Prop :=
  ∃ x ∈ gateTrace start turns, Adds x row ∧ logBefore x = []

/-- The row was committed by a call that presented a credential of `prev`, which the log accepted and which had not
expired at the reading inside the committing transaction. -/
def IssuedUnder (start : EmptyLog) (turns : List GateTurn) (prev row : IssueRow) : Prop :=
  ∃ x ∈ gateTrace start turns, Adds x row ∧ ∃ front r back cred, turns = front ++ .ask r :: back ∧
    (gateRun start front).calls.length = x.call ∧ r.presented = some cred ∧ Accepted (logBefore x) cred prev ∧
    prev.policy.LiveAt (guardReading x.env)

section Runs

variable {start : EmptyLog} {turns : List GateTurn}

theorem logBefore_grows {x : Pool.Issued (StoreOp OutboxTables) Moment (Database OutboxTables)}
    (hx : x ∈ gateTrace start turns) : logBefore x <+: logAfter start turns := by
  obtain ⟨-, htrace⟩ := kept_of_run start turns
  obtain ⟨hbefore, hafter⟩ := htrace x hx
  have hstep := (Pool.played_lawful (P := fun _ _ => True) (Pool.lawful_idle _) (keeps_serve start)
    (turnsMeet_all turns) x hx (hbefore start.kept).1)
  exact admissions_grows (hstep.2.trans (hafter hstep.1).2)

/-- The rows an operation adds are those of one commit. -/
theorem commit_of_adds {x : Pool.Issued (StoreOp OutboxTables) Moment (Database OutboxTables)}
    (hx : x ∈ gateTrace start turns) {row : IssueRow} (hadds : Adds x row) :
    ∃ front r back rows, turns = front ++ .ask r :: back ∧ (gateRun start front).calls.length = x.call ∧
      Commit (guardReading x.env) (logBefore x) r.presented rows ∧ row ∈ issuesOf rows := by
  obtain ⟨rows, hnext, hnew⟩ := hadds
  obtain ⟨front, r, back, hturns, hlen, hsettled⟩ := settled_of_issued hx
  rcases hsettled with hsame | ⟨rows', hcommit, hnext'⟩
  · have hnil : logBefore x ++ rows = logBefore x ++ [] := by
      rw [List.append_nil]
      exact hnext.symm.trans hsame
    rw [List.append_cancel_left hnil] at hnew
    exact nomatch hnew
  · obtain rfl : rows = rows' := List.append_cancel_left (hnext.symm.trans hnext')
    exact ⟨front, r, back, rows, hturns, hlen, hcommit, hnew⟩

theorem Founded.facts {row : IssueRow} (h : Founded start turns row) :
    row.capgen = 1 ∧ (row.cap = reviewerCap ∨ row.cap = publisherCap) := by
  obtain ⟨x, hx, hadds, hempty⟩ := h
  obtain ⟨front, r, back, rows, -, -, hcommit, hnew⟩ := commit_of_adds hx hadds
  rcases hcommit.grants hnew with ⟨-, hfacts⟩ | ⟨cred, prev, -, haccepted, -⟩
  · exact hfacts
  · have hissued := haccepted.issued
    rw [hempty] at hissued
    exact nomatch hissued

/-- A row of the log was committed once: to the empty log, or under a row that came before it. -/
theorem exists_adds {row : IssueRow} (hrow : row ∈ issuesOf (logAfter start turns)) :
    ∃ x ∈ gateTrace start turns, row ∉ issuesOf (logBefore x) ∧ (Founded start turns row ∨
      ∃ prev ∈ issuesOf (logBefore x), IssuedUnder start turns prev row) := by
  have hstart : row ∉ issuesOf (admissions start.db.tables) := by
    rw [start.admissions_eq]
    exact fun h => nomatch h
  obtain ⟨x, hx, hbefore, hmade⟩ := Pool.played_made StoreOp.exec (fun _ (r : GateRequest) => r.call)
    (P := fun s : Database OutboxTables => row ∈ issuesOf (admissions s.tables)) (Pool.idle start.db) hstart hrow
  obtain ⟨_, _, _, -, -, hsettled⟩ := settled_of_issued hx
  have hadds : Adds x row := by
    rcases hsettled with hsame | ⟨rows, -, hnext⟩
    · rw [hsame] at hmade
      exact absurd hmade hbefore
    · rw [hnext, issuesOf_append, List.mem_append] at hmade
      exact ⟨rows, hnext, hmade.resolve_left hbefore⟩
  obtain ⟨front, r, back, rows, hturns, hlen, hcommit, hnew⟩ := commit_of_adds hx hadds
  refine ⟨x, hx, hbefore, ?_⟩
  rcases hcommit.grants hnew with ⟨hempty, -⟩ | ⟨cred, prev, hwho, haccepted, hlive, -⟩
  · exact .inl ⟨x, hx, hadds, hempty⟩
  · exact .inr ⟨prev, haccepted.issued, x, hx, hadds, front, r, back, cred, hturns, hlen, hwho, haccepted, hlive⟩

/-- A row committed under another was granted or handed on by it. -/
theorem IssuedUnder.grants {prev row : IssueRow} (h : IssuedUnder start turns prev row) :
    Delegates prev row ∨ Rotates prev row := by
  obtain ⟨x, hx, hadds, front, r, back, cred, hturns, hlen, hpresented, haccepted, -⟩ := h
  obtain ⟨front', r', back', rows, hturns', hlen', hcommit, hnew⟩ := commit_of_adds hx hadds
  obtain rfl : r = r' := Pool.ask_unique StoreOp.exec (fun _ (r : GateRequest) => r.call)
    (Pool.idle start.db : Pool (StoreOp.Answer (ρ := OutboxTables)) _ (Except AccessError GateAnswer))
    (hturns.symm.trans hturns') (hlen.trans hlen'.symm)
  have hsound : Sound (logBefore x) := by
    obtain ⟨-, htrace⟩ := kept_of_run start turns
    exact ((htrace x hx).1 start.kept).1.admitted.sound
  rcases hcommit.grants hnew with ⟨hempty, -⟩ | ⟨cred', prev', hwho, haccepted', -, hgrants⟩
  · have hissued := haccepted.issued
    rw [hempty] at hissued
    exact nomatch hissued
  · obtain rfl : cred = cred' := Option.some.inj (hpresented.symm.trans hwho)
    obtain ⟨rfl, -⟩ := accepted_unique hsound haccepted haccepted' rfl
    exact hgrants

/-- Along delegations and rotations: the same facts still, or facts within the first row's policy. -/
theorem chain_within {root row : IssueRow} (h : Relation.ReflTransGen (IssuedUnder start turns) root row) :
    (row.cap = root.cap ∧ SameFacts root row) ∨ Within root row := by
  induction h with
  | refl => exact .inl ⟨rfl, SameFacts.refl _⟩
  | tail _ hstep ih =>
    rcases hstep.grants with hdelegates | hrotates
    · rcases ih with ⟨-, hsame⟩ | hwithin
      · exact .inr (hdelegates.within.of_same hsame)
      · exact .inr (hwithin.trans hdelegates.within)
    · rcases ih with ⟨hcap, hsame⟩ | hwithin
      · exact .inl ⟨hrotates.cap.trans hcap, hsame.trans hrotates.facts⟩
      · exact .inr (hwithin.to_same hrotates.facts)

/-- Every issue row goes back to one of the bootstrap's. -/
theorem exists_root (n : Nat) {log : List Admission} (hlog : log <+: logAfter start turns) (hn : log.length ≤ n)
    {row : IssueRow} (hrow : row ∈ issuesOf log) :
    ∃ root, Founded start turns root ∧ Relation.ReflTransGen (IssuedUnder start turns) root row := by
  induction n generalizing log row with
  | zero =>
    rw [List.length_eq_zero_iff.1 (Nat.le_zero.1 hn)] at hrow
    exact nomatch hrow
  | succ n ih =>
    have hlast : row ∈ issuesOf (logAfter start turns) := by
      obtain ⟨rows, hrows⟩ := hlog
      rw [← hrows, issuesOf_append]
      exact List.mem_append_left _ hrow
    obtain ⟨x, hx, hbefore, hfounded | ⟨prev, hprev, hissued⟩⟩ := exists_adds hlast
    · exact ⟨row, hfounded, .refl⟩
    · -- the log before the commit is shorter than any that has the row
      have hshort : (logBefore x).length < log.length := by
        rcases Nat.lt_or_ge (logBefore x).length log.length with hlt | hge
        · exact hlt
        · obtain ⟨rows, hrows⟩ := List.prefix_of_prefix_length_le hlog (logBefore_grows hx) hge
          refine absurd ?_ hbefore
          rw [← hrows, issuesOf_append]
          exact List.mem_append_left _ hrow
      obtain ⟨root, hroot, hchain⟩ := ih (logBefore_grows hx) (by omega) hprev
      exact ⟨root, hroot, hchain.tail hissued⟩

end Runs

/-! ### The claims -/

/-- What every run of the gates keeps of delegation. -/
structure DelegationLedger (start : EmptyLog) (turns : List GateTurn) : Prop where
  /-- Every issue row is one of the bootstrap's or was committed under an accepted, live credential. -/
  committed : ∀ row ∈ issuesOf (logAfter start turns),
    Founded start turns row ∨ ∃ prev, IssuedUnder start turns prev row
  founded : ∀ row, Founded start turns row → row.capgen = 1 ∧ (row.cap = reviewerCap ∨ row.cap = publisherCap)
  /-- That credential was an administrator's, and bounds the row, or its own key was rotated. -/
  bounded : ∀ prev row, IssuedUnder start turns prev row → Delegates prev row ∨ Rotates prev row
  rooted : ∀ row ∈ issuesOf (logAfter start turns),
    ∃ root, Founded start turns root ∧ Relation.ReflTransGen (IssuedUnder start turns) root row
  /-- A chain that delegates stays within the policy of its root. -/
  attenuates : ∀ root row, Relation.ReflTransGen (IssuedUnder start turns) root row →
    (row.cap = root.cap ∧ SameFacts root row) ∨ Within root row
  /-- What is accepted of such a chain its root could grant, at that time. -/
  acts : ∀ root row, Relation.ReflTransGen (IssuedUnder start turns) root row → row.cap ≠ root.cap →
    ∀ state : State, state.Reads (logAfter start turns) → ∀ cred scope rotating m,
      ((state.checked cred scope rotating).run.run StoreOp.exec [m] (gateRun start turns).state).2.map Prod.fst =
        some (.ok row) →
      (∀ s ∈ scope, s ∈ root.policy.scopes) ∧
        (∃ level, root.policy.adminCeiling = some level ∧ row.ceiling ≤ level) ∧
        ∃ now, m.wall = some now ∧ root.policy.LiveAt now

/-- Delegation only attenuates, and rotation hands on what was granted. -/
theorem delegation_attenuates (start : EmptyLog) (turns : List GateTurn) : DelegationLedger start turns := by
  constructor
  · intro row hrow
    obtain ⟨-, -, -, hfounded | ⟨prev, -, hissued⟩⟩ := exists_adds hrow
    · exact .inl hfounded
    · exact .inr ⟨prev, hissued⟩
  · exact fun _ h => h.facts
  · exact fun _ _ h => h.grants
  · exact fun row hrow => exists_root _ (List.prefix_refl _) (Nat.le_refl _) hrow
  · exact fun _ _ h => chain_within h
  · intro root row hchain hcap state hstate cred scope rotating m hchecked
    have hwithin := (chain_within hchain).resolve_left fun h => hcap h.1
    rw [run_checked, Option.some.injEq] at hchecked
    obtain ⟨found, hfound, h⟩ := Result.bind_eq_ok.1 hchecked
    obtain ⟨now, hnow, h⟩ := Result.bind_eq_ok.1 h
    obtain ⟨_, hlive, h⟩ := Result.bind_eq_ok.1 h
    cases h
    have hsound := (kept_after start turns).admitted.sound
    obtain ⟨-, hscope⟩ := (matching_eq_ok hsound hstate).1 hfound
    obtain ⟨n, hwall, -, rfl⟩ := nowOf_eq_ok.1 hnow
    obtain ⟨level, hlevel, hceiling, -⟩ := hwithin.level
    refine ⟨fun s hs => ?_, ⟨level, hlevel, hceiling⟩, n, hwall, hwithin.live (CapabilityPolicy.requireLive_eq_ok.1 hlive)⟩
    rw [hscope s hs]
    exact hwithin.scope

/-- Every issue row but the bootstrap's was committed under an administrator who bounds it, its role included. -/
def DelegationAttenuates (start : EmptyLog) (turns : List GateTurn) : Prop :=
  ∀ row ∈ issuesOf (logAfter start turns), Founded start turns row ∨
    ∃ admin, IssuedUnder start turns admin row ∧ Within admin row ∧ (row.role = .publisher → admin.role = .publisher)

/-! ### A reviewer's rotation -/

namespace ReviewerRotation

def gate : AccessGate := ⟨⟨"main", { StoreBounds.tiny with maxValueBytes := 2 ^ 20 }⟩⟩

def reason : Reason := ⟨"audit", by decide⟩

def reviewer : Credential where
  capability := reviewerCap
  keyId := ⟨reviewerKeyText, by decide⟩
  key := ⟨"synthetic-bootstrap-0-0-reviewer-1", by decide⟩

def publisher : Credential where
  capability := publisherCap
  keyId := ⟨publisherKeyText, by decide⟩
  key := ⟨"synthetic-bootstrap-0-0-publisher-1", by decide⟩

def nextKeyId : KeyId := ⟨"key-reviewer-2", by decide⟩
def nextKey : SyntheticKey := ⟨"synthetic-next", by decide⟩

/-- The turns of one bootstrap of a gate alone. -/
def bootstrapTurnsOf (g : AccessGate) : List GateTurn :=
  .ask (.bootstrap g 0 0 reason) :: (List.replicate 3 (Moment.quiet "op-1" 1000)).map (Turn.step 0)

/-- A bootstrap, and then the reviewer rotates its key. -/
def turnsOf (g : AccessGate) : List GateTurn :=
  bootstrapTurnsOf g ++ .ask (.rotate g reviewer nextKeyId nextKey reason) ::
    (List.replicate 4 (Moment.quiet "op-2" 2000)).map (Turn.step 1)

def bootstrapTurns : List GateTurn := bootstrapTurnsOf gate

def turns : List GateTurn := turnsOf gate

theorem reviewer_made : AccessGate.bootstrapCredential 0 0 reviewerCap reviewerKeyText = .ok reviewer := by rfl
theorem publisher_made : AccessGate.bootstrapCredential 0 0 publisherCap publisherKeyText = .ok publisher := by rfl

theorem quiet_undisturbed {db : Database OutboxTables} {id : String} (now : Nat) (hid : IsId id)
    (hfresh : id ∉ db.receipts.map ReceiptRow.operation) :
    Undisturbed db (Moment.quiet id now) (Moment.quiet id now) (Moment.quiet id now) where
  read := rfl
  fresh := by
    refine ⟨⟨id, hid⟩, parseId_of_isId hid, findReceipt_none.2 fun receipt hreceipt hsame => hfresh ?_⟩
    exact List.mem_map.2 ⟨receipt, hreceipt, hsame⟩
  host := ⟨rfl, rfl, rfl, rfl, rfl, rfl⟩

/-- Bounds that take three rows of admitted texts. -/
structure Roomy (store : SqliteStore) : Prop where
  value : 2 ^ 20 ≤ store.bounds.maxValueBytes
  space : 2 ^ 20 ≤ store.bounds.maxDbBytes

section Rotation

variable {g : AccessGate}

theorem rows_made (g : AccessGate) : ∃ rows, g.bootstrapRows reviewer publisher reason = .ok rows := by
  have hsome : (g.bootstrapRows reviewer publisher reason).toOption.isSome = true := by rfl
  cases hrows : g.bootstrapRows reviewer publisher reason with
  | error e =>
    rw [hrows] at hsome
    exact nomatch hsome
  | ok rows => exact ⟨rows, rfl⟩

/-- Rows with texts of the sizes an entry allows fit the store. -/
theorem holds_rows (hroomy : Roomy g.store) {log rows : List Admission}
    (hlog : log.length ≤ g.store.bounds.maxReplayRows) (hrows : rows.length ≤ 3)
    (hsize : ∀ row ∈ rows, row.encode.utf8ByteSize ≤ 12000) : Holds g.store log rows := by
  have hbound : ∀ rows : List Admission, (∀ row ∈ rows, row.encode.utf8ByteSize ≤ 12000) →
      payloadBound rows ≤ rows.length * 72040 := by
    intro rows hsize
    induction rows with
    | nil => exact Nat.le_refl _
    | cons row rows ih =>
      have hrow := hsize row List.mem_cons_self
      have hrest := ih fun r hr => hsize r (List.mem_cons_of_mem _ hr)
      unfold payloadBound at hrest ⊢
      rw [List.map_cons, List.sum_cons, List.length_cons]
      omega
  have hall := hbound rows hsize
  have hvalue := hroomy.value
  have hspace := hroomy.space
  constructor
  · exact hlog
  · omega
  · omega
  · omega

theorem size_issue_le {row : IssueRow} (credential : Credential) (reason : Reason) (label : DisplayLabel)
    (hkey : row.keyFp = credential.key.fingerprint) (hreason : row.reason = reason.text)
    (hlabel : row.label = label.text) : (Admission.issue row).encode.utf8ByteSize ≤ 12000 := by
  have hall := size_encodeIssue_le row (by rw [hkey]; exact (fingerprint_shape credential.key).2)
  have hreasonSize : reason.text.utf8ByteSize ≤ 256 := validateBounded_le reason.valid
  have hlabelSize : label.text.utf8ByteSize ≤ 128 := validateBounded_le label.valid
  have hencode : (Admission.issue row).encode = encodeIssue row := rfl
  rw [hreason, hlabel] at hall
  rw [hencode]
  omega

theorem size_bootstrap_le (reason : Reason) :
    (Admission.bootstrap (g.bootstrapMarker reason)).encode.utf8ByteSize ≤ 12000 := by
  have hgeneration : (g.bootstrapMarker reason).generation < 10 ^ 10 := by
    have hone : accessSchemaGeneration < 10 ^ 10 := by decide
    exact hone
  have hall := size_encodeBootstrap_le (g.bootstrapMarker reason) hgeneration
  have huser : (g.bootstrapMarker reason).user.text.utf8ByteSize ≤ 128 := frozenUser.valid.2.1
  have hissuer : (g.bootstrapMarker reason).issuer.text.utf8ByteSize ≤ 128 := frozenIssuer.valid.2.1
  have hmarker : (g.bootstrapMarker reason).reason.utf8ByteSize ≤ 256 := validateBounded_le reason.valid
  have hencode : (Admission.bootstrap (g.bootstrapMarker reason)).encode =
      encodeBootstrap (g.bootstrapMarker reason) := rfl
  rw [hencode]
  omega

theorem size_revoke_le (row : IssueRow) (reason : Reason) :
    (Admission.revoke (g.revokeRow row reason)).encode.utf8ByteSize ≤ 12000 := by
  have hall := size_encodeRevoke_le (g.revokeRow row reason)
  have hreason : (g.revokeRow row reason).reason.utf8ByteSize ≤ 256 := validateBounded_le reason.valid
  have hencode : (Admission.revoke (g.revokeRow row reason)).encode = encodeRevoke (g.revokeRow row reason) := rfl
  rw [hencode]
  omega

theorem played_bootstrap {db : Database OutboxTables} {credentials : BootstrapCredentials}
    (h : (g.bootstrap 0 0 reason).run.run StoreOp.exec (List.replicate 3 (Moment.quiet "op-1" 1000)) EmptyLog.fresh.db =
      (db, some (.ok credentials, []))) :
    (gateRun EmptyLog.fresh (bootstrapTurnsOf g)).state = db ∧
      (gateRun EmptyLog.fresh (bootstrapTurnsOf g)).calls.length = 1 := by
  have hcall : (GateRequest.bootstrap g 0 0 reason).call.run StoreOp.exec (List.replicate 3 (Moment.quiet "op-1" 1000))
      EmptyLog.fresh.db = (db, some (.ok (.bootstrapped credentials), [])) := run_try_ok.2 ⟨_, db, [], h, rfl⟩
  constructor
  · refine (Pool.played_alone StoreOp.exec (fun _ (r : GateRequest) => r.call) (Pool.idle EmptyLog.fresh.db) _ _).trans ?_
    exact congrArg Prod.fst hcall
  · exact Pool.length_calls_alone StoreOp.exec (fun _ (r : GateRequest) => r.call) (Pool.idle EmptyLog.fresh.db) _ 0 _

/-- The reviewer's rotation adds two rows to the three of the bootstrap: the second of them is the second row of its
chain, which no administrator granted. -/
theorem rotation_runs (hroomy : Roomy g.store) (hreplay : 3 ≤ g.store.bounds.maxReplayRows) :
    ∃ rows revoked row, rows.length = 3 ∧ logAfter EmptyLog.fresh (turnsOf g) = rows ++ [.revoke revoked, .issue row] ∧
      row.capgen = 2 ∧ row.policy = .entryOnly none := by
  obtain ⟨rows, hrows⟩ := rows_made g
  obtain ⟨scopeA, label, label', policy, -, -, hshape⟩ := bootstrapRows_eq_ok hrows
  have hlen : rows.length = 3 := by
    rw [hshape]
    rfl
  have hsize : ∀ row ∈ rows, row.encode.utf8ByteSize ≤ 12000 := by
    rw [hshape]
    intro row hrow
    simp only [List.mem_cons, List.not_mem_nil, or_false] at hrow
    rcases hrow with rfl | rfl | rfl
    · exact size_bootstrap_le reason
    · exact size_issue_le reviewer reason label rfl rfl rfl
    · exact size_issue_le publisher reason label' rfl rfl rfl
  have hroom : Room OutboxTables.empty (rows.length + 2) := by
    rw [hlen]
    exact ⟨by decide, by decide⟩
  have hroom' : Room OutboxTables.empty rows.length := by
    rw [hlen]
    exact ⟨by decide, by decide⟩
  -- the bootstrap
  obtain ⟨db, hboot, hlog, hkept, hleft, operation, hoperation, hreceipts⟩ := bootstrap_alone g EmptyLog.fresh.kept
    EmptyLog.fresh.admissions_eq reviewer_made publisher_made hrows (holds_rows hroomy (Nat.zero_le _) (by omega) hsize)
    hroom' (quiet_undisturbed 1000 (by decide : IsId "op-1") (by simp [EmptyLog.fresh])) []
  obtain rfl : (⟨"op-1", by decide⟩ : OperationId) = operation :=
    Except.ok.inj ((parseId_of_isId (by decide)).symm.trans hoperation)
  -- the rotation
  have hissues : issuesOf rows = [g.issueRow reviewer scopeA 1 .reviewer reason label (.entryOnly none),
      g.issueRow publisher scopeA 2 .publisher reason label' policy] := by
    rw [hshape]
    rfl
  have haccepted : Accepted (admissions db.tables) reviewer
      (g.issueRow reviewer scopeA 1 .reviewer reason label (.entryOnly none)) := by
    rw [hlog]
    refine ⟨by rw [hissues]; exact List.mem_cons_self, rfl, rfl, rfl, fun r hr _ => ?_, fun hrevoked => ?_⟩
    · rw [hissues] at hr
      simp only [List.mem_cons, List.not_mem_nil, or_false] at hr
      rcases hr with rfl | rfl
      · exact UInt32.le_refl _
      · exact UInt32.le_refl _
    · obtain ⟨r, hr, -⟩ := hrevoked
      rw [hshape] at hr
      exact nomatch hr
  have hfresh : ∀ r ∈ issuesOf (admissions db.tables),
      r.cap = (g.issueRow reviewer scopeA 1 .reviewer reason label (.entryOnly none)).cap → r.keyId ≠ nextKeyId := by
    have hkeys : reviewer.keyId ≠ nextKeyId ∧ publisher.keyId ≠ nextKeyId := by decide
    rw [hlog, hissues]
    intro r hr _
    simp only [List.mem_cons, List.not_mem_nil, or_false] at hr
    rcases hr with rfl | rfl
    · exact hkeys.1
    · exact hkeys.2
  have hsize' : ∀ row ∈ [Admission.revoke (g.revokeRow (g.issueRow reviewer scopeA 1 .reviewer reason label
      (.entryOnly none)) reason), .issue ((g.issueRow reviewer scopeA 1 .reviewer reason label
        (.entryOnly none)).successor 2 nextKeyId nextKey reason)], row.encode.utf8ByteSize ≤ 12000 := by
    intro row hrow
    simp only [List.mem_cons, List.not_mem_nil, or_false] at hrow
    rcases hrow with rfl | rfl
    · exact size_revoke_le _ reason
    · exact size_issue_le ⟨reviewerCap, nextKeyId, nextKey⟩ reason label rfl rfl rfl
  have hnext : AccessGate.nextGeneration (g.issueRow reviewer scopeA 1 .reviewer reason label (.entryOnly none)) =
      .ok 2 := rfl
  obtain ⟨db', hrotate, hlog', -⟩ := rotate_alone g hkept haccepted nextKeyId nextKey reason hnext hfresh
    (holds_rows hroomy (by rw [hlog, hlen]; exact hreplay) (by simp) hsize') (hleft 2 hroom)
    (quiet_undisturbed 2000 (by decide : IsId "op-2") (by rw [hreceipts]; simp [EmptyLog.fresh]))
    (Moment.quiet "op-2" 2000) rfl (by decide) (fun _ h => nomatch h) (fun _ h => nomatch h) []
  -- both calls in one run
  obtain ⟨hstate, hcalls⟩ := played_bootstrap hboot
  have hlast : (gateRun EmptyLog.fresh (turnsOf g)).state = db' := by
    unfold gateRun turnsOf
    rw [Pool.played_append]
    have halone := Pool.played_alone StoreOp.exec (fun _ (r : GateRequest) => r.call)
      (gateRun EmptyLog.fresh (bootstrapTurnsOf g)) (.rotate g reviewer nextKeyId nextKey reason)
      (List.replicate 4 (Moment.quiet "op-2" 2000))
    rw [hcalls, hstate] at halone
    have hcall : (GateRequest.rotate g reviewer nextKeyId nextKey reason).call.run StoreOp.exec
        (List.replicate 4 (Moment.quiet "op-2" 2000)) db = (db', some (.ok (.issued _), [])) :=
      run_try_ok.2 ⟨_, db', [], hrotate, rfl⟩
    exact halone.trans (congrArg Prod.fst hcall)
  refine ⟨rows, g.revokeRow (g.issueRow reviewer scopeA 1 .reviewer reason label (.entryOnly none)) reason,
    (g.issueRow reviewer scopeA 1 .reviewer reason label (.entryOnly none)).successor 2 nextKeyId nextKey reason, hlen, ?_,
    rfl, rfl⟩
  unfold logAfter
  rw [hlast, hlog', hlog]

end Rotation

/-- The reviewer's rotation commits the second row of its chain, which no administrator granted. -/
theorem rotated : ∃ row ∈ issuesOf (logAfter EmptyLog.fresh turns), row.capgen = 2 ∧ row.policy = .entryOnly none := by
  have hroomy : Roomy gate.store := ⟨Nat.le_refl _, by decide⟩
  obtain ⟨rows, revoked, row, -, hlog, hgen, hpolicy⟩ := rotation_runs hroomy (by decide)
  refine ⟨row, ?_, hgen, hpolicy⟩
  have hturns : logAfter EmptyLog.fresh turns = rows ++ [.revoke revoked, .issue row] := hlog
  rw [hturns, mem_issuesOf]
  simp

/-- The claim fails at the run: no administrator granted the reviewer's second row. -/
theorem not_attenuates : ¬ ∀ start turns, DelegationAttenuates start turns := by
  intro h
  obtain ⟨row, hrow, hgen, hpolicy⟩ := rotated
  rcases h _ _ row hrow with hfounded | ⟨admin, hissued, hwithin, -⟩
  · have hfirst := hfounded.facts.1
    rw [hgen] at hfirst
    exact absurd hfirst (by decide)
  · rcases hissued.grants with hdelegates | hrotates
    · have hfirst := hdelegates.first
      rw [hgen] at hfirst
      exact absurd hfirst (by decide)
    · obtain ⟨level, hlevel, -⟩ := hwithin.level
      rw [hrotates.facts.policy, hpolicy] at hlevel
      exact nomatch hlevel

end ReviewerRotation

end Verdant.Access
