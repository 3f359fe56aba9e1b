import Verdant.Access.GateLaw
import Verdant.Library.Yields

/-!
# Rows as text

The rows that a call builds from the state it read, whether or not its batch commits (`Builds`).  The descriptor of each is
printable ASCII, and the reader of its kind gives the row back (`builds_reads`).  The rows a state was read from are well
formed, so no assumption on the log is needed; and what the calls submit are batches of built rows only,
of one number for each call
(`bootstrap_submits`, `issue_submits`, `rotate_submits`, `revoke_submits`).
-/

namespace Verdant.Access

open TextCodec Storage Prog

/-! ### Reading by kind -/

namespace Admission

def kind : Admission → String
  | .bootstrap _ => "bootstrap"
  | .issue _ => "issue"
  | .revoke _ => "revoke"

/-- The reader of its kind gives the row for the fields. -/
def ReadFrom (fields : Fields) : Admission → Prop
  | .bootstrap row => decodeBootstrap fields = .ok row
  | .issue row => decodeIssue fields = .ok row
  | .revoke row => decodeRevoke fields = .ok row

/-- `decode_descriptor` and the reader of its kind give the row back. -/
def Reads (row : Admission) : Prop := ∃ fields, decodeDescriptor row.encode = .ok (row.kind, fields) ∧ row.ReadFrom fields

end Admission

/-- A row is read by the reader of its kind from the fields of the descriptor. -/
theorem decodeAdmission_eq_ok {operation text : String} {row : Admission}
    (h : decodeAdmission operation text = .ok row) :
    ∃ fields, decodeDescriptor text = .ok (row.kind, fields) ∧ row.ReadFrom fields := by
  unfold decodeAdmission at h
  obtain ⟨⟨kind, fields⟩, hdescriptor, h⟩ := Result.bind_eq_ok.1 h
  simp only at h
  split at h
  · rename_i hkind
    obtain ⟨r, hr, h⟩ := Result.bind_eq_ok.1 h
    cases h
    rw [hkind.2] at hdescriptor
    exact ⟨fields, hdescriptor, hr⟩
  split at h
  · rename_i hkind
    obtain ⟨r, hr, h⟩ := Result.bind_eq_ok.1 h
    cases h
    rw [hkind.2] at hdescriptor
    exact ⟨fields, hdescriptor, hr⟩
  split at h
  · rename_i hkind
    obtain ⟨r, hr, h⟩ := Result.bind_eq_ok.1 h
    cases h
    rw [hkind.2] at hdescriptor
    exact ⟨fields, hdescriptor, hr⟩
  · exact nomatch h

theorem Admission.WellFormed.reads {row : Admission} (h : row.WellFormed) : row.Reads :=
  decodeAdmission_eq_ok (decodeAdmission_encode h)

/-! ### What is read is well formed -/

theorem nonEmpty_eq_ok {what raw : String} {u : Unit} (h : nonEmpty what raw = .ok u) : raw ≠ "" :=
  (Result.ite_error_eq_ok.1 h).1

theorem decodeCapgen_eq_ok {what raw : String} {capgen : UInt32} (h : decodeCapgen what raw = .ok capgen) : capgen ≠ 0 := by
  unfold decodeCapgen at h
  split at h
  · exact nomatch h
  · obtain ⟨hne, h⟩ := Result.ite_error_eq_ok.1 h
    cases h
    exact hne

theorem decodeCeiling_eq_ok {raw : String} {ceiling : UInt8} (h : decodeCeiling raw = .ok ceiling) :
    ceiling ≤ maxCeilingLevel := by
  unfold decodeCeiling at h
  split at h
  · exact nomatch h
  · obtain ⟨hle, h⟩ := Result.ite_error_eq_ok.1 h
    cases h
    exact UInt8.not_lt.1 hle

theorem decodeGeneration_eq_ok {raw : String} {n : Nat} (h : decodeGeneration raw = .ok n) : n = accessSchemaGeneration := by
  unfold decodeGeneration at h
  split at h
  · exact nomatch h
  · obtain ⟨heq, h⟩ := Result.ite_error_eq_ok.1 h
    cases h
    exact not_not.1 heq

theorem administrator_eq_ok {scopes : List TrustedScope} {level : UInt8} {expires : Option Int64}
    {policy : CapabilityPolicy} (h : CapabilityPolicy.administrator scopes level expires = .ok policy) :
    policy.adminCeiling = some level := by
  unfold CapabilityPolicy.administrator at h
  split at h
  · cases h
  split at h
  · cases h
    rfl
  · cases h

/-- The administrative ceiling of a policy that is read is within the ceiling of its row. -/
theorem decodePolicy_eq_ok {ceiling : UInt8} {admin scopes : String} {expires : Option Int64} {policy : CapabilityPolicy}
    (h : decodePolicy ceiling admin scopes expires = .ok policy) : ∀ level ∈ policy.adminCeiling, level ≤ ceiling := by
  intro level hlevel
  unfold decodePolicy at h
  split at h
  · obtain ⟨-, h⟩ := Result.ite_error_eq_ok.1 h
    cases h
    exact nomatch hlevel
  split at h
  · exact nomatch h
  · obtain ⟨hle, h⟩ := Result.ite_error_eq_ok.1 h
    obtain ⟨_, -, h⟩ := Result.bind_eq_ok.1 h
    have hadmin := administrator_eq_ok (Result.mapError_eq_ok.1 h)
    cases hadmin.symm.trans hlevel
    exact UInt8.not_lt.1 hle

theorem Admission.ReadFrom.wellFormed {fields : Fields} {row : Admission} (h : row.ReadFrom fields) : row.WellFormed := by
  cases row with
  | bootstrap row =>
    unfold ReadFrom decodeBootstrap at h
    obtain ⟨_, -, h⟩ := Result.bind_eq_ok.1 h
    obtain ⟨_, -, h⟩ := Result.bind_eq_ok.1 h
    obtain ⟨_, -, h⟩ := Result.bind_eq_ok.1 h
    obtain ⟨_, -, h⟩ := Result.bind_eq_ok.1 h
    obtain ⟨reason, -, h⟩ := Result.bind_eq_ok.1 h
    obtain ⟨_, hreason, h⟩ := Result.bind_eq_ok.1 h
    obtain ⟨_, -, h⟩ := Result.bind_eq_ok.1 h
    obtain ⟨generation, hgeneration, h⟩ := Result.bind_eq_ok.1 h
    cases h
    exact ⟨nonEmpty_eq_ok hreason, decodeGeneration_eq_ok hgeneration⟩
  | issue row =>
    unfold ReadFrom decodeIssue at h
    obtain ⟨_, -, h⟩ := Result.bind_eq_ok.1 h
    obtain ⟨_, -, h⟩ := Result.bind_eq_ok.1 h
    obtain ⟨_, -, h⟩ := Result.bind_eq_ok.1 h
    obtain ⟨ceiling, hceiling, h⟩ := Result.bind_eq_ok.1 h
    obtain ⟨_, -, h⟩ := Result.bind_eq_ok.1 h
    obtain ⟨_, -, h⟩ := Result.bind_eq_ok.1 h
    obtain ⟨_, -, h⟩ := Result.bind_eq_ok.1 h
    obtain ⟨_, -, h⟩ := Result.bind_eq_ok.1 h
    obtain ⟨_, -, h⟩ := Result.bind_eq_ok.1 h
    obtain ⟨_, -, h⟩ := Result.bind_eq_ok.1 h
    obtain ⟨keyFp, -, h⟩ := Result.bind_eq_ok.1 h
    obtain ⟨hshape, h⟩ := Result.ite_error_eq_ok.1 h
    obtain ⟨hfp, hsize⟩ := not_or.1 hshape
    obtain ⟨_, -, h⟩ := Result.bind_eq_ok.1 h
    obtain ⟨_, -, h⟩ := Result.bind_eq_ok.1 h
    obtain ⟨_, -, h⟩ := Result.bind_eq_ok.1 h
    obtain ⟨capgen, hcapgen, h⟩ := Result.bind_eq_ok.1 h
    obtain ⟨_, -, h⟩ := Result.bind_eq_ok.1 h
    obtain ⟨_, -, h⟩ := Result.bind_eq_ok.1 h
    obtain ⟨reason, -, h⟩ := Result.bind_eq_ok.1 h
    obtain ⟨_, hreason, h⟩ := Result.bind_eq_ok.1 h
    obtain ⟨label, -, h⟩ := Result.bind_eq_ok.1 h
    obtain ⟨_, hlabel, h⟩ := Result.bind_eq_ok.1 h
    obtain ⟨_, -, h⟩ := Result.bind_eq_ok.1 h
    obtain ⟨expires, -, h⟩ := Result.bind_eq_ok.1 h
    obtain ⟨_, -, h⟩ := Result.bind_eq_ok.1 h
    obtain ⟨_, -, h⟩ := Result.bind_eq_ok.1 h
    obtain ⟨policy, hpolicy, h⟩ := Result.bind_eq_ok.1 h
    cases h
    exact ⟨decodeCeiling_eq_ok hceiling, decodeCapgen_eq_ok hcapgen, nonEmpty_eq_ok hreason, nonEmpty_eq_ok hlabel, hfp,
      Nat.le_of_not_lt hsize, decodePolicy_eq_ok hpolicy⟩
  | revoke row =>
    unfold ReadFrom decodeRevoke at h
    obtain ⟨_, -, h⟩ := Result.bind_eq_ok.1 h
    obtain ⟨_, -, h⟩ := Result.bind_eq_ok.1 h
    obtain ⟨_, -, h⟩ := Result.bind_eq_ok.1 h
    obtain ⟨_, -, h⟩ := Result.bind_eq_ok.1 h
    obtain ⟨_, -, h⟩ := Result.bind_eq_ok.1 h
    obtain ⟨capgen, hcapgen, h⟩ := Result.bind_eq_ok.1 h
    obtain ⟨_, -, h⟩ := Result.bind_eq_ok.1 h
    obtain ⟨_, -, h⟩ := Result.bind_eq_ok.1 h
    obtain ⟨reason, -, h⟩ := Result.bind_eq_ok.1 h
    obtain ⟨_, hreason, h⟩ := Result.bind_eq_ok.1 h
    cases h
    exact ⟨decodeCapgen_eq_ok hcapgen, nonEmpty_eq_ok hreason⟩

/-- The issue rows of a state are well formed. -/
def State.Readable (state : State) : Prop := ∀ row ∈ state.issues, (Admission.issue row).WellFormed

theorem State.Readable.record {state next : State} {row : Admission} (h : state.Readable) (hrow : row.WellFormed)
    (hnext : state.record row = .ok next) : next.Readable := by
  cases row with
  | bootstrap row =>
    cases hnext
    exact h
  | revoke row =>
    cases hnext
    exact h
  | issue row =>
    obtain ⟨-, hnext⟩ := Result.ite_error_eq_ok.1 hnext
    cases hnext
    intro r hr
    rcases List.mem_append.1 hr with hr | hr
    · exact h r hr
    · rw [List.mem_singleton.1 hr]
      exact hrow

theorem State.Readable.push {state next : State} {columns : List String} (h : state.Readable)
    (hnext : state.push columns = .ok next) : next.Readable := by
  unfold State.push at hnext
  split at hnext
  · split at hnext
    · exact nomatch hnext
    obtain ⟨_, -, hnext⟩ := Result.bind_eq_ok.1 hnext
    obtain ⟨_, -, hnext⟩ := Result.bind_eq_ok.1 hnext
    obtain ⟨_, -, hnext⟩ := Result.bind_eq_ok.1 hnext
    obtain ⟨_, -, hnext⟩ := Result.bind_eq_ok.1 hnext
    obtain ⟨row, hrow, hnext⟩ := Result.bind_eq_ok.1 hnext
    obtain ⟨recorded, hrecorded, hnext⟩ := Result.bind_eq_ok.1 hnext
    obtain ⟨-, hnext⟩ := Result.ite_error_eq_ok.1 hnext
    cases hnext
    obtain ⟨fields, -, hread⟩ := decodeAdmission_eq_ok hrow
    have hall : recorded.Readable := h.record hread.wellFormed hrecorded
    exact hall
  · exact nomatch hnext

theorem readable_foldlM {rows : Rows} {state next : State} (h : state.Readable)
    (hnext : rows.foldlM State.push state = .ok next) : next.Readable := by
  induction rows generalizing state with
  | nil =>
    cases hnext
    exact h
  | cons row rows ih =>
    rw [List.foldlM_cons] at hnext
    obtain ⟨middle, hmiddle, hnext⟩ := Result.bind_eq_ok.1 hnext
    exact ih (h.push hmiddle) hnext

theorem readable_ofRows {bounds : StoreBounds} {rows : Rows} {state : State} (h : State.ofRows bounds rows = .ok state) :
    state.Readable := by
  obtain ⟨-, h⟩ := Result.ite_error_eq_ok.1 h
  exact readable_foldlM (fun row hrow => absurd hrow List.not_mem_nil) h

/-! ### Built rows -/

/-- The rows a call builds from the state it read. -/
inductive Builds (state : State) : Admission → Prop
  | bootstrap (gate : AccessGate) {reviewer publisher : Credential} {reason : Reason} {rows : List Admission}
      {row : Admission} (built : gate.bootstrapRows reviewer publisher reason = .ok rows) (mem : row ∈ rows) :
      Builds state row
  | issue (gate : AccessGate) {admin : IssueRow} {scope : TrustedScope} {ceiling : UInt8} {bound : CredentialCeiling}
      {policy : CapabilityPolicy} (credential : Credential) (role : RoleKind) (reason : Reason) (label : DisplayLabel)
      (bounded : CredentialCeiling.new scope ceiling = .ok bound)
      (authorized : admin.policy.authorize bound policy = .ok ()) :
      Builds state (.issue (gate.issueRow credential scope ceiling role reason label policy))
  | successor {row : IssueRow} {next : UInt32} (keyId : KeyId) (key : SyntheticKey) (reason : Reason)
      (issued : row ∈ state.issues) (counted : AccessGate.nextGeneration row = .ok next) :
      Builds state (.issue (row.successor next keyId key reason))
  | revoke (gate : AccessGate) {row : IssueRow} (reason : Reason) (issued : row ∈ state.issues) :
      Builds state (.revoke (gate.revokeRow row reason))

theorem credentialCeiling_eq_ok {scope : TrustedScope} {level : UInt8} {bound : CredentialCeiling}
    (h : CredentialCeiling.new scope level = .ok bound) : ∃ hle : level ≤ maxCeilingLevel, bound = ⟨scope, level, hle⟩ := by
  unfold CredentialCeiling.new at h
  split at h
  · rename_i hle
    cases h
    exact ⟨hle, rfl⟩
  · cases h

theorem wellFormed_builds {state : State} (hstate : state.Readable) {row : Admission} (h : Builds state row) :
    row.WellFormed := by
  cases h with
  | bootstrap gate hbuilt hmem => exact wellFormed_bootstrapRows hbuilt row hmem
  | issue gate credential role reason label hbounded hauthorized =>
    obtain ⟨hle, rfl⟩ := credentialCeiling_eq_ok hbounded
    exact wellFormed_issueRow gate credential _ role reason label (CapabilityPolicy.bounds_of_authorize hauthorized).ceiling
  | successor keyId key reason hissued hcounted => exact wellFormed_successor keyId key reason (hstate _ hissued) hcounted
  | revoke gate reason hissued => exact wellFormed_revokeRow gate reason (hstate _ hissued)

/-! ### Printable text -/

/-- Printable ASCII. -/
def Printable (s : String) : Prop := ∀ c ∈ s.toList, 0x20 ≤ c.toNat ∧ c.toNat ≤ 0x7E

theorem printable_encode (row : Admission) : Printable row.encode := by
  intro c hc
  by_contra hbad
  have hrange : c.toNat < ' '.toNat ∨ '~'.toNat < c.toNat := by
    have hspace : ' '.toNat = 0x20 := rfl
    have htilde : '~'.toNat = 0x7E := rfl
    omega
  have hplain : ∀ d : Char, ' '.toNat ≤ d.toNat → d.toNat ≤ '~'.toNat → c ≠ d := by
    rintro d hlow hhigh rfl
    omega
  have hdigit : ∀ n < 16, hexDigit n ≠ c := by
    have hall : ∀ n < 16, ' '.toNat ≤ (hexDigit n).toNat ∧ (hexDigit n).toNat ≤ '~'.toNat := by decide
    exact fun n hn => (hplain _ (hall n hn).1 (hall n hn).2).symm
  have hkeys : ∀ key ∈ row.texts.map Prod.fst, c ∉ key.toList := by
    have hall : ∀ key ∈ bootstrapFields ++ issueFields ++ revokeFields,
        key.toList.all (fun d => decide (' '.toNat ≤ d.toNat ∧ d.toNat ≤ '~'.toNat)) = true := by decide
    have hfields : ∀ key ∈ row.texts.map Prod.fst, key ∈ bootstrapFields ++ issueFields ++ revokeFields := by
      intro key hkey
      cases row with
      | bootstrap row => exact List.mem_append_left _ (List.mem_append_left _ hkey)
      | issue row => exact List.mem_append_left _ (List.mem_append_right _ hkey)
      | revoke row => exact List.mem_append_right _ hkey
    intro key hkey hmem
    have hin := of_decide_eq_true (List.all_eq_true.1 (hall key (hfields key hkey)) c hmem)
    omega
  rw [row.encode_eq] at hc
  unfold descriptor at hc
  refine not_mem_joinText (hplain ';' (by decide) (by decide)) (fun part hpart hmem => ?_) hc
  rw [List.map_map] at hpart
  obtain ⟨f, hf, rfl⟩ := List.mem_map.1 hpart
  simp only [Function.comp_apply, descriptorPart, String.toList_append, List.mem_append] at hmem
  rcases hmem with (hkey | hequals) | hvalue
  · exact hkeys f.1 (List.mem_map_of_mem hf) hkey
  · exact hplain '=' (by decide) (by decide) (by simpa using hequals)
  · exact not_mem_pctEncode f.2 (hplain '%' (by decide) (by decide)) hdigit (.inr (.inr hrange)) hvalue

/-- Every row a call builds from what it read is written as printable ASCII and read back as it is. -/
theorem builds_reads {bounds : StoreBounds} {rows : Rows} {state : State} (hstate : State.ofRows bounds rows = .ok state)
    {row : Admission} (h : Builds state row) : row.Reads ∧ Printable row.encode :=
  ⟨(wellFormed_builds (readable_ofRows hstate) h).reads, printable_encode row⟩

namespace AwkwardLabel

def gate : AccessGate := ⟨⟨"main", .tiny⟩⟩
theorem scope_valid : IsId "scope-a" := by decide
theorem key_valid : IsId reviewerKeyText := by decide

def scope : TrustedScope := ⟨"scope-a", scope_valid⟩
def credential : Credential := ⟨reviewerCap, ⟨reviewerKeyText, key_valid⟩, ⟨"synthetic-key", by decide⟩⟩
def reason : Reason := ⟨"50% = ½;\n", by decide⟩
def label : DisplayLabel := ⟨"a=b;c%3Bé", by decide⟩
def bound : CredentialCeiling := ⟨scope, 1, by decide⟩

/-- An administrator of one scope. -/
def policy : CapabilityPolicy where
  scopes := [scope]
  adminCeiling := some 2
  expiresAtMs := none
  entry h := nomatch h
  admin := by
    rintro level ⟨⟩
    decide

end AwkwardLabel

/-- A row whose reason and label hold every reserved character is read back. -/
theorem awkward_label_reads : (Admission.issue (AwkwardLabel.gate.issueRow AwkwardLabel.credential AwkwardLabel.scope 1
      .reviewer AwkwardLabel.reason AwkwardLabel.label (.entryOnly none))).Reads ∧
    Printable (Admission.issue (AwkwardLabel.gate.issueRow AwkwardLabel.credential AwkwardLabel.scope 1 .reviewer
      AwkwardLabel.reason AwkwardLabel.label (.entryOnly none))).encode := by
  have hstate : State.ofRows .tiny [] = .ok (State.start 0) := rfl
  have hbound : CredentialCeiling.new AwkwardLabel.scope 1 = .ok AwkwardLabel.bound := rfl
  have hauthorized : (AwkwardLabel.gate.issueRow AwkwardLabel.credential AwkwardLabel.scope 2 .publisher AwkwardLabel.reason
      AwkwardLabel.label AwkwardLabel.policy).policy.authorize AwkwardLabel.bound (.entryOnly none) = .ok () := by decide
  exact builds_reads hstate (.issue AwkwardLabel.gate AwkwardLabel.credential .reviewer AwkwardLabel.reason
    AwkwardLabel.label hbound hauthorized)

/-! ### Submitted batches -/

/-- A submit is of a batch of `n` rows built from a state that was read. -/
def SubmitsBuilt (n : Nat) : StoreOp OutboxTables → Prop
  | .submit _ pending => ∃ (bounds : StoreBounds) (columns : Rows) (state : State) (rows : List Admission)
      (expires : Option Int64), State.ofRows bounds columns = .ok state ∧ Built state rows expires pending ∧
        (∀ row ∈ rows, Builds state row) ∧ rows.length = n
  | _ => True

section Submits

variable {n : Nat} (gate : AccessGate)

theorem read_returns (store : SqliteStore) :
    Returns (fun state => ∃ columns, State.ofRows store.bounds columns = .ok state) (State.read store) := by
  unfold State.read
  refine Returns.tryBind (R := fun _ => True) (fun answer a _ => trivial) fun columns _ => ?_
  exact fun state h => ⟨columns, h⟩

theorem read_submitsBuilt (store : SqliteStore) : (State.read store).run.Issues (SubmitsBuilt n) :=
  Issues.tryBind (Issues.mapErr (issues_issue trivial)) fun _ => issues_check

theorem issued_of_matching {state : State} {cred : Credential} {scope : Option TrustedScope} {rotating : Bool}
    {row : IssueRow} (h : state.matching cred scope rotating = .ok row) : row ∈ state.issues := by
  unfold State.matching at h
  obtain ⟨_, -, h⟩ := Result.bind_eq_ok.1 h
  obtain ⟨_, -, h⟩ := Result.bind_eq_ok.1 h
  split at h
  · exact nomatch h
  rename_i found hfound
  obtain ⟨-, h⟩ := Result.ite_error_eq_ok.1 h
  obtain ⟨-, h⟩ := Result.ite_error_eq_ok.1 h
  obtain ⟨-, h⟩ := Result.ite_error_eq_ok.1 h
  obtain ⟨_, -, h⟩ := Result.bind_eq_ok.1 h
  obtain ⟨-, h⟩ := Result.ite_error_eq_ok.1 h
  obtain ⟨-, h⟩ := Result.ite_error_eq_ok.1 h
  obtain ⟨-, h⟩ := Result.ite_error_eq_ok.1 h
  cases h
  exact List.mem_of_find?_eq_some hfound

/-- What is checked is one of the rows of the state. -/
theorem checked_returns (state : State) (cred : Credential) (scope : Option TrustedScope) (rotating : Bool) :
    Returns (fun row => row ∈ state.issues) (state.checked cred scope rotating) := by
  unfold State.checked
  refine Returns.tryBind returns_check fun row hrow => ?_
  refine Returns.tryBind (R := fun _ => True) (fun answer a _ => trivial) fun now _ => ?_
  refine Returns.tryBind (R := fun _ => True) (fun a _ => trivial) fun _ _ => ?_
  rintro _ ⟨⟩
  exact issued_of_matching hrow

theorem checked_submitsBuilt (state : State) (cred : Credential) (scope : Option TrustedScope) (rotating : Bool) :
    (state.checked cred scope rotating).run.Issues (SubmitsBuilt n) := by
  unfold State.checked
  refine Issues.tryBind issues_check fun row => ?_
  refine Issues.tryBind (Issues.tryBind (issues_lift (issues_issue trivial)) fun _ => issues_check) fun now => ?_
  exact Issues.tryBind issues_check fun _ => trivial

theorem batch_returns (state : State) (rows : List Admission) (expires : Option Int64) :
    Returns (Built state rows expires) (gate.batch state (rows.map Admission.toRecord) expires) := by
  unfold AccessGate.batch
  refine Returns.tryBind returns_check fun ⟨script, total⟩ hscript => ?_
  refine Returns.tryBind (R := fun _ => True) (fun answer a _ => trivial) fun id _ => ?_
  intro pending hpending
  obtain ⟨-, heq⟩ := prepareGuardedBatch_eq_ok (Result.mapError_eq_ok.1 hpending)
  refine ⟨script, total, hscript, ?_⟩
  rw [heq]

theorem batch_submitsBuilt (state : State) (records : List AdmissionRecord) (expires : Option Int64) :
    (gate.batch state records expires).run.Issues (SubmitsBuilt n) := by
  unfold AccessGate.batch
  exact Issues.tryBind issues_check fun _ => Issues.tryBind (issues_lift (issues_issue trivial)) fun _ => issues_check

theorem submit_submitsBuilt {bounds : StoreBounds} {columns : Rows} {state : State}
    (hstate : State.ofRows bounds columns = .ok state) {rows : List Admission} (hrows : ∀ row ∈ rows, Builds state row)
    (hlen : rows.length = n) {expires : Option Int64} {pending : PreparedMutation OutboxTables}
    (hbuilt : Built state rows expires pending) : (gate.submit pending).run.Issues (SubmitsBuilt n) := by
  unfold AccessGate.submit
  refine Issues.tryBind (issues_lift (issues_issue ?_)) fun _ => issues_check
  exact ⟨bounds, columns, state, rows, expires, hstate, hbuilt, hrows, hlen⟩

theorem bootstrap_submits (pid uniq : Nat) (reason : Reason) :
    (gate.bootstrap pid uniq reason).run.Issues (SubmitsBuilt 3) := by
  unfold AccessGate.bootstrap
  refine Issues.tryReturns (read_submitsBuilt gate.store) (read_returns gate.store) fun state ⟨columns, hstate⟩ => ?_
  split
  · exact trivial
  refine Issues.tryBind issues_check fun reviewer => ?_
  refine Issues.tryBind issues_check fun publisher => ?_
  refine Issues.tryReturns issues_check returns_check fun rows hrows => ?_
  refine Issues.tryReturns (batch_submitsBuilt gate state _ none) (batch_returns gate state rows none) fun pending hbuilt => ?_
  obtain ⟨_, _, _, _, -, -, hshape⟩ := bootstrapRows_eq_ok hrows
  have hlen : rows.length = 3 := by
    rw [hshape]
    rfl
  refine Issues.tryBind (Issues.mapErr (submit_submitsBuilt gate hstate (fun row hrow => ?_) hlen hbuilt)) fun _ => trivial
  exact .bootstrap gate hrows hrow

theorem issue_submits (capability : CapabilityName) (scope : TrustedScope) (ceiling : UInt8) (role : RoleKind)
    (keyId : KeyId) (key : SyntheticKey) (administrator : Credential) (reason : Reason) (label : DisplayLabel)
    (policy : CapabilityPolicy) :
    (gate.issueWithPolicy capability scope ceiling role keyId key administrator reason label policy).run.Issues
      (SubmitsBuilt 1) := by
  unfold AccessGate.issueWithPolicy
  refine Issues.tryReturns (read_submitsBuilt gate.store) (read_returns gate.store) fun state ⟨columns, hstate⟩ => ?_
  refine Issues.tryReturns (checked_submitsBuilt state administrator none false) (checked_returns state _ _ _)
    fun admin hadmin => ?_
  refine Issues.tryReturns issues_check returns_check fun bound hbound => ?_
  refine Issues.tryReturns issues_check returns_check fun _ hauthorized => ?_
  refine Issues.tryBind (Issues.tryBind (issues_lift (issues_issue trivial)) fun _ => issues_check) fun now => ?_
  refine Issues.tryBind issues_check fun _ => ?_
  split
  · exact trivial
  refine Issues.tryReturns (batch_submitsBuilt gate state _ _) (batch_returns gate state [_] _) fun pending hbuilt => ?_
  refine Issues.tryBind (submit_submitsBuilt gate hstate (fun row hrow => ?_) rfl hbuilt) fun _ => trivial
  rw [List.mem_singleton.1 hrow]
  exact .issue gate _ role reason label (Result.mapError_eq_ok.1 hbound) hauthorized

theorem rotate_submits (current : Credential) (newKeyId : KeyId) (newKey : SyntheticKey) (reason : Reason) :
    (gate.rotate current newKeyId newKey reason).run.Issues (SubmitsBuilt 2) := by
  unfold AccessGate.rotate
  refine Issues.tryReturns (read_submitsBuilt gate.store) (read_returns gate.store) fun state ⟨columns, hstate⟩ => ?_
  refine Issues.tryReturns (checked_submitsBuilt state current none true) (checked_returns state _ _ _) fun row hrow => ?_
  refine Issues.tryReturns issues_check returns_check fun next hnext => ?_
  split
  · exact trivial
  refine Issues.tryReturns (batch_submitsBuilt gate state _ _) (batch_returns gate state [_, _] _) fun pending hbuilt => ?_
  refine Issues.tryBind (submit_submitsBuilt gate hstate (fun r hr => ?_) rfl hbuilt) fun _ => trivial
  simp only [List.mem_cons, List.not_mem_nil, or_false] at hr
  rcases hr with rfl | rfl
  · exact .revoke gate reason hrow
  · exact .successor newKeyId newKey reason hrow hnext

theorem revoke_submits (current : Credential) (reason : Reason) :
    (gate.revoke current reason).run.Issues (SubmitsBuilt 1) := by
  unfold AccessGate.revoke
  refine Issues.tryReturns (read_submitsBuilt gate.store) (read_returns gate.store) fun state ⟨columns, hstate⟩ => ?_
  refine Issues.tryReturns (checked_submitsBuilt state current none false) (checked_returns state _ _ _) fun row hrow => ?_
  refine Issues.tryReturns (batch_submitsBuilt gate state _ _) (batch_returns gate state [_] _) fun pending hbuilt => ?_
  refine submit_submitsBuilt gate hstate (fun r hr => ?_) rfl hbuilt
  rw [List.mem_singleton.1 hr]
  exact .revoke gate reason hrow

end Submits

end Verdant.Access
