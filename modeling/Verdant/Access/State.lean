import Verdant.Access.Rows
import Verdant.Domain.JsonText
import Verdant.Library.TryProg
import Verdant.Storage.OutboxHistory

/-!
# The admission state

One bounded read of the admission log gives both what a credential is checked against and the guard that the log is still
the one read.  `State.ofRows` folds the rows of the read; on the rows of a log of well-formed events without duplicates it
never refuses (`ofRows_columns`), and what it gives is the events by kind.
-/

namespace Verdant.Access

open TextCodec Storage

/-- Replays of the admission log; `guard` compares all authorization-bearing bytes. -/
structure State where
  issues : List IssueRow
  revokes : List RevokeRow
  bootstraps : List BootstrapRow
  count : Nat
  guard : Guard

def isAdmission (r : OutboxRecord) : Bool := likePrefix "access-" r.operation

/-! ### Reading -/

def admissionColumns (r : OutboxRecord) : List String :=
  [Nat.repr r.id, sqlQuote r.operation, sqlQuote r.entity, sqlQuote r.valueJson]

def selectAdmissions (limit : Nat) : Query OutboxTables :=
  selectLog (s!"SELECT id, quote(operation), quote(entity), quote(value_json) FROM outbox WHERE operation LIKE " ++
    s!"'access-%' ORDER BY id LIMIT {limit};") isAdmission admissionColumns (some limit)

def admissionText (column : String) : Except AccessError String := do
  match ← (unquoteText column).mapError fun _ => invalid s!"quoted admission column malformed: '{column}'" with
  | some text => .ok text
  | none => .error (invalid "NULL admission field")

def admissionValue (valueJson : String) : Except AccessError String := do
  match ← (Value.fromJson valueJson).mapError fun e => invalid e.display with
  | .text descriptor => .ok descriptor
  | _ => .error (invalid "admission value is not text")

/-- The conjunct of one row. -/
def admissionExists (id : Int) (operation entity valueJson : String) : String :=
  s!" AND EXISTS(SELECT 1 FROM outbox WHERE id={id} AND operation={sqlQuote operation} AND " ++
    s!"entity={sqlQuote entity} AND value_json={sqlQuote valueJson})"

def countAdmissions (n : Nat) : Guard where
  text := s!"(SELECT COUNT(*) FROM outbox WHERE operation LIKE 'access-%') = {n}"
  holds := countIs isAdmission n

namespace State

def start (count : Nat) : State := ⟨[], [], [], count, countAdmissions count⟩

/-- The event put where its kind belongs. -/
def record (state : State) : Admission → Except AccessError State
  | .bootstrap row => .ok { state with bootstraps := state.bootstraps ++ [row] }
  | .issue row =>
    if state.issues.any fun r => r.cap = row.cap && (r.capgen = row.capgen || r.keyId = row.keyId) then
      .error (invalid "duplicate capability generation or key identity")
    else .ok { state with issues := state.issues ++ [row] }
  | .revoke row => .ok { state with revokes := state.revokes ++ [row] }

def push (state : State) : List String → Except AccessError State
  | [c0, c1, c2, c3] =>
    match parseI64 c0 with
    | none => .error (invalid "admission id unreadable")
    | some id => do
      let operation ← admissionText c1
      let entity ← admissionText c2
      let valueJson ← admissionText c3
      let descriptor ← admissionValue valueJson
      let row ← decodeAdmission operation descriptor
      let state ← state.record row
      if row.anchor ≠ entity then .error (invalid "admission entity/descriptor mismatch")
      else .ok { state with
        guard := state.guard.also (admissionExists id operation entity valueJson)
          (present fun r => r.id = id && r.operation = operation && r.entity = entity && r.valueJson = valueJson) }
  | _ => .error (invalid "admission scan requires four columns")

def ofRows (bounds : StoreBounds) (rows : Rows) : Except AccessError State :=
  if bounds.maxReplayRows < rows.length then
    .error (invalid "access history exceeds bounded replay horizon; no truncated authorization")
  else rows.foldlM push (start rows.length)

def read (store : SqliteStore) : Prog.Try (StoreOp.Answer (ρ := OutboxTables)) AccessError State := do
  let rows ← Prog.mapErr AccessError.store
    (Prog.attempt (Call.read (selectAdmissions (store.bounds.maxReplayRows + 1))))
  Prog.check (ofRows store.bounds rows)

/-! ### Checking -/

def requireBootstrapped (state : State) : Except AccessError Unit :=
  if state.count = 0 then .error (.notBootstrapped "no admission records; bootstrap first")
  else match state.bootstraps with
    | [marker] =>
      if marker.user.text ≠ syntheticUserText ∨ marker.issuer.text ≠ bootstrapIssuerText ∨
          ¬ [reviewerCapText, publisherCapText].all (fun cap => state.issues.any fun row => row.cap.text = cap) then
        .error (invalid "incomplete or inconsistent bootstrap; no fallback minting")
      else .ok ()
    | _ => .error (invalid "incomplete or inconsistent bootstrap; no fallback minting")

end State

/-- `max_by_key`: of several rows with the largest generation, the last. -/
def newest : List IssueRow → Option IssueRow :=
  List.foldl (fun best row =>
    match best with
    | none => some row
    | some b => if row.capgen < b.capgen then some b else some row) none

namespace State

def latest (state : State) (cap : CapabilityName) : Except AccessError IssueRow :=
  match newest (state.issues.filter fun row => row.cap = cap) with
  | some row => .ok row
  | none => .error (.unknownCapability cap.text)

def isRevoked (state : State) (row : IssueRow) : Bool :=
  state.revokes.any fun r => r.cap = row.cap && r.keyId = row.keyId

def scopeMatches (scope : Option TrustedScope) (row : IssueRow) : Except AccessError Unit :=
  match scope with
  | some scope =>
    if scope ≠ row.scope then .error (.scopeDenied row.scope.text scope.text) else .ok ()
  | none => .ok ()

/-- The checks of a credential against the snapshot, all but the one against the clock. -/
def matching (state : State) (cred : Credential) (scope : Option TrustedScope) (rotating : Bool) :
    Except AccessError IssueRow := do
  state.requireBootstrapped
  let latest ← state.latest cred.capability
  match state.issues.find? fun row => row.cap = cred.capability && row.keyId = cred.keyId with
  | none => .error (.forgedCredential "key was never issued for this capability")
  | some row =>
    if row.issuer.text ≠ bootstrapIssuerText then .error (.unknownIssuer row.issuer.text)
    else if row.user.text ≠ syntheticUserText then
      .error (invalid "issued user does not match bootstrap identity")
    else if row.keyFp ≠ cred.key.fingerprint then
      .error (.forgedCredential "key material does not match the issued fingerprint")
    else do
      scopeMatches scope row
      -- rotation reports a concurrent winner as stale, entry a revoked key first
      if rotating = true ∧ row.capgen ≠ latest.capgen then
        .error (.staleGeneration row.cap.text row.capgen latest.capgen)
      else if state.isRevoked row then .error (.revokedCredential row.cap.text row.keyId.text)
      else if row.capgen ≠ latest.capgen then .error (.staleGeneration row.cap.text row.capgen latest.capgen)
      else .ok row

end State

/-- The wall reading of the process in milliseconds. -/
def nowOf : Option Nat → Except AccessError Int
  | none => .error (invalid "clock precedes Unix epoch")
  | some now => if now < 2 ^ 63 then .ok now else .error (invalid "clock exceeds supported timestamp")

def nowMs : Prog.Try (StoreOp.Answer (ρ := OutboxTables)) AccessError Int := do
  let wall ← (Call.wall : Call OutboxTables (Option Nat))
  Prog.check (nowOf wall)

def State.checked (state : State) (cred : Credential) (scope : Option TrustedScope) (rotating : Bool) :
    Prog.Try (StoreOp.Answer (ρ := OutboxTables)) AccessError IssueRow := do
  let row ← Prog.check (state.matching cred scope rotating)
  let now ← nowMs
  Prog.check (row.policy.requireLive now)
  return row

end Verdant.Access
