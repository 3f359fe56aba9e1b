import Verdant.Library.Yields
import Verdant.Seal.Fingerprint
import Verdant.Storage.Client

/-!
# The closure of a seal

The rows reachable from the roots of a draft, each with its digest and its length, and the fingerprints of the findings
among them.  The walk goes into each row once, at most sixteen deep, and fails on a cycle; what it has read stays within the
limits of a manifest (`returns_closure`).
-/

namespace Verdant.Seal

open TextCodec Storage Access Binding Prog

abbrev SealCall (α : Type) := Prog.Try (StoreOp.Answer (ρ := OutboxTables)) SealError α

/-! ### Source rows -/

def RowKey.predicate (key : RowKey) : String :=
  s!"operation={sqlQuote key.operation.text} AND seq={sqlQuote (Nat.repr key.sequence.toNat)}"

/-- The key is the address of the row. -/
def RowKey.addresses (key : RowKey) (r : OutboxRecord) : Bool :=
  r.operation = key.operation.text && r.seq = Nat.repr key.sequence.toNat

def sourceNames : List String :=
  ["operation", "seq", "entity", "sensor", "value_json", "unit", "source_ms", "receipt_ms", "ingestion_ms", "generation",
    "id"]

/-- The columns that make up the bytes of a row; its id is none of them. -/
def sourceFields (r : OutboxRecord) : List String :=
  [r.operation, r.seq, r.entity, r.sensor, r.valueJson, r.unit, r.sourceMs, r.receiptMs, r.ingestionMs, r.generation]

def sourceColumns (r : OutboxRecord) : List String := (sourceFields r).map sqlQuote ++ [Nat.repr r.id]

def selectSource (key : RowKey) : Query OutboxTables :=
  selectLog ("SELECT " ++ String.intercalate "," (sourceNames.map fun name => s!"quote({name})") ++
    s!" FROM outbox WHERE {key.predicate} LIMIT 2;") key.addresses sourceColumns (some 2)

/-- `binding::unquote_column`. -/
def unquoteColumn (raw : String) : Except SealError (Option String) :=
  (unquoteText raw).mapError fun _ => .binding (unreadable s!"quoted binding column malformed: '{raw}'")

def sourceValue (raw : String) : Except SealError String := do
  match ← unquoteColumn raw with
  | some text => .ok text
  | none => .error (.invalid "NULL source column")

/-- The values of the one row of an address; the id stays quoted. -/
def sourceValues (key : RowKey) : Rows → Except SealError (List String)
  | [] => .error (.missing key.encode)
  | [row] =>
    if row.length ≠ sourceNames.length then .error (.invalid "source row width")
    else do
      let values ← (row.take 10).mapM sourceValue
      .ok (values ++ row.drop 10)
  | _ => .error (.conflict "ambiguous row address")

def sourceText (valueJson : String) : Except SealError String :=
  match Value.fromJson valueJson with
  | .error _ => .error (.invalid "source value")
  | .ok (.text raw) => .ok raw
  | .ok _ => .error (.invalid "source text required")

/-! ### The walk -/

/-- How far a walk is: the rows it is inside of and those it has left. -/
structure Walk where
  visiting : List RowKey
  rows : List RowRef
  findings : List String
  bytes : Nat
  edges : Nat
  guard : Guard

def Walk.start : Walk := ⟨[], [], [], 0, 0, ⟨"1", fun _ => true⟩⟩

/-- Insertion into a sorted set. -/
def insertFinding (finding : String) (findings : List String) : List String :=
  if finding ∈ findings then findings else findings.orderedInsert (· ≤ ·) finding

/-- Insertion of a new key into a sorted map. -/
def insertRef (ref : RowRef) (rows : List RowRef) : List RowRef := rows.orderedInsert (fun a b => a.key ≤ b.key) ref

namespace Walk

variable (walk : Walk)

/-- What may be gone into; `none` where the row has been left already. -/
def enter (key : RowKey) : Except SealError (Option Walk) :=
  if maxNodes * 4 < walk.edges + 1 then .error (.limit "closure depth/work")
  else if key ∈ walk.visiting then .error .cycle
  else if walk.rows.any fun ref => ref.key = key then .ok none
  else if maxNodes ≤ walk.rows.length + walk.visiting.length then .error (.limit "closure nodes")
  else .ok (some { walk with edges := walk.edges + 1, visiting := key :: walk.visiting })

/-- A fingerprint of a finding, or the references of a content row. -/
def content (sha : Sha256) (scope : TrustedScope) (key : RowKey) (raw : String) : Except SealError (Walk × List RowKey) :=
  if key.operation.text = opFindingText then do
    let finding ← findingFingerprint raw scope sha
    .ok ({ walk with findings := insertFinding finding walk.findings }, [])
  else do
    let children ← ContentNode.childrenOf raw
    .ok (walk, children)

/-- The conjunct that the row is still the only one of its address. -/
def watch (key : RowKey) (values : List String) : Walk :=
  { walk with
    guard := walk.guard.also (s!" AND (SELECT COUNT(*) FROM outbox WHERE {key.predicate})=1 AND EXISTS(SELECT 1 FROM " ++
      "outbox WHERE " ++ String.intercalate " AND "
        ((sourceNames.zip values).map fun (name, value) => name ++ "=" ++ sqlQuote value) ++ ")")
      fun tables => countIs key.addresses 1 tables && present (fun r => sourceFields r ++ [Nat.repr r.id] = values) tables }

/-- What a read of a row adds, with the bytes of the row and what it refers to. -/
def read (sha : Sha256) (scope : TrustedScope) (key : RowKey) (rows : Rows) :
    Except SealError (Walk × String × List RowKey) := do
  let values ← sourceValues key rows
  let canonical := encode (values.take 10)
  if maxClosureBytes < walk.bytes + canonical.utf8ByteSize then .error (.limit "closure bytes")
  else
    let raw ← sourceText (values.getD 4 "")
    let (next, children) ← { walk with bytes := walk.bytes + canonical.utf8ByteSize }.content sha scope key raw
    .ok (next.watch key values, canonical, children)

/-- The row is left, with its digest. -/
def leave (sha : Sha256) (key : RowKey) (canonical : String) : Except SealError Walk := do
  let digest ← sha.hash canonical.toByteArray
  .ok { walk with
    visiting := walk.visiting.erase key
    rows := insertRef ⟨key, digest, canonical.utf8ByteSize⟩ walk.rows }

end Walk

section Visit

variable (sha : Sha256) (scope : TrustedScope)

/-- A visit with so many levels left. -/
def visit : Nat → RowKey → Walk → SealCall Walk
  | 0, _, _ => Prog.check (.error (.limit "closure depth/work"))
  | remaining + 1, key, walk => do
    match ← Prog.check (walk.enter key) with
    | none => return { walk with edges := walk.edges + 1 }
    | some walk =>
      let rows ← Prog.mapErr SealError.storage (Prog.attempt (Call.read (selectSource key)))
      let (walk, canonical, children) ← Prog.check (walk.read sha scope key rows)
      let walk ← children.foldlM (fun walk child => visit remaining child walk) walk
      Prog.check (walk.leave sha key canonical)

structure Closure where
  rows : List RowRef
  findings : List String
  guard : Guard

def closure (roots : List RowKey) : SealCall Closure := do
  let walk ← roots.foldlM (fun walk root => visit sha scope (maxDepth + 1) root walk) Walk.start
  Prog.check (if walk.findings = [] then .error (.invalid "seal needs a durable valid binding finding")
    else .ok ⟨walk.rows, walk.findings, walk.guard⟩)

end Visit

/-! ### Sizes -/

/-- A walk within the limits of a manifest. -/
structure Walk.Sized (walk : Walk) : Prop where
  nodes : walk.rows.length + walk.visiting.length ≤ maxNodes
  findings : walk.findings.length ≤ walk.rows.length + walk.visiting.length
  bytes : walk.bytes ≤ maxClosureBytes
  refs : ∀ ref ∈ walk.rows, ref.bytes ≤ maxClosureBytes

theorem Walk.sized_start : Walk.start.Sized where
  nodes := by decide
  findings := Nat.le_refl _
  bytes := by decide
  refs ref href := nomatch href

theorem length_insertFinding_le (finding : String) (findings : List String) :
    (insertFinding finding findings).length ≤ findings.length + 1 := by
  unfold insertFinding
  split
  · omega
  · rw [List.orderedInsert_length]

section Sizes

variable {sha : Sha256} {scope : TrustedScope} {key : RowKey} {walk next : Walk}

theorem Walk.enter_eq_some (h : walk.enter key = .ok (some next)) :
    next = { walk with edges := walk.edges + 1, visiting := key :: walk.visiting } ∧
      walk.rows.length + walk.visiting.length < maxNodes := by
  unfold Walk.enter at h
  rw [Result.ite_error_eq_ok, Result.ite_error_eq_ok] at h
  obtain ⟨-, -, h⟩ := h
  split at h
  · exact nomatch h
  rw [Result.ite_error_eq_ok] at h
  obtain ⟨hroom, hnext⟩ := h
  cases hnext
  exact ⟨rfl, Nat.not_le.1 hroom⟩

theorem Walk.content_eq_ok {raw : String} {children : List RowKey}
    (h : walk.content sha scope key raw = .ok (next, children)) :
    next.visiting = walk.visiting ∧ next.rows = walk.rows ∧ next.bytes = walk.bytes ∧
      next.findings.length ≤ walk.findings.length + 1 := by
  unfold Walk.content at h
  split at h
  · obtain ⟨finding, -, h⟩ := Result.bind_eq_ok.1 h
    cases h
    exact ⟨rfl, rfl, rfl, length_insertFinding_le finding walk.findings⟩
  · obtain ⟨keys, -, h⟩ := Result.bind_eq_ok.1 h
    cases h
    exact ⟨rfl, rfl, rfl, Nat.le_succ _⟩

theorem Walk.read_eq_ok {rows : Rows} {canonical : String} {children : List RowKey}
    (h : walk.read sha scope key rows = .ok (next, canonical, children)) :
    next.visiting = walk.visiting ∧ next.rows = walk.rows ∧ next.findings.length ≤ walk.findings.length + 1 ∧
      next.bytes ≤ maxClosureBytes ∧ canonical.utf8ByteSize ≤ maxClosureBytes := by
  unfold Walk.read at h
  obtain ⟨values, -, h⟩ := Result.bind_eq_ok.1 h
  rw [Result.ite_error_eq_ok] at h
  obtain ⟨hbytes, h⟩ := h
  obtain ⟨raw, -, h⟩ := Result.bind_eq_ok.1 h
  obtain ⟨⟨inner, keys⟩, hcontent, h⟩ := Result.bind_eq_ok.1 h
  cases h
  obtain ⟨hvisiting, hrows, hsame, hfindings⟩ := Walk.content_eq_ok hcontent
  have hbytes := Nat.not_lt.1 hbytes
  refine ⟨hvisiting, hrows, hfindings, ?_, by omega⟩
  show inner.bytes ≤ maxClosureBytes
  rw [hsame]
  exact hbytes

theorem Walk.leave_eq_ok {canonical : String} (h : walk.leave sha key canonical = .ok next) :
    ∃ digest, next = { walk with
      visiting := walk.visiting.erase key
      rows := insertRef ⟨key, digest, canonical.utf8ByteSize⟩ walk.rows } := by
  unfold Walk.leave at h
  obtain ⟨digest, -, h⟩ := Result.bind_eq_ok.1 h
  exact ⟨digest, (Except.ok.inj h).symm⟩

/-- A visit stays within the limits and leaves every row it went into. -/
theorem returns_visit (remaining : Nat) (hwalk : walk.Sized) :
    Returns (fun next => next.Sized ∧ next.visiting = walk.visiting) (visit sha scope remaining key walk) := by
  induction remaining generalizing key walk with
  | zero => exact fun next h => nomatch h
  | succ remaining ih =>
    unfold visit
    refine Returns.tryBind returns_check fun entered hentered => ?_
    cases entered with
    | none =>
      rintro next ⟨⟩
      exact ⟨⟨hwalk.nodes, hwalk.findings, hwalk.bytes, hwalk.refs⟩, rfl⟩
    | some inside =>
      obtain ⟨rfl, hroom⟩ := Walk.enter_eq_some hentered
      refine Returns.tryBind (R := fun _ => True) ?_ fun rows _ => ?_
      · exact fun answer => by cases answer <;> exact fun _ _ => trivial
      refine Returns.tryBind returns_check fun step hstep => ?_
      obtain ⟨opened, canonical, children⟩ := step
      obtain ⟨hvisiting, hrows, hfindings, hbytes, hcanonical⟩ := Walk.read_eq_ok hstep
      have hnodes := hwalk.nodes
      have hfew := hwalk.findings
      have hopened : opened.Sized := by
        refine ⟨?_, ?_, hbytes, ?_⟩
        · rw [hrows, hvisiting, List.length_cons]
          exact hroom
        · rw [hrows, hvisiting, List.length_cons]
          exact Nat.le_trans hfindings (Nat.succ_le_succ hfew)
        · rw [hrows]
          exact hwalk.refs
      refine Returns.tryBind (R := fun deep => deep.Sized ∧ deep.visiting = opened.visiting) ?_ fun deep hdeep => ?_
      · refine returns_foldlM (fun deep child hdeep => ?_) ⟨hopened, rfl⟩
        have hchild : Returns _ (visit sha scope remaining child deep) := ih hdeep.1
        exact Yields.mono (fun r hr next hnext => ⟨(hr next hnext).1, (hr next hnext).2.trans hdeep.2⟩) hchild
      · obtain ⟨hsized, hinside⟩ := hdeep
        intro next hnext
        obtain ⟨digest, rfl⟩ := Walk.leave_eq_ok hnext
        have hback : deep.visiting = key :: walk.visiting := hinside.trans hvisiting
        have hsame : (deep.visiting.erase key) = walk.visiting := by
          rw [hback, List.erase_cons_head]
        have hdeepNodes := hsized.nodes
        have hdeepFindings := hsized.findings
        rw [hback, List.length_cons] at hdeepNodes hdeepFindings
        have hlength : (insertRef ⟨key, digest, canonical.utf8ByteSize⟩ deep.rows).length = deep.rows.length + 1 :=
          List.orderedInsert_length _ _ _
        refine ⟨⟨?_, ?_, hsized.bytes, fun ref href => ?_⟩, hsame⟩
        · show (insertRef _ deep.rows).length + (deep.visiting.erase key).length ≤ maxNodes
          rw [hsame, hlength]
          omega
        · show deep.findings.length ≤ (insertRef _ deep.rows).length + (deep.visiting.erase key).length
          rw [hsame, hlength]
          omega
        · rcases (List.mem_orderedInsert _).1 href with rfl | href
          · exact hcanonical
          · exact hsized.refs ref href

/-- What a manifest takes over. -/
structure Closure.Sized (c : Closure) : Prop where
  rows : c.rows.length ≤ maxNodes
  findings : c.findings.length ≤ c.rows.length
  nonempty : c.findings ≠ []
  refs : ∀ ref ∈ c.rows, ref.bytes ≤ maxClosureBytes

theorem returns_closure (sha : Sha256) (scope : TrustedScope) (roots : List RowKey) :
    Returns Closure.Sized (closure sha scope roots) := by
  unfold closure
  refine Returns.tryBind (R := fun walk => walk.Sized ∧ walk.visiting = []) ?_ fun walk hwalk => ?_
  · refine returns_foldlM (fun walk root hwalk => ?_) ⟨Walk.sized_start, rfl⟩
    have hroot : Returns _ (visit sha scope (maxDepth + 1) root walk) := returns_visit (maxDepth + 1) hwalk.1
    exact Yields.mono (fun r hr next hnext => ⟨(hr next hnext).1, (hr next hnext).2.trans hwalk.2⟩) hroot
  · obtain ⟨hsized, hvisiting⟩ := hwalk
    intro c hc
    have hnodes := hsized.nodes
    have hfindings := hsized.findings
    rw [hvisiting, List.length_nil, Nat.add_zero] at hnodes hfindings
    by_cases hempty : walk.findings = []
    · rw [if_pos hempty] at hc
      exact nomatch hc
    · rw [if_neg hempty] at hc
      cases hc
      exact ⟨hnodes, hfindings, hempty, hsized.refs⟩

end Sizes

/-! ### Silence -/

theorem visit_noSubmit (sha : Sha256) (scope : TrustedScope) (remaining : Nat) (key : RowKey) (walk : Walk) :
    (visit sha scope remaining key walk).run.Issues NoSubmit := by
  induction remaining generalizing key walk with
  | zero => exact trivial
  | succ remaining ih =>
    unfold visit
    refine Prog.Issues.tryBind Prog.issues_check fun entered => ?_
    cases entered with
    | none => exact trivial
    | some inside =>
      refine Prog.Issues.tryBind (Prog.Issues.mapErr (Prog.issues_issue trivial)) fun rows => ?_
      refine Prog.Issues.tryBind Prog.issues_check fun step => ?_
      refine Prog.Issues.tryBind ?_ fun deep => Prog.issues_check
      exact issues_foldlM fun deep child => ih child deep

theorem closure_noSubmit (sha : Sha256) (scope : TrustedScope) (roots : List RowKey) :
    (closure sha scope roots).run.Issues NoSubmit := by
  unfold closure
  exact Prog.Issues.tryBind (issues_foldlM fun walk root => visit_noSubmit sha scope _ root walk) fun _ =>
    Prog.issues_check

end Verdant.Seal
