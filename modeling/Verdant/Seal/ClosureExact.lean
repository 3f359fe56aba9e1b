import Verdant.Library.Acyclic
import Verdant.Library.Settles
import Verdant.Seal.Closure

/-!
# What a closure is

A closure that returns is the set of rows reachable from its roots (`closure_exact`): each of them is the only row of its
address, no cycle is reachable, and the rows, the fingerprints and the guard are those of the reachable rows and of no
others.  The walk only reads, so it settles on what a plain depth-first search of the tables gives (`settles_visit`); the
search keeps `Walk.Exact`, whose finished rows are closed under references.
-/

namespace Verdant.Seal

open TextCodec Storage Access Binding Prog Relation

section Tables

variable (tables : OutboxTables)

/-! ### The graph of the rows -/

/-- The bytes of a row. -/
def canonicalOf (r : OutboxRecord) : String := encode (sourceFields r)

/-- The row is the only one of the address. -/
def Addressed (key : RowKey) (r : OutboxRecord) : Prop := logOf key.addresses tables = [r]

/-- The text of the only row of the address. -/
def Says (key : RowKey) (raw : String) : Prop := ∃ r, Addressed tables key r ∧ sourceText r.valueJson = .ok raw

/-- A content row refers to another row. -/
def Refers (a b : RowKey) : Prop :=
  a.operation.text ≠ opFindingText ∧ ∃ raw children, Says tables a raw ∧ ContentNode.childrenOf raw = .ok children ∧
    b ∈ children

/-- A finding row and its fingerprint. -/
def Attests (sha : Sha256) (scope : TrustedScope) (key : RowKey) (finding : String) : Prop :=
  key.operation.text = opFindingText ∧ ∃ raw, Says tables key raw ∧ findingFingerprint raw scope sha = .ok finding

/-- The reference has the length and the digest of the only row of its address. -/
def Cited (sha : Sha256) (ref : RowRef) : Prop :=
  ∃ r, Addressed tables ref.key r ∧ sha.hash (canonicalOf r).toByteArray = .ok ref.digest ∧
    ref.bytes = (canonicalOf r).utf8ByteSize

/-- The rows that can be reached from the roots. -/
def Reachable (roots : List RowKey) (key : RowKey) : Prop := ∃ root ∈ roots, ReflTransGen (Refers tables) root key

/-- The row of the address is still the only one, and has the same columns. -/
def Unchanged (later : OutboxTables) (key : RowKey) : Prop :=
  ∃ r r', Addressed tables key r ∧ Addressed later key r' ∧ sourceFields r' = sourceFields r ∧ r'.id = r.id

/-- The length of the rows of an address. -/
def sizeAt (key : RowKey) : Nat := ((logOf key.addresses tables).map fun r => (canonicalOf r).utf8ByteSize).sum

/-! ### The search of the tables -/

def rowsAt (key : RowKey) : Rows := ((logOf key.addresses tables).take 2).map sourceColumns

variable (sha : Sha256) (scope : TrustedScope)

/-- A visit of the tables as they are. -/
def visitAt : Nat → RowKey → Walk → Except SealError Walk
  | 0, _, _ => .error (.limit "closure depth/work")
  | remaining + 1, key, walk => do
    match ← walk.enter key with
    | none => .ok { walk with edges := walk.edges + 1 }
    | some walk =>
      let (walk, canonical, children) ← walk.read sha scope key (rowsAt tables key)
      let walk ← children.foldlM (fun walk child => visitAt remaining child walk) walk
      walk.leave sha key canonical

def closureAt (roots : List RowKey) : Except SealError Closure := do
  let walk ← roots.foldlM (fun walk root => visitAt tables sha scope (maxDepth + 1) root walk) Walk.start
  if walk.findings = [] then .error (.invalid "seal needs a durable valid binding finding")
  else .ok ⟨walk.rows, walk.findings, walk.guard⟩

end Tables

/-- A moment at which no read fails. -/
def Readable (m : Moment) : Prop := m.read = none

theorem settles_select (key : RowKey) (db : Database OutboxTables) :
    Settles StoreOp.exec Readable (Prog.mapErr SealError.storage (Prog.attempt (Call.read (selectSource key)))) db
      (.ok (rowsAt db.tables key)) := by
  have hrows : ∀ m : Moment, Readable m → execScript m (selectSource key) db = .ok (rowsAt db.tables key) := by
    intro m hm
    have hnone : m.read = none := hm
    unfold execScript
    rw [hnone]
    rfl
  have hread : Settles StoreOp.exec Readable (attempt (Call.read (selectSource key))) db
      (.ok (rowsAt db.tables key) : Except StorageError Rows) := by
    refine ⟨fun E t a hrun => ?_, fun E t r hE hrun => ?_⟩
    · rcases Prog.runs_issue.1 hrun with ⟨-, hnone⟩ | ⟨m, -, ht, hr⟩
      · cases hnone
      · have hexec : execScript m (selectSource key) db = .ok a := (Option.some.inj hr).symm
        refine ⟨ht, ?_⟩
        cases hfault : m.read with
        | some fault =>
          unfold execScript at hexec
          rw [hfault] at hexec
          cases hexec
        | none => rw [← hrows m hfault, hexec]
    · rcases Prog.runs_issue.1 hrun with ⟨-, hnone⟩ | ⟨m, hm, ht, hr⟩
      · cases hnone
      · exact ⟨ht, (Option.some.inj hr).trans (hrows m (hE m hm))⟩
  exact hread.mapErr SealError.storage

section Settling

variable (sha : Sha256) (scope : TrustedScope) (db : Database OutboxTables)

/-- A visit settles on the search of the tables. -/
theorem settles_visit (remaining : Nat) (key : RowKey) (walk : Walk) :
    Settles StoreOp.exec Readable (visit sha scope remaining key walk) db
      (visitAt db.tables sha scope remaining key walk) := by
  induction remaining generalizing key walk with
  | zero => exact settles_check _
  | succ remaining ih =>
    unfold visit visitAt
    refine (settles_check _).bind fun entered _ => ?_
    cases entered with
    | none => exact settles_check (.ok _)
    | some inside =>
      have hselect := settles_select key db
      refine hselect.bind (g := fun rows => do
        let (walk, canonical, children) ← inside.read sha scope key rows
        let walk ← children.foldlM (fun walk child => visitAt db.tables sha scope remaining child walk) walk
        walk.leave sha key canonical) fun rows hrows => ?_
      refine (settles_check _).bind fun step _ => ?_
      obtain ⟨opened, canonical, children⟩ := step
      exact (Settles.foldlM (fun child _ walk => ih child walk) opened).bind fun deep _ => settles_check _

theorem settles_closure (roots : List RowKey) :
    Settles StoreOp.exec Readable (closure sha scope roots) db (closureAt db.tables sha scope roots) := by
  unfold closure closureAt
  exact (Settles.foldlM (fun root _ walk => settles_visit sha scope db _ root walk) Walk.start).bind fun walk _ =>
    settles_check _

end Settling

/-! ### One row -/

section Row

variable {tables : OutboxTables} {sha : Sha256} {scope : TrustedScope} {key : RowKey} {walk next : Walk}

/-- The columns as they are read back. -/
def readColumns (r : OutboxRecord) : List String := sourceFields r ++ [Nat.repr r.id]

theorem mapM_sourceValue (fields : List String) : (fields.map sqlQuote).mapM sourceValue = .ok fields := by
  rw [Result.mapM_eq_ok, List.forall₂_map_left_iff]
  induction fields with
  | nil => exact .nil
  | cons field fields ih =>
    refine .cons ?_ ih
    unfold sourceValue unquoteColumn
    rw [unquoteText_sqlQuote]
    rfl

theorem sourceValues_single (key : RowKey) (row : List String) : sourceValues key [row] =
    if row.length ≠ sourceNames.length then .error (.invalid "source row width")
    else (row.take 10).mapM sourceValue >>= fun values => .ok (values ++ row.drop 10) := rfl

theorem sourceValues_rowsAt {values : List String} (h : sourceValues key (rowsAt tables key) = .ok values) :
    ∃ r, Addressed tables key r ∧ values = readColumns r := by
  unfold rowsAt at h
  unfold Addressed
  cases hlog : logOf key.addresses tables with
  | nil =>
    rw [hlog] at h
    cases h
  | cons r rest =>
    cases rest with
    | nil =>
      rw [hlog] at h
      have hwidth : (sourceColumns r).length = sourceNames.length := rfl
      have htake : (sourceColumns r).take 10 = (sourceFields r).map sqlQuote := rfl
      have hdrop : (sourceColumns r).drop 10 = [Nat.repr r.id] := rfl
      have hrow : sourceValues key [sourceColumns r] = .ok (readColumns r) := by
        rw [sourceValues_single, if_neg (not_not.2 hwidth), htake, mapM_sourceValue, hdrop, Result.ok_bind]
        rfl
      have hlist : ([r].take 2).map sourceColumns = [sourceColumns r] := rfl
      rw [hlist, hrow] at h
      exact ⟨r, rfl, (Except.ok.inj h).symm⟩
    | cons r' rest =>
      rw [hlog] at h
      cases h

theorem take_readColumns (r : OutboxRecord) : (readColumns r).take 10 = sourceFields r := rfl

theorem getD_readColumns (r : OutboxRecord) : (readColumns r).getD 4 "" = r.valueJson := rfl

/-- What a row is to the walk: a finding with its fingerprint, or content with its references. -/
inductive Content (sha : Sha256) (scope : TrustedScope) (key : RowKey) (raw : String) (findings : List String) :
    List String → List RowKey → Prop
  | finding {text : String} (hkey : key.operation.text = opFindingText) (htext : findingFingerprint raw scope sha = .ok text) :
      Content sha scope key raw findings (insertFinding text findings) []
  | node {children : List RowKey} (hkey : key.operation.text ≠ opFindingText)
      (hchildren : ContentNode.childrenOf raw = .ok children) : Content sha scope key raw findings findings children

theorem content_eq_ok {raw : String} {children : List RowKey}
    (h : walk.content sha scope key raw = .ok (next, children)) :
    Content sha scope key raw walk.findings next.findings children ∧ next = { walk with findings := next.findings } := by
  unfold Walk.content at h
  by_cases hkey : key.operation.text = opFindingText
  · rw [if_pos hkey] at h
    obtain ⟨text, htext, h⟩ := Result.bind_eq_ok.1 h
    cases h
    exact ⟨.finding hkey htext, rfl⟩
  · rw [if_neg hkey] at h
    obtain ⟨found, hfound, h⟩ := Result.bind_eq_ok.1 h
    cases h
    exact ⟨.node hkey hfound, rfl⟩

/-- A successful read of a row: what is added to the walk, and what the row is. -/
theorem read_rowsAt {canonical : String} {children : List RowKey}
    (h : walk.read sha scope key (rowsAt tables key) = .ok (next, canonical, children)) :
    ∃ r raw, Addressed tables key r ∧ sourceText r.valueJson = .ok raw ∧ canonical = canonicalOf r ∧
      Content sha scope key raw walk.findings next.findings children ∧ next.visiting = walk.visiting ∧
        next.rows = walk.rows ∧ next.bytes = walk.bytes + canonical.utf8ByteSize ∧
          ∀ later, next.guard.holds later = (walk.guard.holds later &&
            (countIs key.addresses 1 later && present (fun r' => readColumns r' = readColumns r) later)) := by
  unfold Walk.read at h
  obtain ⟨values, hvalues, h⟩ := Result.bind_eq_ok.1 h
  obtain ⟨r, hr, rfl⟩ := sourceValues_rowsAt hvalues
  obtain ⟨-, h⟩ := Result.ite_error_eq_ok.1 h
  obtain ⟨raw, hraw, h⟩ := Result.bind_eq_ok.1 h
  obtain ⟨⟨inner, keys⟩, hcontent, h⟩ := Result.bind_eq_ok.1 h
  obtain ⟨hinner, hsame⟩ := content_eq_ok hcontent
  cases h
  rw [getD_readColumns] at hraw
  refine ⟨r, raw, hr, hraw, rfl, hinner, ?_, ?_, ?_, fun later => ?_⟩
  · rw [hsame]
    rfl
  · rw [hsame]
    rfl
  · rw [hsame]
    rfl
  · rw [hsame]
    rfl

theorem unchanged_of_guard {r : OutboxRecord} {later : OutboxTables} (hr : Addressed tables key r) :
    (countIs key.addresses 1 later && present (fun r' => readColumns r' = readColumns r) later) = true ↔
      Unchanged tables later key := by
  have haddress : key.addresses r = true := by
    have hmem : r ∈ logOf key.addresses tables := by
      rw [show logOf key.addresses tables = [r] from hr]
      exact List.mem_singleton_self r
    exact (List.mem_filter.1 hmem).2
  have hcolumns : ∀ a b : OutboxRecord, readColumns a = readColumns b ↔ sourceFields a = sourceFields b ∧ a.id = b.id := by
    intro a b
    constructor
    · intro h
      obtain ⟨hfields, hid⟩ := List.append_inj' h rfl
      exact ⟨hfields, TextCodec.repr_injective (List.singleton_inj.1 hid)⟩
    · rintro ⟨hfields, hid⟩
      unfold readColumns
      rw [hfields, hid]
  unfold countIs present
  rw [Bool.and_eq_true, decide_eq_true_eq, List.any_eq_true]
  constructor
  · rintro ⟨hone, r', hmem, hsame⟩
    obtain ⟨hfields, hid⟩ := (hcolumns _ _).1 (of_decide_eq_true hsame)
    have hmine : key.addresses r' = true := by
      have hoperation : r'.operation = r.operation := congrArg (List.getD · 0 "") hfields
      have hseq : r'.seq = r.seq := congrArg (List.getD · 1 "") hfields
      unfold RowKey.addresses at haddress ⊢
      rw [hoperation, hseq]
      exact haddress
    obtain ⟨only, honly⟩ := List.length_eq_one_iff.1 hone
    have hlog : r' ∈ logOf key.addresses later := List.mem_filter.2 ⟨hmem, hmine⟩
    rw [honly, List.mem_singleton] at hlog
    exact ⟨r, r', hr, honly.trans (by rw [hlog]), hfields, hid⟩
  · rintro ⟨a, r', ha, hr', hfields, hid⟩
    obtain rfl : a = r := List.singleton_inj.1 (ha.symm.trans hr)
    have hlog : r' ∈ logOf key.addresses later := by
      rw [show logOf key.addresses later = [r'] from hr']
      exact List.mem_singleton_self r'
    refine ⟨?_, r', (List.mem_filter.1 hlog).1, decide_eq_true ((hcolumns _ _).2 ⟨hfields, hid⟩)⟩
    rw [show logOf key.addresses later = [r'] from hr']
    rfl

end Row

/-! ### The invariant of the walk -/

namespace Walk

/-- The row has been left. -/
def Done (walk : Walk) (key : RowKey) : Prop := ∃ ref ∈ walk.rows, ref.key = key

/-- The row is being visited or has been left. -/
def Entered (walk : Walk) (key : RowKey) : Prop := key ∈ walk.visiting ∨ walk.Done key

/-- What the walk holds is exactly what belongs to the rows it has entered; those it has left are closed under references
and on no cycle. -/
structure Exact (tables : OutboxTables) (sha : Sha256) (scope : TrustedScope) (roots : List RowKey) (walk : Walk) : Prop where
  finished : Finished (Refers tables) { key | walk.Done key }
  apart : ∀ key ∈ walk.visiting, ¬ walk.Done key
  keys : (walk.rows.map RowRef.key).Nodup
  cited : ∀ ref ∈ walk.rows, Cited tables sha ref
  addressed : ∀ key, walk.Entered key → ∃ r, Addressed tables key r
  reached : ∀ key, walk.Entered key → Reachable tables roots key
  attested : ∀ key, walk.Entered key → key.operation.text = opFindingText → ∃ f, Attests tables sha scope key f
  findings : ∀ f, f ∈ walk.findings ↔ ∃ key, walk.Entered key ∧ Attests tables sha scope key f
  bytes : walk.bytes = (walk.rows.map RowRef.bytes).sum + (walk.visiting.map (sizeAt tables)).sum
  guard : ∀ later, walk.guard.holds later = true ↔ ∀ key, walk.Entered key → Unchanged tables later key
  small : walk.bytes ≤ maxClosureBytes
  nodes : walk.rows.length + walk.visiting.length ≤ maxNodes

end Walk

section Search

variable {tables : OutboxTables} {sha : Sha256} {scope : TrustedScope} {roots : List RowKey} {key : RowKey}
  {walk next : Walk}

theorem exact_start : Walk.start.Exact tables sha scope roots := by
  have hnone : ∀ key, ¬ Walk.start.Entered key := by
    rintro key (hin | ⟨ref, href, -⟩)
    · exact absurd hin (List.not_mem_nil)
    · exact absurd href (List.not_mem_nil)
  refine ⟨?_, ?_, List.nodup_nil, ?_, ?_, ?_, ?_, ?_, rfl, ?_, Nat.zero_le _, Nat.zero_le _⟩
  · refine ⟨?_, ?_⟩
    · intro key hdone
      exact absurd (.inr hdone) (hnone key)
    · intro key hdone
      exact absurd (.inr hdone) (hnone key)
  · intro key hin
    exact absurd hin (List.not_mem_nil)
  · intro ref href
    exact absurd href (List.not_mem_nil)
  · intro key hkey
    exact absurd hkey (hnone key)
  · intro key hkey
    exact absurd hkey (hnone key)
  · intro key hkey
    exact absurd hkey (hnone key)
  · intro f
    constructor
    · intro hf
      exact absurd hf (List.not_mem_nil)
    · rintro ⟨key, hkey, -⟩
      exact absurd hkey (hnone key)
  · intro later
    constructor
    · intro _ key hkey
      exact absurd hkey (hnone key)
    · intro _
      rfl

theorem mem_insertFinding {text f : String} {findings : List String} :
    f ∈ insertFinding text findings ↔ f = text ∨ f ∈ findings := by
  unfold insertFinding
  by_cases hmem : text ∈ findings
  · rw [if_pos hmem]
    constructor
    · exact .inr
    · rintro (rfl | hf)
      · exact hmem
      · exact hf
  · rw [if_neg hmem]
    exact List.mem_orderedInsert _

/-- An address says one text at most. -/
theorem Says.unique {raw raw' : String} (h : Says tables key raw) (h' : Says tables key raw') : raw = raw' := by
  obtain ⟨r, hr, hraw⟩ := h
  obtain ⟨r', hr', hraw'⟩ := h'
  obtain rfl : r = r' := List.singleton_inj.1 (hr.symm.trans hr')
  exact Except.ok.inj (hraw.symm.trans hraw')

theorem sizeAt_of_addressed {r : OutboxRecord} (h : Addressed tables key r) :
    sizeAt tables key = (canonicalOf r).utf8ByteSize := by
  unfold sizeAt
  rw [show logOf key.addresses tables = [r] from h]
  exact Nat.add_zero _

/-- The references of a row are the edges out of it. -/
theorem Content.children {raw : String} {findings findings' : List String} {children : List RowKey}
    (h : Content sha scope key raw findings findings' children) (hheld : Says tables key raw) (b : RowKey) :
    b ∈ children ↔ Refers tables key b := by
  cases h with
  | finding hkey _ =>
    constructor
    · intro hb
      exact absurd hb (List.not_mem_nil)
    · rintro ⟨hnot, -⟩
      exact absurd hkey hnot
  | node hkey hchildren =>
    constructor
    · intro hb
      exact ⟨hkey, raw, children, hheld, hchildren, hb⟩
    · rintro ⟨-, raw', children', hheld', hchildren', hb⟩
      obtain rfl := hheld.unique hheld'
      rw [hchildren] at hchildren'
      rw [Except.ok.inj hchildren']
      exact hb

/-- The fingerprints after a row are those before it and its own. -/
theorem Content.findings {raw : String} {findings findings' : List String} {children : List RowKey}
    (h : Content sha scope key raw findings findings' children) (hheld : Says tables key raw) (f : String) :
    f ∈ findings' ↔ f ∈ findings ∨ Attests tables sha scope key f := by
  cases h with
  | finding hkey htext =>
    rw [mem_insertFinding, or_comm]
    refine or_congr_right ?_
    constructor
    · rintro rfl
      exact ⟨hkey, raw, hheld, htext⟩
    · rintro ⟨-, raw', hheld', htext'⟩
      obtain rfl := hheld.unique hheld'
      exact Except.ok.inj (htext'.symm.trans htext)
  | node hkey _ =>
    constructor
    · exact .inl
    · rintro (hf | ⟨hfinding, -⟩)
      · exact hf
      · exact absurd hfinding hkey

theorem Content.attested {raw : String} {findings findings' : List String} {children : List RowKey}
    (h : Content sha scope key raw findings findings' children) (hheld : Says tables key raw)
    (hkey : key.operation.text = opFindingText) : ∃ f, Attests tables sha scope key f := by
  cases h with
  | finding _ htext => exact ⟨_, hkey, raw, hheld, htext⟩
  | node hnot _ => exact absurd hkey hnot

/-- To enter a row is to meet it neither on the path nor among those left. -/
theorem enter_eq_some (h : walk.enter key = .ok (some next)) :
    key ∉ walk.visiting ∧ ¬ walk.Done key ∧ walk.rows.length + walk.visiting.length < maxNodes ∧
      next = { walk with edges := walk.edges + 1, visiting := key :: walk.visiting } := by
  obtain ⟨hnext, hroom⟩ := Walk.enter_eq_some h
  unfold Walk.enter at h
  obtain ⟨-, h⟩ := Result.ite_error_eq_ok.1 h
  obtain ⟨hpath, h⟩ := Result.ite_error_eq_ok.1 h
  refine ⟨hpath, ?_, hroom, hnext⟩
  rintro ⟨ref, href, hkey⟩
  have hany : (walk.rows.any fun ref => ref.key = key) = true := List.any_eq_true.2 ⟨ref, href, decide_eq_true hkey⟩
  rw [if_pos hany] at h
  cases h

/-- Not to enter a row is to have left it. -/
theorem enter_eq_none (h : walk.enter key = .ok none) : walk.Done key := by
  unfold Walk.enter at h
  obtain ⟨-, h⟩ := Result.ite_error_eq_ok.1 h
  obtain ⟨-, h⟩ := Result.ite_error_eq_ok.1 h
  by_cases hany : (walk.rows.any fun ref => ref.key = key) = true
  · obtain ⟨ref, href, hkey⟩ := List.any_eq_true.1 hany
    exact ⟨ref, href, of_decide_eq_true hkey⟩
  · rw [if_neg hany] at h
    obtain ⟨-, h⟩ := Result.ite_error_eq_ok.1 h
    cases h

/-- What a row adds when it is entered and read. -/
theorem Walk.Exact.open {inside : Walk} {canonical : String} {children : List RowKey}
    (hwalk : walk.Exact tables sha scope roots) (hreach : Reachable tables roots key) (hpath : key ∉ walk.visiting)
    (hnew : ¬ walk.Done key) (hroom : walk.rows.length + walk.visiting.length < maxNodes)
    (hinside : inside = { walk with edges := walk.edges + 1, visiting := key :: walk.visiting })
    (h : inside.read sha scope key (rowsAt tables key) = .ok (next, canonical, children)) :
    next.Exact tables sha scope roots ∧ next.visiting = key :: walk.visiting ∧ next.rows = walk.rows ∧
      (∀ b, b ∈ children ↔ Refers tables key b) ∧ ∃ r, Addressed tables key r ∧ canonical = canonicalOf r := by
  obtain ⟨r, raw, hr, hraw, hcanonical, hcontent, hvisiting, hrows, hbytes, hguard⟩ := read_rowsAt h
  have hheld : Says tables key raw := ⟨r, hr, hraw⟩
  rw [hinside] at hvisiting hrows hbytes hguard hcontent
  have hvisited : next.visiting = key :: walk.visiting := hvisiting
  have hleft : next.rows = walk.rows := hrows
  have hentered : ∀ k, next.Entered k ↔ k = key ∨ walk.Entered k := by
    intro k
    unfold Walk.Entered Walk.Done
    rw [hvisited, hleft, List.mem_cons, or_assoc]
  have hdone : ∀ k, next.Done k ↔ walk.Done k := by
    intro k
    unfold Walk.Done
    rw [hleft]
  obtain ⟨-, -, -, hsmall, -⟩ := Walk.read_eq_ok h
  refine ⟨⟨?_, ?_, ?_, ?_, ?_, ?_, ?_, ?_, ?_, ?_, hsmall, ?_⟩, hvisited, hleft, hcontent.children hheld, r, hr, hcanonical⟩
  · have hset : { k | next.Done k } = { k | walk.Done k } := Set.ext hdone
    rw [hset]
    exact hwalk.finished
  · intro k hk
    rw [hvisited, List.mem_cons] at hk
    rw [hdone]
    rcases hk with rfl | hk
    · exact hnew
    · exact hwalk.apart k hk
  · rw [hleft]
    exact hwalk.keys
  · rw [hleft]
    exact hwalk.cited
  · intro k hk
    rcases (hentered k).1 hk with rfl | hk
    · exact ⟨r, hr⟩
    · exact hwalk.addressed k hk
  · intro k hk
    rcases (hentered k).1 hk with rfl | hk
    · exact hreach
    · exact hwalk.reached k hk
  · intro k hk hfinding
    rcases (hentered k).1 hk with rfl | hk
    · exact hcontent.attested hheld hfinding
    · exact hwalk.attested k hk hfinding
  · intro f
    rw [hcontent.findings hheld, hwalk.findings]
    constructor
    · rintro (⟨k, hk, hf⟩ | hf)
      · exact ⟨k, (hentered k).2 (.inr hk), hf⟩
      · exact ⟨key, (hentered key).2 (.inl rfl), hf⟩
    · rintro ⟨k, hk, hf⟩
      rcases (hentered k).1 hk with rfl | hk
      · exact .inr hf
      · exact .inl ⟨k, hk, hf⟩
  · have hold := hwalk.bytes
    have hsize := sizeAt_of_addressed hr
    rw [hbytes, hleft, hvisited, List.map_cons, List.sum_cons, hsize, hcanonical]
    show walk.bytes + _ = _
    omega
  · intro later
    rw [hguard later, Bool.and_eq_true, unchanged_of_guard hr]
    show walk.guard.holds later = true ∧ _ ↔ _
    rw [hwalk.guard]
    constructor
    · rintro ⟨hold, hkey⟩ k hk
      rcases (hentered k).1 hk with rfl | hk
      · exact hkey
      · exact hold k hk
    · intro hall
      exact ⟨fun k hk => hall k ((hentered k).2 (.inr hk)), hall key ((hentered key).2 (.inl rfl))⟩
  · rw [hleft, hvisited, List.length_cons]
    exact hroom

/-- A row is left once everything it refers to has been. -/
theorem Walk.Exact.leave {canonical : String} {path : List RowKey} {r : OutboxRecord}
    (hwalk : walk.Exact tables sha scope roots) (hvisiting : walk.visiting = key :: path) (hpath : key ∉ path)
    (hr : Addressed tables key r) (hcanonical : canonical = canonicalOf r)
    (hdone : ∀ b, Refers tables key b → walk.Done b) (h : walk.leave sha key canonical = .ok next) :
    next.Exact tables sha scope roots ∧ next.visiting = path ∧ ∀ k, next.Done k ↔ k = key ∨ walk.Done k := by
  unfold Walk.leave at h
  obtain ⟨digest, hdigest, h⟩ := Result.bind_eq_ok.1 h
  obtain rfl := Except.ok.inj h
  have hpopped : walk.visiting.erase key = path := by
    rw [hvisiting, List.erase_cons_head]
  have hperm : (insertRef ⟨key, digest, canonical.utf8ByteSize⟩ walk.rows).Perm
      (⟨key, digest, canonical.utf8ByteSize⟩ :: walk.rows) := List.perm_orderedInsert _ _ _
  have hleft : ∀ k, (∃ ref ∈ insertRef ⟨key, digest, canonical.utf8ByteSize⟩ walk.rows, ref.key = k) ↔
      k = key ∨ walk.Done k := by
    intro k
    constructor
    · rintro ⟨ref, href, rfl⟩
      rcases List.mem_cons.1 (hperm.mem_iff.1 href) with rfl | href
      · exact .inl rfl
      · exact .inr ⟨ref, href, rfl⟩
    · rintro (rfl | ⟨ref, href, rfl⟩)
      · exact ⟨_, hperm.mem_iff.2 List.mem_cons_self, rfl⟩
      · exact ⟨ref, hperm.mem_iff.2 (List.mem_cons_of_mem _ href), rfl⟩
  have hentered : ∀ k, (k ∈ walk.visiting.erase key ∨
      ∃ ref ∈ insertRef ⟨key, digest, canonical.utf8ByteSize⟩ walk.rows, ref.key = k) ↔ walk.Entered k := by
    intro k
    unfold Walk.Entered
    rw [hpopped, hleft, hvisiting, List.mem_cons, ← or_assoc, or_comm (a := k ∈ path)]
  have hnew : ¬ walk.Done key := hwalk.apart key (by rw [hvisiting]; exact List.mem_cons_self)
  refine ⟨⟨?_, ?_, ?_, ?_, ?_, ?_, ?_, ?_, ?_, ?_, hwalk.small, ?_⟩, hpopped, hleft⟩
  · have hset : { k | ∃ ref ∈ insertRef ⟨key, digest, canonical.utf8ByteSize⟩ walk.rows, ref.key = k } =
        insert key { k | walk.Done k } := Set.ext hleft
    have hfinished := hwalk.finished.insert (x := key) hnew hdone
    rw [← hset] at hfinished
    exact hfinished
  · intro k hk hk'
    have hin : k ∈ path := by
      rw [← hpopped]
      exact hk
    rcases (hleft k).1 hk' with rfl | hold
    · exact hpath hin
    · exact hwalk.apart k (by rw [hvisiting]; exact List.mem_cons_of_mem _ hin) hold
  · have hkeys : ((⟨key, digest, canonical.utf8ByteSize⟩ :: walk.rows : List RowRef).map RowRef.key).Nodup := by
      rw [List.map_cons, List.nodup_cons]
      refine ⟨fun hmem => hnew ?_, hwalk.keys⟩
      obtain ⟨ref, href, hsame⟩ := List.mem_map.1 hmem
      exact ⟨ref, href, hsame⟩
    exact (hperm.map RowRef.key).nodup_iff.2 hkeys
  · intro ref href
    rcases List.mem_cons.1 (hperm.mem_iff.1 href) with rfl | href
    · refine ⟨r, hr, ?_, ?_⟩
      · rw [← hcanonical]
        exact hdigest
      · rw [hcanonical]
    · exact hwalk.cited ref href
  · intro k hk
    exact hwalk.addressed k ((hentered k).1 hk)
  · intro k hk
    exact hwalk.reached k ((hentered k).1 hk)
  · intro k hk
    exact hwalk.attested k ((hentered k).1 hk)
  · intro f
    rw [hwalk.findings]
    exact exists_congr fun k => and_congr_left fun _ => (hentered k).symm
  · have hold := hwalk.bytes
    have hsum := (hperm.map RowRef.bytes).sum_eq
    have hsize := sizeAt_of_addressed hr
    rw [hvisiting, List.map_cons, List.sum_cons, hsize, ← hcanonical] at hold
    have hbytes : RowRef.bytes ⟨key, digest, canonical.utf8ByteSize⟩ = canonical.utf8ByteSize := rfl
    rw [List.map_cons, List.sum_cons, hbytes] at hsum
    show walk.bytes = (((insertRef _ walk.rows).map RowRef.bytes).sum) + ((walk.visiting.erase key).map (sizeAt tables)).sum
    rw [hpopped, hsum]
    omega
  · intro later
    rw [hwalk.guard]
    exact forall_congr' fun k => imp_congr_left (hentered k).symm
  · have hnodes := hwalk.nodes
    have hlength := hperm.length_eq
    rw [hvisiting, List.length_cons] at hnodes
    rw [List.length_cons] at hlength
    show (insertRef _ walk.rows).length + (walk.visiting.erase key).length ≤ maxNodes
    rw [hpopped, hlength]
    omega

/-- What a search has done since `walk`: it is on the same path and has left these rows too. -/
structure Leaves (walk next : Walk) (keys : List RowKey) : Prop where
  visiting : next.visiting = walk.visiting
  grows : ∀ k, walk.Done k → next.Done k
  done : ∀ k ∈ keys, next.Done k

/-- Visits of reachable rows one after another. -/
theorem exact_foldl {search : RowKey → Walk → Except SealError Walk}
    (hsearch : ∀ key walk next, Reachable tables roots key → walk.Exact tables sha scope roots →
      search key walk = .ok next → next.Exact tables sha scope roots ∧ Leaves walk next [key])
    {keys : List RowKey} (hkeys : ∀ key ∈ keys, Reachable tables roots key) (hwalk : walk.Exact tables sha scope roots)
    (h : keys.foldlM (fun walk key => search key walk) walk = .ok next) :
    next.Exact tables sha scope roots ∧ Leaves walk next keys := by
  induction keys generalizing walk with
  | nil =>
    obtain rfl := Except.ok.inj h
    exact ⟨hwalk, rfl, fun k hk => hk, fun k hk => absurd hk (List.not_mem_nil)⟩
  | cons key keys ih =>
    rw [List.foldlM_cons] at h
    obtain ⟨mid, hfirst, h⟩ := Result.bind_eq_ok.1 h
    obtain ⟨hmid, hleft⟩ := hsearch key walk mid (hkeys key List.mem_cons_self) hwalk hfirst
    obtain ⟨hnext, hrest⟩ := ih (fun k hk => hkeys k (List.mem_cons_of_mem _ hk)) hmid h
    refine ⟨hnext, hrest.visiting.trans hleft.visiting, fun k hk => hrest.grows k (hleft.grows k hk), ?_⟩
    intro k hk
    rcases List.mem_cons.1 hk with rfl | hk
    · exact hrest.grows k (hleft.done k (List.mem_singleton_self k))
    · exact hrest.done k hk

theorem exact_visit (remaining : Nat) (key : RowKey) (walk next : Walk) (hreach : Reachable tables roots key)
    (hwalk : walk.Exact tables sha scope roots) (h : visitAt tables sha scope remaining key walk = .ok next) :
    next.Exact tables sha scope roots ∧ Leaves walk next [key] := by
  induction remaining generalizing key walk next with
  | zero => cases h
  | succ remaining ih =>
    unfold visitAt at h
    obtain ⟨entered, hentered, h⟩ := Result.bind_eq_ok.1 h
    cases entered with
    | none =>
      obtain rfl := Except.ok.inj h
      refine ⟨⟨hwalk.finished, hwalk.apart, hwalk.keys, hwalk.cited, hwalk.addressed, hwalk.reached, hwalk.attested,
        hwalk.findings, hwalk.bytes, hwalk.guard, hwalk.small, hwalk.nodes⟩, rfl, fun k hk => hk, fun k hk => ?_⟩
      have hdone : walk.Done key := enter_eq_none hentered
      rw [List.mem_singleton.1 hk]
      exact hdone
    | some inside =>
      obtain ⟨hpath, hnew, hroom, hinside⟩ := enter_eq_some hentered
      obtain ⟨⟨opened, canonical, children⟩, hread, h⟩ := Result.bind_eq_ok.1 h
      obtain ⟨deep, hchildren, hleave⟩ := Result.bind_eq_ok.1 h
      obtain ⟨hopened, hvisiting, hrows, hedges, r, hr, hcanonical⟩ := hwalk.open hreach hpath hnew hroom hinside hread
      have hreachable : ∀ child ∈ children, Reachable tables roots child := by
        intro child hchild
        obtain ⟨root, hroot, hpathTo⟩ := hreach
        exact ⟨root, hroot, hpathTo.tail ((hedges child).1 hchild)⟩
      obtain ⟨hdeep, hleft⟩ := exact_foldl ih hreachable hopened hchildren
      have hdone : ∀ b, Refers tables key b → deep.Done b := fun b hb => hleft.done b ((hedges b).2 hb)
      obtain ⟨hnext, hback, hafter⟩ := hdeep.leave (hleft.visiting.trans hvisiting) hpath hr hcanonical hdone hleave
      have hopenedDone : ∀ k, walk.Done k → opened.Done k := by
        intro k hk
        unfold Walk.Done
        rw [hrows]
        exact hk
      refine ⟨hnext, hback, fun k hk => (hafter k).2 (.inr (hleft.grows k (hopenedDone k hk))), ?_⟩
      intro k hk
      obtain rfl := List.mem_singleton.1 hk
      exact (hafter k).2 (.inl rfl)

/-! ### Closures -/

/-- The closure is the rows reachable from the roots, and nothing else. -/
structure ClosureExact (tables : OutboxTables) (sha : Sha256) (scope : TrustedScope) (roots : List RowKey) (c : Closure) :
    Prop where
  addressed : ∀ key, Reachable tables roots key → ∃ r, Addressed tables key r
  acyclic : ∀ root ∈ roots, ¬ ReachesCycle (Refers tables) root
  keys : (c.rows.map RowRef.key).Nodup
  rows : ∀ key, (∃ ref ∈ c.rows, ref.key = key) ↔ Reachable tables roots key
  cited : ∀ ref ∈ c.rows, Cited tables sha ref
  nodes : c.rows.length ≤ maxNodes
  bytes : (c.rows.map RowRef.bytes).sum ≤ maxClosureBytes
  attested : ∀ key, Reachable tables roots key → key.operation.text = opFindingText → ∃ f, Attests tables sha scope key f
  findings : ∀ f, f ∈ c.findings ↔ ∃ key, Reachable tables roots key ∧ Attests tables sha scope key f
  guard : ∀ later, c.guard.holds later = true ↔ ∀ key, Reachable tables roots key → Unchanged tables later key

theorem exact_closureAt {c : Closure} (h : closureAt tables sha scope roots = .ok c) :
    ClosureExact tables sha scope roots c := by
  unfold closureAt at h
  obtain ⟨walk, hwalk, h⟩ := Result.bind_eq_ok.1 h
  obtain ⟨-, h⟩ := Result.ite_error_eq_ok.1 h
  obtain rfl := Except.ok.inj h
  have hroots : ∀ root ∈ roots, Reachable tables roots root := fun root hroot => ⟨root, hroot, .refl⟩
  obtain ⟨hexact, hleft⟩ := exact_foldl (exact_visit (maxDepth + 1)) hroots exact_start hwalk
  have hvisiting : walk.visiting = [] := hleft.visiting
  have hentered : ∀ key, walk.Entered key ↔ walk.Done key := by
    intro key
    unfold Walk.Entered
    rw [hvisiting]
    simp
  have hreach : ∀ key, walk.Done key ↔ Reachable tables roots key := by
    intro key
    constructor
    · intro hkey
      exact hexact.reached key ((hentered key).2 hkey)
    · rintro ⟨root, hroot, hpath⟩
      exact hexact.finished.reach (hleft.done root hroot) hpath
  have hboth : ∀ key, walk.Entered key ↔ Reachable tables roots key := fun key => (hentered key).trans (hreach key)
  refine ⟨?_, ?_, hexact.keys, hreach, hexact.cited, ?_, ?_, ?_, ?_, ?_⟩
  · intro key hkey
    exact hexact.addressed key ((hboth key).2 hkey)
  · intro root hroot
    exact hexact.finished.not_reachesCycle (hleft.done root hroot)
  · have hnodes := hexact.nodes
    rw [hvisiting, List.length_nil] at hnodes
    exact hnodes
  · have hbytes := hexact.bytes
    have hsmall := hexact.small
    rw [hvisiting, List.map_nil, List.sum_nil] at hbytes
    show (walk.rows.map RowRef.bytes).sum ≤ maxClosureBytes
    omega
  · intro key hkey
    exact hexact.attested key ((hboth key).2 hkey)
  · intro f
    rw [hexact.findings]
    exact exists_congr fun key => and_congr_left fun _ => hboth key
  · intro later
    rw [hexact.guard]
    exact forall_congr' fun key => imp_congr_left (hboth key)

end Search

/-- The closure comes to an end, and what it returns is exact. -/
theorem closure_exact (sha : Sha256) (scope : TrustedScope) (roots : List RowKey) (db : Database OutboxTables) :
    (∃ t r, Runs StoreOp.exec Readable (closure sha scope roots).run db t (some r)) ∧
      ∀ E t c, Runs StoreOp.exec E (closure sha scope roots).run db t (some (.ok c)) →
        t = db ∧ ClosureExact db.tables sha scope roots c := by
  refine ⟨exists_run (E := Readable) ⟨Moment.quiet "" 0, rfl⟩ _ db, fun E t c hrun => ?_⟩
  obtain ⟨ht, hc⟩ := (settles_closure sha scope db roots).value E t c hrun
  exact ⟨ht, exact_closureAt hc⟩


end Verdant.Seal
