import Verdant.Seal.Manifest

/-!
# Seal histories

The seal and release rows of a database, and what `History::read` makes of them.  Over the rows stands a ledger of events:
which identities were published with which manifests, and which were released (`SealLog`).  The texts of the events read
back (`readEvent_text`), and rows that were filed by a reachable ledger are read as that ledger (`ofRows_filed`).
-/

namespace Verdant.Seal

open TextCodec Storage Access Binding Prog

def opSealText : String := "seal-revision-v1"
def opReleaseText : String := "seal-release-v1"

/-! ### Events -/

/-- One row of the history. -/
inductive SealEvent where
  | publish (identity : Digest) (manifest : Manifest)
  | release (identity : Digest)
  deriving DecidableEq

namespace SealEvent

def operation : SealEvent → String
  | .publish _ _ => opSealText
  | .release _ => opReleaseText

def identity : SealEvent → Digest
  | .publish identity _ => identity
  | .release identity => identity

def text : SealEvent → String
  | .publish identity manifest => encode ["seal-row-v1", identity.text, manifest.canonicalBytes]
  | .release identity => encode ["seal-release-v1", identity.text]

end SealEvent

/-- The event a row of the operation holds. -/
def readEvent (operation raw : String) : Except SealError SealEvent := do
  let f ← decode raw (maxManifestBytes + 256) 3
  if operation = opSealText ∧ f.length = 3 ∧ f[0]? = some "seal-row-v1" then do
    let identity ← Digest.parse (f.getD 1 "")
    let manifest ← Manifest.decode (f.getD 2 "")
    .ok (.publish identity manifest)
  else if operation = opReleaseText ∧ f.length = 2 ∧ f[0]? = some "seal-release-v1" then do
    let identity ← Digest.parse (f.getD 1 "")
    .ok (.release identity)
  else .error (.invalid "seal history kind")

/-- A manifest that is read back, so that its event is. -/
def SealEvent.Readable : SealEvent → Prop
  | .publish _ manifest =>
    manifest.canonicalBytes.utf8ByteSize ≤ maxManifestBytes ∧ Manifest.decode manifest.canonicalBytes = .ok manifest
  | .release _ => True

theorem SealEvent.size_text_le {e : SealEvent} (h : e.Readable) : e.text.utf8ByteSize ≤ maxManifestBytes + 256 := by
  have hmax : maxManifestBytes = 60000 := rfl
  cases e with
  | publish identity manifest =>
    have hversion : (frame "seal-row-v1").utf8ByteSize ≤ 2 + 1 + 11 :=
      utf8ByteSize_frame_le (by decide) (by decide) (by decide)
    have hidentity := utf8ByteSize_frame_le (k := 2) (by decide) (Nat.le_of_eq identity.valid.1) (by decide)
    have hmanifest := utf8ByteSize_frame_le (k := 5) (by decide) h.1 (by decide)
    unfold SealEvent.text
    rw [utf8ByteSize_encode]
    simp only [List.map_cons, List.map_nil, List.sum_cons, List.sum_nil]
    omega
  | release identity =>
    have hversion : (frame "seal-release-v1").utf8ByteSize ≤ 2 + 1 + 15 :=
      utf8ByteSize_frame_le (by decide) (by decide) (by decide)
    have hidentity := utf8ByteSize_frame_le (k := 2) (by decide) (Nat.le_of_eq identity.valid.1) (by decide)
    unfold SealEvent.text
    rw [utf8ByteSize_encode]
    simp only [List.map_cons, List.map_nil, List.sum_cons, List.sum_nil]
    omega

theorem readEvent_publish {raw a b : String} (h : decode raw (maxManifestBytes + 256) 3 = .ok ["seal-row-v1", a, b]) :
    readEvent opSealText raw = Digest.parse a >>= fun identity => Manifest.decode b >>= fun manifest =>
      .ok (.publish identity manifest) := by
  unfold readEvent
  rw [h, Result.ok_bind]
  exact if_pos ⟨rfl, rfl, rfl⟩

theorem readEvent_release {raw a : String} (h : decode raw (maxManifestBytes + 256) 3 = .ok ["seal-release-v1", a]) :
    readEvent opReleaseText raw = Digest.parse a >>= fun identity => .ok (.release identity) := by
  have hkind : ¬(opReleaseText = opSealText ∧ ["seal-release-v1", a].length = 3 ∧
      ["seal-release-v1", a][0]? = some "seal-row-v1") := by
    rintro ⟨-, hlength, -⟩
    cases hlength
  unfold readEvent
  rw [h, Result.ok_bind, if_neg hkind]
  exact if_pos ⟨rfl, rfl, rfl⟩

/-- A readable event is read back from its text. -/
theorem readEvent_text {e : SealEvent} (h : e.Readable) : readEvent e.operation e.text = .ok e := by
  have hsize := e.size_text_le h
  cases e with
  | publish identity manifest =>
    obtain ⟨-, hmanifest⟩ := h
    unfold SealEvent.text at hsize ⊢
    have hframe := decode_encode hsize (Nat.le_refl 3) (by decide)
    unfold SealEvent.operation
    rw [readEvent_publish hframe, Digest.parse_text, Result.ok_bind, hmanifest, Result.ok_bind]
  | release identity =>
    unfold SealEvent.text at hsize ⊢
    have hframe : decode _ (maxManifestBytes + 256) 3 = .ok _ := decode_encode hsize (by simp) (by decide)
    unfold SealEvent.operation
    rw [readEvent_release hframe, Digest.parse_text, Result.ok_bind]

/-! ### The ledger -/

/-- Events with the ids of their rows. -/
abbrev SealLog := List (Int × SealEvent)

namespace SealLog

/-- The identities that were published. -/
def published (log : SealLog) : List Digest :=
  log.filterMap fun x => match x.2 with
    | .publish identity _ => some identity
    | .release _ => none

def released (log : SealLog) : List Digest :=
  log.filterMap fun x => match x.2 with
    | .publish _ _ => none
    | .release identity => some identity

/-- The identities whose bytes are retained. -/
def live (log : SealLog) : List Digest := (published log).filter fun identity => identity ∉ released log

end SealLog

/-- What may be appended to a ledger. -/
inductive Appends (sha : Sha256) (log : SealLog) : SealEvent → Prop where
  | publish {identity : Digest} {manifest : Manifest} (readable : (SealEvent.publish identity manifest).Readable)
      (named : manifest.identity sha = .ok identity) (fresh : identity ∉ SealLog.published log)
      (custody : (SealLog.live log).length < maxLiveSeals) : Appends sha log (.publish identity manifest)
  | release {identity : Digest} (sealed : identity ∈ SealLog.published log) (held : identity ∉ SealLog.released log) :
      Appends sha log (.release identity)

/-! ### Reading -/

def isSeal (r : OutboxRecord) : Bool := r.operation = opSealText || r.operation = opReleaseText

def historyPredicate : String := "operation IN ('seal-revision-v1','seal-release-v1')"

def sealColumns (r : OutboxRecord) : List String := [Nat.repr r.id, r.operation, sqlQuote r.valueJson, r.seq]

def selectSeals : Query OutboxTables :=
  selectLog s!"SELECT id, operation, quote(value_json), seq FROM outbox WHERE {historyPredicate} ORDER BY id LIMIT 257;"
    isSeal sealColumns (some (maxHistory + 1))

structure SealCommit where
  identity : Digest
  rowId : Int
  manifest : Manifest
  reconciled : Bool
  deriving DecidableEq

structure History where
  count : Nat
  seals : List SealCommit
  released : List Digest

namespace History

variable (history : History)

def get (identity : Digest) : Option SealCommit := history.seals.find? fun s => s.identity = identity

def live : List SealCommit := history.seals.filter fun s => s.identity ∉ history.released

def guard : Guard where
  text := s!"(SELECT COUNT(*) FROM outbox WHERE {historyPredicate})={history.count}"
  holds := countIs isSeal history.count

def add (rowId : Int) : SealEvent → History
  | .publish identity manifest => { history with seals := history.seals ++ [⟨identity, rowId, manifest, false⟩] }
  | .release identity => { history with released := history.released ++ [identity] }

/-- The checks of one event against those before it. -/
def check (sha : Sha256) : SealEvent → Except SealError Unit
  | .publish identity manifest => do
    if (← manifest.identity sha) ≠ identity then .error (.changed "seal manifest digest")
    else if (history.get identity).isSome then .error (.invalid "duplicate seal identity")
    else .ok ()
  | .release identity =>
    if (history.get identity).isNone ∨ identity ∈ history.released then .error (.invalid "release identity") else .ok ()

def rowText (raw : String) : Except SealError String := do
  match ← unquoteColumn raw with
  | none => .error (.invalid "NULL seal row")
  | some json =>
    match Value.fromJson json with
    | .error _ => .error (.invalid "seal JSON")
    | .ok (.text text) => .ok text
    | .ok _ => .error (.invalid "seal row text")

def numberI64 : String → Except SealError Int := number parseI64 fun n => toString n

/-- One more row, at its index. -/
def addRow (sha : Sha256) (index : Nat) (row : List String) : Except SealError History :=
  match row with
  | [id, operation, json, seq] => do
    if (← numberUsize seq) ≠ index + 1 then .error (.invalid "seal history sequence")
    else
      let rowId ← numberI64 id
      let raw ← rowText json
      let event ← readEvent operation raw
      history.check sha event
      .ok (history.add rowId event)
  | _ => .error (.invalid "seal history sequence")

def addRows (sha : Sha256) (history : History) (rows : List (List String × Nat)) : Except SealError History :=
  rows.foldlM (fun history row => history.addRow sha row.2 row.1) history

def ofRows (sha : Sha256) (rows : Rows) : Except SealError History := do
  if maxHistory < rows.length then .error (.limit "seal history")
  else
    let history ← addRows sha ⟨rows.length, [], []⟩ rows.zipIdx
    if maxLiveSeals < history.live.length then .error (.limit "live custody") else .ok history

end History

/-! ### Reading what was recorded -/

/-- The columns of the row of an event. -/
structure RowOf (seq : Nat) (r : OutboxRecord) (rowId : Int) (event : SealEvent) : Prop where
  rowId : rowId = r.id
  operation : r.operation = event.operation
  seq : r.seq = Nat.repr seq
  value : r.valueJson = (Value.text event.text).toJson

/-- The rows record the ledger: every event was one that may be appended, in a history with room for it. -/
inductive Recorded (sha : Sha256) : List OutboxRecord → SealLog → Prop where
  | nil : Recorded sha [] []
  | snoc {rows : List OutboxRecord} {log : SealLog} {r : OutboxRecord} {rowId : Int} {event : SealEvent}
      (h : Recorded sha rows log) (room : log.length < maxHistory) (happend : Appends sha log event)
      (hrow : RowOf (log.length + 1) r rowId event) : Recorded sha (rows ++ [r]) (log ++ [(rowId, event)])

namespace SealLog

variable (log : SealLog) (rowId : Int)

theorem published_publish (identity : Digest) (manifest : Manifest) :
    published (log ++ [(rowId, .publish identity manifest)]) = published log ++ [identity] := by
  unfold published
  rw [List.filterMap_append]
  rfl

theorem published_release (identity : Digest) : published (log ++ [(rowId, .release identity)]) = published log := by
  unfold published
  rw [List.filterMap_append]
  exact List.append_nil _

theorem released_publish (identity : Digest) (manifest : Manifest) :
    released (log ++ [(rowId, .publish identity manifest)]) = released log := by
  unfold released
  rw [List.filterMap_append]
  exact List.append_nil _

theorem released_release (identity : Digest) :
    released (log ++ [(rowId, .release identity)]) = released log ++ [identity] := by
  unfold released
  rw [List.filterMap_append]
  rfl

theorem mem_live {log : SealLog} {identity : Digest} :
    identity ∈ live log ↔ identity ∈ published log ∧ identity ∉ released log := by
  unfold live
  rw [List.mem_filter, decide_eq_true_eq]

/-- A release takes away one live seal at most. -/
theorem live_release_sublist (identity : Digest) : (live (log ++ [(rowId, .release identity)])).Sublist (live log) := by
  unfold live
  rw [published_release, released_release]
  refine List.monotone_filter_right _ fun d hd => ?_
  rw [decide_eq_true_eq] at hd ⊢
  exact fun hmem => hd (List.mem_append_left _ hmem)

theorem live_publish {log : SealLog} {identity : Digest} (manifest : Manifest) (hnew : identity ∉ released log) :
    live (log ++ [(rowId, .publish identity manifest)]) = live log ++ [identity] := by
  unfold live
  rw [published_publish, released_publish, List.filter_append, List.filter_cons, if_pos (decide_eq_true hnew)]
  rfl

end SealLog

namespace Recorded

variable {sha : Sha256} {rows : List OutboxRecord} {log : SealLog}

theorem length_eq (h : Recorded sha rows log) : rows.length = log.length := by
  induction h with
  | nil => rfl
  | snoc _ _ _ _ ih => rw [List.length_append, List.length_append, ih]; rfl

theorem length_le (h : Recorded sha rows log) : log.length ≤ maxHistory := by
  cases h with
  | nil => exact Nat.zero_le _
  | snoc _ room _ _ =>
    rw [List.length_append]
    exact room

/-- Whatever was released had been published. -/
theorem released_subset (h : Recorded sha rows log) : SealLog.released log ⊆ SealLog.published log := by
  induction h with
  | nil => exact List.Subset.refl _
  | @snoc rows log r rowId event h _ happend _ ih =>
    cases happend with
    | @publish identity manifest _ _ _ _ =>
      rw [SealLog.released_publish, SealLog.published_publish]
      exact fun d hd => List.mem_append_left _ (ih hd)
    | @release identity hsealed _ =>
      rw [SealLog.released_release, SealLog.published_release]
      intro d hd
      rcases List.mem_append.1 hd with hd | hd
      · exact ih hd
      · rw [List.mem_singleton.1 hd]
        exact hsealed

theorem nodup_published (h : Recorded sha rows log) : (SealLog.published log).Nodup := by
  induction h with
  | nil => exact List.nodup_nil
  | @snoc rows log r rowId event h _ happend _ ih =>
    cases happend with
    | @publish identity manifest _ _ hfresh _ =>
      rw [SealLog.published_publish]
      exact List.Nodup.append ih (List.nodup_singleton _) (List.disjoint_singleton.2 hfresh)
    | @release identity _ _ =>
      rw [SealLog.published_release]
      exact ih

theorem nodup_released (h : Recorded sha rows log) : (SealLog.released log).Nodup := by
  induction h with
  | nil => exact List.nodup_nil
  | @snoc rows log r rowId event h _ happend _ ih =>
    cases happend with
    | @publish identity manifest _ _ _ _ =>
      rw [SealLog.released_publish]
      exact ih
    | @release identity _ hheld =>
      rw [SealLog.released_release]
      exact List.Nodup.append ih (List.nodup_singleton _) (List.disjoint_singleton.2 hheld)

/-- Custody is finite. -/
theorem live_le (h : Recorded sha rows log) : (SealLog.live log).length ≤ maxLiveSeals := by
  induction h with
  | nil => exact Nat.zero_le _
  | @snoc rows log r rowId event h _ happend _ ih =>
    cases happend with
    | @publish identity manifest _ _ hfresh hcustody =>
      have hnew : identity ∉ SealLog.released log := fun hmem => hfresh (h.released_subset hmem)
      rw [SealLog.live_publish _ manifest hnew, List.length_append]
      exact hcustody
    | @release identity _ _ => exact Nat.le_trans (SealLog.live_release_sublist log rowId identity).length_le ih

end Recorded

/-- What a ledger is read as. -/
def historyOf (count : Nat) (log : SealLog) : History := log.foldl (fun history x => history.add x.1 x.2) ⟨count, [], []⟩

section HistoryOf

variable (count : Nat) (log : SealLog)

theorem historyOf_append (x : Int × SealEvent) : historyOf count (log ++ [x]) = (historyOf count log).add x.1 x.2 := by
  unfold historyOf
  rw [List.foldl_append]
  rfl

theorem count_historyOf : (historyOf count log).count = count := by
  induction log using List.reverseRecOn with
  | nil => rfl
  | append_singleton log x ih =>
    rw [historyOf_append]
    cases x.2 with
    | publish identity manifest => exact ih
    | release identity => exact ih

theorem released_historyOf : (historyOf count log).released = SealLog.released log := by
  induction log using List.reverseRecOn with
  | nil => rfl
  | append_singleton log x ih =>
    obtain ⟨rowId, event⟩ := x
    rw [historyOf_append]
    cases event with
    | publish identity manifest =>
      rw [SealLog.released_publish]
      exact ih
    | release identity =>
      rw [SealLog.released_release, ← ih]
      rfl

theorem identities_historyOf : (historyOf count log).seals.map SealCommit.identity = SealLog.published log := by
  induction log using List.reverseRecOn with
  | nil => rfl
  | append_singleton log x ih =>
    obtain ⟨rowId, event⟩ := x
    rw [historyOf_append]
    cases event with
    | publish identity manifest =>
      have hadd : ((historyOf count log).add rowId (.publish identity manifest)).seals =
          (historyOf count log).seals ++ [⟨identity, rowId, manifest, false⟩] := rfl
      rw [SealLog.published_publish, ← ih, hadd, List.map_append]
      rfl
    | release identity =>
      rw [SealLog.published_release, ← ih]
      rfl

theorem live_historyOf : (historyOf count log).live.map SealCommit.identity = SealLog.live log := by
  unfold History.live SealLog.live
  rw [← identities_historyOf count log, released_historyOf, List.filter_map]
  rfl

variable {count log}

theorem get_isSome {identity : Digest} :
    ((historyOf count log).get identity).isSome = true ↔ identity ∈ SealLog.published log := by
  unfold History.get
  rw [← identities_historyOf count log, List.find?_isSome, List.mem_map]
  exact exists_congr fun s => and_congr_right fun _ => decide_eq_true_iff

/-- The commit of an identity is the row it was published in. -/
theorem get_eq_some {identity : Digest} {commit : SealCommit} (h : (historyOf count log).get identity = some commit) :
    commit.identity = identity ∧ commit.reconciled = false ∧ (commit.rowId, .publish identity commit.manifest) ∈ log := by
  have hmem : ∀ s ∈ (historyOf count log).seals,
      s.reconciled = false ∧ (s.rowId, SealEvent.publish s.identity s.manifest) ∈ log := by
    clear h
    induction log using List.reverseRecOn with
    | nil =>
      intro s hs
      exact absurd hs (List.not_mem_nil)
    | append_singleton log x ih =>
      obtain ⟨rowId, event⟩ := x
      rw [historyOf_append]
      intro s hs
      cases event with
      | publish other manifest =>
        rcases List.mem_append.1 hs with hs | hs
        · exact ⟨(ih s hs).1, List.mem_append_left _ (ih s hs).2⟩
        · rw [List.mem_singleton.1 hs]
          exact ⟨rfl, List.mem_append_right _ (List.mem_singleton_self _)⟩
      | release other => exact ⟨(ih s hs).1, List.mem_append_left _ (ih s hs).2⟩
  have hfind : (historyOf count log).seals.find? (fun s => s.identity = identity) = some commit := h
  have hfound := List.mem_of_find?_eq_some hfind
  have hidentity : commit.identity = identity := by
    have hpred := List.find?_some hfind
    rw [decide_eq_true_eq] at hpred
    exact hpred
  refine ⟨hidentity, (hmem commit hfound).1, ?_⟩
  rw [← hidentity]
  exact (hmem commit hfound).2

end HistoryOf

/-! ### Reading back -/

theorem rowText_toJson (raw : String) : History.rowText (sqlQuote (Value.text raw).toJson) = .ok raw := by
  have hunquote : unquoteColumn (sqlQuote (Value.text raw).toJson) = .ok (some (Value.text raw).toJson) := by
    unfold unquoteColumn
    rw [unquoteText_sqlQuote]
    rfl
  unfold History.rowText
  rw [hunquote, Result.ok_bind]
  simp only [Json.fromJson_toJson]

theorem numberI64_repr {n : Nat} (h : n < 2 ^ 63) : History.numberI64 (Nat.repr n) = .ok (n : Int) :=
  spelled_eq_ok.2 ⟨parseI64_repr h, rfl⟩

/-- An event that may be appended passes the checks of the read. -/
theorem check_of_appends {sha : Sha256} {count : Nat} {log : SealLog} {event : SealEvent} (h : Appends sha log event) :
    (historyOf count log).check sha event = .ok () := by
  cases h with
  | @publish identity manifest _ named fresh _ =>
    have hnone : ¬((historyOf count log).get identity).isSome = true := fun hsome => fresh (get_isSome.1 hsome)
    unfold History.check
    simp only [named, Result.ok_bind, ne_eq, not_true_eq_false, if_false, if_neg hnone]
  | @release identity hsealed hheld =>
    have hsome : ((historyOf count log).get identity).isSome = true := get_isSome.2 hsealed
    have hcheck : ¬(((historyOf count log).get identity).isNone = true ∨ identity ∈ (historyOf count log).released) := by
      rintro (hnone | hmem)
      · rw [Option.isNone_iff_eq_none] at hnone
        rw [hnone] at hsome
        cases hsome
      · rw [released_historyOf] at hmem
        exact hheld hmem
    unfold History.check
    exact if_neg hcheck

theorem Appends.readable {sha : Sha256} {log : SealLog} {event : SealEvent} (h : Appends sha log event) :
    event.Readable := by
  cases h with
  | publish readable _ _ _ => exact readable
  | release _ _ => trivial

/-- One more recorded row is read as its event. -/
theorem addRow_recorded {sha : Sha256} {count : Nat} {log : SealLog} {r : OutboxRecord} {rowId : Int} {event : SealEvent}
    (hid : r.id < 2 ^ 63) (room : log.length < maxHistory) (happend : Appends sha log event)
    (hrow : RowOf (log.length + 1) r rowId event) :
    (historyOf count log).addRow sha log.length (sealColumns r) = .ok (historyOf count (log ++ [(rowId, event)])) := by
  have hmax : maxHistory = 256 := rfl
  have hseq : numberUsize r.seq = .ok (log.length + 1) := by
    rw [hrow.seq]
    exact numberUsize_repr (by omega)
  have htext : History.rowText (sqlQuote r.valueJson) = .ok event.text := by
    rw [hrow.value]
    exact rowText_toJson event.text
  have hevent : readEvent r.operation event.text = .ok event := by
    rw [hrow.operation]
    exact readEvent_text happend.readable
  unfold sealColumns History.addRow
  simp only [hseq, Result.ok_bind, ne_eq, not_true_eq_false, if_false, numberI64_repr hid, htext, hevent,
    check_of_appends happend]
  rw [historyOf_append, hrow.rowId]

/-- The recorded rows are read as their ledger. -/
theorem addRows_recorded {sha : Sha256} {count : Nat} {rows : List OutboxRecord} {log : SealLog}
    (h : Recorded sha rows log) (hids : ∀ r ∈ rows, r.id < 2 ^ 63) :
    History.addRows sha ⟨count, [], []⟩ (rows.map sealColumns).zipIdx = .ok (historyOf count log) := by
  induction h with
  | nil => rfl
  | @snoc rows log r rowId event h room happend hrow ih =>
    have hold := ih fun x hx => hids x (List.mem_append_left _ hx)
    have hnew : (historyOf count log).addRow sha log.length (sealColumns r) =
        .ok (historyOf count (log ++ [(rowId, event)])) := addRow_recorded (hids r (by simp)) room happend hrow
    have hzip : ((rows ++ [r]).map sealColumns).zipIdx =
        (rows.map sealColumns).zipIdx ++ [(sealColumns r, log.length)] := by
      rw [List.map_append, List.zipIdx_append, List.length_map, h.length_eq, Nat.zero_add]
      rfl
    unfold History.addRows at hold ⊢
    rw [hzip, List.foldlM_append, hold, Result.ok_bind, List.foldlM_cons, hnew, Result.ok_bind]
    rfl

/-- A recorded history is never refused. -/
theorem ofRows_recorded {sha : Sha256} {rows : List OutboxRecord} {log : SealLog} (h : Recorded sha rows log)
    (hids : ∀ r ∈ rows, r.id < 2 ^ 63) :
    History.ofRows sha (rows.map sealColumns) = .ok (historyOf rows.length log) := by
  have hroom : ¬maxHistory < (rows.map sealColumns).length := by
    rw [List.length_map, h.length_eq]
    exact Nat.not_lt.2 h.length_le
  have hlive : ¬maxLiveSeals < (historyOf rows.length log).live.length := by
    have hlength := congrArg List.length (live_historyOf rows.length log)
    rw [List.length_map] at hlength
    rw [hlength]
    exact Nat.not_lt.2 h.live_le
  have hlength : (rows.map sealColumns).length = rows.length := List.length_map ..
  unfold History.ofRows
  rw [if_neg hroom, hlength, addRows_recorded h hids, Result.ok_bind, if_neg hlive]

def readHistory (sha : Sha256) : SealCall History := do
  let rows ← Prog.mapErr SealError.storage (Prog.attempt (Call.read selectSeals))
  Prog.check (History.ofRows sha rows)

end Verdant.Seal
