import Verdant.Access.Ledger

/-!
# Snapshots of the admission log

The log the tables hold (`admissions`), and the state a bounded read of it gives.  A read of a sound log is never refused
while the log is within the bound (`ofRows_columns`), and a credential passes the checks against it exactly when the log
accepts it (`matching_eq_ok`), whichever order of diagnostics is asked for.
-/

namespace Verdant.Access

open TextCodec Storage

/-- The columns of a row of the log that the gate wrote. -/
def Admission.columns (row : Admission) : String × String × String :=
  (row.operation, row.anchor, (Value.text row.encode).toJson)

def recordColumns (r : OutboxRecord) : String × String × String := (r.operation, r.entity, r.valueJson)

/-- The row of a record of the log. -/
def admissionOf (r : OutboxRecord) : Option Admission :=
  match Value.fromJson r.valueJson with
  | .ok (.text descriptor) => (decodeAdmission r.operation descriptor).toOption
  | _ => none

/-- The admission log the tables hold. -/
def admissions (tables : OutboxTables) : List Admission := (logOf isAdmission tables).filterMap admissionOf

theorem admissionOf_of_columns {r : OutboxRecord} {row : Admission} (hrow : row.WellFormed)
    (h : recordColumns r = row.columns) : admissionOf r = some row := by
  obtain ⟨hoperation, -, hvalue⟩ : r.operation = row.operation ∧ r.entity = row.anchor ∧
      r.valueJson = (Value.text row.encode).toJson := by
    simpa [recordColumns, Admission.columns] using h
  unfold admissionOf
  rw [hvalue, Json.fromJson_toJson, hoperation]
  simp only
  rw [decodeAdmission_encode hrow]
  rfl

theorem filterMap_admissionOf {rs : List OutboxRecord} {log : List Admission} (hlog : ∀ row ∈ log, row.WellFormed)
    (h : rs.map recordColumns = log.map Admission.columns) : rs.filterMap admissionOf = log := by
  induction log generalizing rs with
  | nil =>
    rw [List.map_nil, List.map_eq_nil_iff] at h
    rw [h]
    rfl
  | cons row log ih =>
    cases rs with
    | nil => exact nomatch h
    | cons r rs =>
      rw [List.map_cons, List.map_cons, List.cons.injEq] at h
      have hhead := admissionOf_of_columns (hlog row List.mem_cons_self) h.1
      rw [List.filterMap_cons_some hhead, ih (fun row hrow => hlog row (List.mem_cons_of_mem _ hrow)) h.2]

/-- Every row of the log is as the gate writes it, and the log is a reachable one. -/
structure Admitted (tables : OutboxTables) : Prop where
  written : (logOf isAdmission tables).map recordColumns = (admissions tables).map Admission.columns
  reachable : Reachable (admissions tables)

theorem admitted_empty : Admitted OutboxTables.empty where
  written := rfl
  reachable := .empty

theorem Admitted.sound {tables : OutboxTables} (h : Admitted tables) : Sound (admissions tables) := h.reachable.sound

theorem Admitted.length {tables : OutboxTables} (h : Admitted tables) :
    (admissions tables).length = (logOf isAdmission tables).length := by
  have hlen := congrArg List.length h.written
  rw [List.length_map, List.length_map] at hlen
  exact hlen.symm

/-! ### Reading -/

/-- No two issue rows of one capability share a generation or a key. -/
def Distinct (a b : IssueRow) : Prop := a.cap = b.cap → a.capgen ≠ b.capgen ∧ a.keyId ≠ b.keyId

/-- Pairs with one capability are pairs of its chain. -/
theorem pairwise_of_chains {R : IssueRow → IssueRow → Prop} {rows : List IssueRow}
    (h : ∀ cap, (rows.filter fun row => row.cap = cap).Pairwise R) :
    rows.Pairwise fun a b => a.cap = b.cap → R a b := by
  induction rows with
  | nil => exact List.Pairwise.nil
  | cons a rows ih =>
    refine List.Pairwise.cons ?_ (ih fun cap => ?_)
    · intro b hb hcap
      have hchain := h a.cap
      rw [List.filter_cons_of_pos (by simp)] at hchain
      refine List.rel_of_pairwise_cons hchain ?_
      rw [List.mem_filter, decide_eq_true_eq]
      exact ⟨hb, hcap.symm⟩
    · have hchain := h cap
      rw [List.filter_cons] at hchain
      split at hchain
      · exact hchain.of_cons
      · exact hchain

theorem Sound.distinct {log : List Admission} (h : Sound log) : (issuesOf log).Pairwise Distinct := by
  refine pairwise_of_chains fun cap => ?_
  have hchain := h.chains cap
  have hgens : ((chain cap log).map fun row => row.capgen.toNat).Nodup := by
    rw [hchain.generations]
    exact List.nodup_range'
  have hkeys := hchain.keys
  unfold List.Nodup at hgens hkeys
  rw [List.pairwise_map] at hgens hkeys
  refine hgens.imp₂ (fun a b hgen hkey => ⟨?_, hkey⟩) hkeys
  intro heq
  exact hgen (by rw [heq])

theorem admissionText_sqlQuote (raw : String) : admissionText (sqlQuote raw) = .ok raw := by
  unfold admissionText
  rw [unquoteText_sqlQuote]
  rfl

theorem admissionValue_toJson (descriptor : String) : admissionValue (Value.text descriptor).toJson = .ok descriptor := by
  unfold admissionValue
  rw [Json.fromJson_toJson]
  rfl

/-- The row is there, under its id and with its bytes. -/
def rowPresent (r : OutboxRecord) : OutboxTables → Bool :=
  present fun r' => r'.id = (r.id : Int) && r'.operation = r.operation && r'.entity = r.entity &&
    r'.valueJson = r.valueJson

theorem rowPresent_of_mem {r : OutboxRecord} {tables : OutboxTables} (h : r ∈ history tables) :
    rowPresent r tables = true := by
  unfold rowPresent present
  rw [List.any_eq_true]
  exact ⟨r, h, by simp⟩

/-- A row the gate wrote is recorded, and its conjunct added to the guard. -/
theorem push_columns (state : State) {r : OutboxRecord} {row : Admission} (hid : r.id < 2 ^ 63)
    (hrow : row.WellFormed) (h : recordColumns r = row.columns) :
    ∃ guard : State → Guard, (∀ s tables, (guard s).holds tables = (s.guard.holds tables && rowPresent r tables)) ∧
      state.push (admissionColumns r) = (state.record row).map fun s => { s with guard := guard s } := by
  obtain ⟨hoperation, hentity, hvalue⟩ : r.operation = row.operation ∧ r.entity = row.anchor ∧
      r.valueJson = (Value.text row.encode).toJson := by
    simpa [recordColumns, Admission.columns] using h
  refine ⟨fun s => s.guard.also (admissionExists r.id r.operation r.entity r.valueJson) (rowPresent r),
    fun s tables => rfl, ?_⟩
  unfold State.push admissionColumns rowPresent
  simp only [parseI64_repr hid, admissionText_sqlQuote, Result.ok_bind]
  rw [hvalue, admissionValue_toJson, Result.ok_bind, hoperation, decodeAdmission_encode hrow, Result.ok_bind, hentity]
  cases hrecord : state.record row with
  | error e => rfl
  | ok s =>
    rw [Result.ok_bind, if_neg (not_not.2 rfl)]
    rfl

/-- The state with the rows of a log behind its own, under a guard. -/
def State.extend (state : State) (log : List Admission) (guard : Guard) : State where
  issues := state.issues ++ issuesOf log
  revokes := state.revokes ++ revokesOf log
  bootstraps := state.bootstraps ++ bootstrapsOf log
  count := state.count
  guard := guard

theorem State.record_eq_ok {state : State} {row : Admission}
    (hdistinct : ∀ new ∈ issuesOf [row], ∀ old ∈ state.issues, Distinct old new) :
    state.record row = .ok (state.extend [row] state.guard) := by
  cases row with
  | bootstrap row => simp [State.record, State.extend, issuesOf, revokesOf, bootstrapsOf, Admission.issue?,
      Admission.revoke?, Admission.bootstrap?]
  | revoke row => simp [State.record, State.extend, issuesOf, revokesOf, bootstrapsOf, Admission.issue?,
      Admission.revoke?, Admission.bootstrap?]
  | issue row =>
    have hnone : ¬(state.issues.any fun r => r.cap = row.cap && (r.capgen = row.capgen || r.keyId = row.keyId)) = true := by
      rw [List.any_eq_true]
      rintro ⟨r, hr, hclash⟩
      simp only [Bool.and_eq_true, Bool.or_eq_true, decide_eq_true_eq] at hclash
      obtain ⟨hgen, hkey⟩ := hdistinct row (by simp [issuesOf_issue]) r hr hclash.1
      rcases hclash.2 with hsame | hsame
      · exact hgen hsame
      · exact hkey hsame
    unfold State.record
    simp only [if_neg hnone]
    simp [State.extend, issuesOf, revokesOf, bootstrapsOf, Admission.issue?, Admission.revoke?, Admission.bootstrap?]

theorem State.extend_extend (state : State) (row : Admission) (log : List Admission) (g g' : Guard) :
    (state.extend [row] g).extend log g' = state.extend (row :: log) g' := by
  have hcons : row :: log = [row] ++ log := rfl
  unfold State.extend
  rw [hcons, issuesOf_append, revokesOf_append, bootstrapsOf_append]
  simp only [List.append_assoc]

/-- Reading rows the gate wrote records them all. -/
theorem foldlM_push (state : State) {rs : List OutboxRecord} {log : List Admission} (hids : ∀ r ∈ rs, r.id < 2 ^ 63)
    (hlog : ∀ row ∈ log, row.WellFormed) (h : rs.map recordColumns = log.map Admission.columns)
    (hdistinct : (state.issues ++ issuesOf log).Pairwise Distinct) :
    ∃ guard, (∀ tables, guard.holds tables = (state.guard.holds tables && rs.all fun r => rowPresent r tables)) ∧
      (rs.map admissionColumns).foldlM State.push state = .ok (state.extend log guard) := by
  induction log generalizing state rs with
  | nil =>
    rw [List.map_nil, List.map_eq_nil_iff] at h
    rw [h]
    refine ⟨state.guard, fun tables => by simp, ?_⟩
    simp [State.extend, issuesOf, revokesOf, bootstrapsOf]
    rfl
  | cons row log ih =>
    cases rs with
    | nil => exact nomatch h
    | cons r rs =>
      rw [List.map_cons, List.map_cons, List.cons.injEq] at h
      have hcons : row :: log = [row] ++ log := rfl
      rw [hcons, issuesOf_append, ← List.append_assoc] at hdistinct
      obtain ⟨guard, hguard, hpush⟩ := push_columns state (hids r List.mem_cons_self)
        (hlog row List.mem_cons_self) h.1
      have hold : ∀ new ∈ issuesOf [row], ∀ old ∈ state.issues, Distinct old new := by
        intro new hnew old hold
        have hfront := (List.pairwise_append.1 hdistinct).1
        exact (List.pairwise_append.1 hfront).2.2 old hold new hnew
      rw [State.record_eq_ok hold] at hpush
      -- the state after this row, under its guard
      obtain ⟨guard', hguard', hfold⟩ := ih (state.extend [row] (guard (state.extend [row] state.guard)))
        (fun r hr => hids r (List.mem_cons_of_mem _ hr)) (fun row hrow => hlog row (List.mem_cons_of_mem _ hrow)) h.2
        hdistinct
      refine ⟨guard', fun tables => ?_, ?_⟩
      · have hfirst := hguard (state.extend [row] state.guard) tables
        have hrest := hguard' tables
        rw [hrest, List.all_cons, ← Bool.and_assoc]
        exact congrArg (· && _) hfirst
      · rw [List.map_cons, List.foldlM_cons, hpush]
        rw [State.extend_extend] at hfold
        exact hfold

/-- The state is the log by kind. -/
structure State.Reads (state : State) (log : List Admission) : Prop where
  issues : state.issues = issuesOf log
  revokes : state.revokes = revokesOf log
  bootstraps : state.bootstraps = bootstrapsOf log
  count : state.count = log.length

/-- A read within the bound is not refused, and its guard counts the rows it saw and finds them. -/
theorem ofRows_columns {tables : OutboxTables} (hordered : Ordered tables) (h : Admitted tables) {bounds : StoreBounds}
    (hbound : (logOf isAdmission tables).length ≤ bounds.maxReplayRows) :
    ∃ state, State.ofRows bounds ((logOf isAdmission tables).map admissionColumns) = .ok state ∧
      state.Reads (admissions tables) ∧ state.guard.holds tables = true ∧ ∀ t, state.guard.holds t = true →
        countIs isAdmission (logOf isAdmission tables).length t = true := by
  have hids : ∀ r ∈ logOf isAdmission tables, r.id < 2 ^ 63 := fun r hr =>
    (hordered.id_pos (List.mem_of_mem_filter hr)).2
  obtain ⟨guard, hguard, hfold⟩ := foldlM_push (State.start (logOf isAdmission tables).length) hids
    h.sound.wellFormed h.written h.sound.distinct
  refine ⟨(State.start (logOf isAdmission tables).length).extend (admissions tables) guard, ?_,
    ⟨rfl, rfl, rfl, h.length.symm⟩, ?_, fun t hholds => ?_⟩
  · unfold State.ofRows
    rw [List.length_map, if_neg (Nat.not_lt.2 hbound)]
    exact hfold
  · have hcount : (State.start (logOf isAdmission tables).length).guard.holds tables = true := decide_eq_true rfl
    have hall : ((logOf isAdmission tables).all fun r => rowPresent r tables) = true := by
      rw [List.all_eq_true]
      intro r hr
      unfold logOf at hr
      exact rowPresent_of_mem (List.mem_filter.1 hr).1
    refine (hguard tables).trans ?_
    rw [hcount, hall]
    rfl
  · have hboth : ((State.start (logOf isAdmission tables).length).guard.holds t &&
        (logOf isAdmission tables).all fun r => rowPresent r t) = true := (hguard t).symm.trans hholds
    rw [Bool.and_eq_true] at hboth
    exact hboth.1

/-! ### Checking -/

theorem newest_foldl (rows : List IssueRow) (best : Option IssueRow) :
    ∀ b, rows.foldl (fun best row =>
      match best with
      | none => some row
      | some b => if row.capgen < b.capgen then some b else some row) best = some b →
      (best = some b ∨ b ∈ rows) ∧ (∀ r ∈ rows, r.capgen ≤ b.capgen) ∧ ∀ o ∈ best, o.capgen ≤ b.capgen := by
  induction rows generalizing best with
  | nil =>
    rintro b rfl
    refine ⟨.inl rfl, (fun r hr => nomatch hr), ?_⟩
    rintro o ⟨⟩
    exact UInt32.le_refl _
  | cons row rows ih =>
    intro b h
    rw [List.foldl_cons] at h
    obtain ⟨hmem, hrows, hbest⟩ := ih _ b h
    cases best with
    | none =>
      have hrow := hbest row rfl
      refine ⟨.inr ?_, ?_, fun o ho => nomatch ho⟩
      · rcases hmem with hb | hb
        · cases hb
          exact List.mem_cons_self
        · exact List.mem_cons_of_mem _ hb
      · intro r hr
        rcases List.mem_cons.1 hr with rfl | hr
        · exact hrow
        · exact hrows r hr
    | some o =>
      by_cases hlt : row.capgen < o.capgen
      · simp only [if_pos hlt] at hmem hbest
        have ho := hbest o rfl
        refine ⟨?_, ?_, ?_⟩
        · rcases hmem with hb | hb
          · exact .inl hb
          · exact .inr (List.mem_cons_of_mem _ hb)
        · intro r hr
          rcases List.mem_cons.1 hr with rfl | hr
          · exact UInt32.le_trans (UInt32.le_of_lt hlt) ho
          · exact hrows r hr
        · rintro o' ⟨⟩
          exact ho
      · simp only [if_neg hlt] at hmem hbest
        have hrow := hbest row rfl
        refine ⟨.inr ?_, ?_, ?_⟩
        · rcases hmem with hb | hb
          · cases hb
            exact List.mem_cons_self
          · exact List.mem_cons_of_mem _ hb
        · intro r hr
          rcases List.mem_cons.1 hr with rfl | hr
          · exact hrow
          · exact hrows r hr
        · rintro o' ⟨⟩
          exact UInt32.le_trans (UInt32.not_lt.1 hlt) hrow

/-- The newest row is one of them, and of the largest generation. -/
theorem newest_eq_some {rows : List IssueRow} {b : IssueRow} (h : newest rows = some b) :
    b ∈ rows ∧ ∀ r ∈ rows, r.capgen ≤ b.capgen := by
  obtain ⟨hmem, hrows, -⟩ := newest_foldl rows none b h
  rcases hmem with hnone | hmem
  · exact nomatch hnone
  · exact ⟨hmem, hrows⟩

theorem newest_isSome {rows : List IssueRow} {row : IssueRow} (h : row ∈ rows) : ∃ b, newest rows = some b := by
  have hgo : ∀ (rows : List IssueRow) (o : IssueRow), ∃ b, rows.foldl (fun best row =>
      match best with
      | none => some row
      | some b => if row.capgen < b.capgen then some b else some row) (some o) = some b := by
    intro rows
    induction rows with
    | nil => exact fun o => ⟨o, rfl⟩
    | cons row rows ih =>
      intro o
      rw [List.foldl_cons]
      by_cases hlt : row.capgen < o.capgen
      · simp only [if_pos hlt]
        exact ih o
      · simp only [if_neg hlt]
        exact ih row
  cases rows with
  | nil => exact nomatch h
  | cons o rows => exact hgo rows o

/-- Two issue rows of one capability and one key are one row. -/
theorem Sound.row_unique {log : List Admission} (h : Sound log) {a b : IssueRow} (ha : a ∈ issuesOf log)
    (hb : b ∈ issuesOf log) (hcap : a.cap = b.cap) (hkey : a.keyId = b.keyId) : a = b :=
  List.inj_on_of_nodup_map (h.chains b.cap).keys (mem_chain.2 ⟨ha, hcap⟩) (mem_chain.2 ⟨hb, rfl⟩) hkey

theorem requireBootstrapped_eq_ok {log : List Admission} (h : Sound log) {state : State} (hstate : state.Reads log)
    (hne : log ≠ []) : state.requireBootstrapped = .ok () := by
  obtain ⟨marker, hmarker, huser, hissuer⟩ := (h.bootstrapped.resolve_left hne).marker
  obtain ⟨review, hreview, hcap⟩ := (h.bootstrapped.resolve_left hne).review
  obtain ⟨publish, hpublish, hcap'⟩ := (h.bootstrapped.resolve_left hne).publish
  have hcount : ¬ log.length = 0 := by
    rw [List.length_eq_zero_iff]
    exact hne
  unfold State.requireBootstrapped
  rw [hstate.count, hstate.bootstraps, hmarker, if_neg hcount]
  simp only
  rw [if_neg]
  rintro (hbad | hbad | hbad)
  · rw [huser] at hbad
    exact hbad rfl
  · rw [hissuer] at hbad
    exact hbad rfl
  · refine hbad ?_
    rw [hstate.issues]
    simp only [List.all_cons, List.all_nil, Bool.and_true, Bool.and_eq_true, List.any_eq_true, decide_eq_true_eq]
    exact ⟨⟨review, hreview, by rw [hcap]; rfl⟩, publish, hpublish, by rw [hcap']; rfl⟩

theorem isRevoked_eq_true {log : List Admission} {state : State} (hstate : state.Reads log) {row : IssueRow} :
    state.isRevoked row = true ↔ Revoked log row := by
  unfold State.isRevoked Revoked
  rw [hstate.revokes, List.any_eq_true]
  simp only [Bool.and_eq_true, decide_eq_true_eq]

theorem scopeMatches_eq_ok {scope : Option TrustedScope} {row : IssueRow} :
    State.scopeMatches scope row = .ok () ↔ ∀ s ∈ scope, s = row.scope := by
  unfold State.scopeMatches
  cases scope with
  | none => simp
  | some s =>
    by_cases hs : s = row.scope
    · simp [hs]
    · simp [hs]

/-- A credential passes the checks exactly when the log accepts it in its scope, in either order of diagnostics. -/
theorem matching_eq_ok {log : List Admission} (h : Sound log) {state : State} (hstate : state.Reads log)
    {cred : Credential} {scope : Option TrustedScope} {rotating : Bool} {row : IssueRow} :
    state.matching cred scope rotating = .ok row ↔ Accepted log cred row ∧ ∀ s ∈ scope, s = row.scope := by
  constructor
  · intro hmatch
    unfold State.matching at hmatch
    obtain ⟨-, -, hmatch⟩ := Result.bind_eq_ok.1 hmatch
    obtain ⟨latest, hlatest, hmatch⟩ := Result.bind_eq_ok.1 hmatch
    split at hmatch
    · exact nomatch hmatch
    rename_i found hfound
    split at hmatch
    · exact nomatch hmatch
    split at hmatch
    · exact nomatch hmatch
    split at hmatch
    · exact nomatch hmatch
    rename_i hfp
    obtain ⟨_, hscope, hmatch⟩ := Result.bind_eq_ok.1 hmatch
    split at hmatch
    · exact nomatch hmatch
    split at hmatch
    · exact nomatch hmatch
    rename_i hrevoked
    split at hmatch
    · exact nomatch hmatch
    rename_i hgen
    cases hmatch
    have hmem := List.mem_of_find?_eq_some hfound
    have hnames := List.find?_some hfound
    simp only [Bool.and_eq_true, decide_eq_true_eq] at hnames
    rw [hstate.issues] at hmem
    unfold State.latest at hlatest
    split at hlatest
    · rename_i newer hnewest
      cases hlatest
      obtain ⟨-, hmax⟩ := newest_eq_some hnewest
      have haccepted : Accepted log cred row := {
        issued := hmem
        cap := hnames.1
        key := hnames.2
        fingerprint := not_not.1 hfp
        newest := by
          intro r hr hcap
          rw [not_not.1 hgen]
          refine hmax r ?_
          rw [List.mem_filter, decide_eq_true_eq, hstate.issues]
          exact ⟨hr, hcap.trans hnames.1⟩
        unrevoked := fun hrev => hrevoked ((isRevoked_eq_true hstate).2 hrev) }
      exact ⟨haccepted, scopeMatches_eq_ok.1 hscope⟩
    · exact nomatch hlatest
  · rintro ⟨haccepted, hscope⟩
    have hne : log ≠ [] := by
      rintro rfl
      exact nomatch haccepted.issued
    have hmem : row ∈ state.issues.filter fun r => r.cap = cred.capability := by
      rw [List.mem_filter, decide_eq_true_eq, hstate.issues]
      exact ⟨haccepted.issued, haccepted.cap⟩
    obtain ⟨latest, hnewest⟩ := newest_isSome hmem
    obtain ⟨hlatest, hmax⟩ := newest_eq_some hnewest
    have hgen : row.capgen = latest.capgen := by
      rw [List.mem_filter, decide_eq_true_eq, hstate.issues] at hlatest
      refine UInt32.le_antisymm (hmax row hmem) ?_
      exact haccepted.newest latest hlatest.1 (hlatest.2.trans haccepted.cap.symm)
    have hfound : (state.issues.find? fun r => r.cap = cred.capability && r.keyId = cred.keyId) = some row := by
      cases hfind : state.issues.find? fun r => r.cap = cred.capability && r.keyId = cred.keyId with
      | none =>
        have hno := List.find?_eq_none.1 hfind row (by rw [hstate.issues]; exact haccepted.issued)
        simp [haccepted.cap, haccepted.key] at hno
      | some other =>
        have hother := List.mem_of_find?_eq_some hfind
        have hnames := List.find?_some hfind
        simp only [Bool.and_eq_true, decide_eq_true_eq] at hnames
        rw [hstate.issues] at hother
        rw [h.row_unique hother haccepted.issued (hnames.1.trans haccepted.cap.symm)
          (hnames.2.trans haccepted.key.symm)]
    obtain ⟨hissuer, huser⟩ := h.frozen row haccepted.issued
    have hrevoked : ¬ state.isRevoked row = true := fun hrev => haccepted.unrevoked ((isRevoked_eq_true hstate).1 hrev)
    have hissuer' : ¬ row.issuer.text ≠ bootstrapIssuerText := by
      rw [hissuer]
      exact not_not.2 rfl
    have huser' : ¬ row.user.text ≠ syntheticUserText := by
      rw [huser]
      exact not_not.2 rfl
    have hstale : ¬(rotating = true ∧ row.capgen ≠ latest.capgen) := fun hbad => hbad.2 hgen
    unfold State.matching State.latest
    simp only [requireBootstrapped_eq_ok h hstate hne, Result.ok_bind, hnewest, hfound]
    rw [if_neg hissuer', if_neg huser', if_neg (not_not.2 haccepted.fingerprint), scopeMatches_eq_ok.2 hscope,
      Result.ok_bind, if_neg hstale, if_neg hrevoked, if_neg (not_not.2 hgen)]

end Verdant.Access
