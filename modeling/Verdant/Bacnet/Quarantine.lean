import Verdant.Domain.Types
import Verdant.Work.Accounting

/-!
# The discovery quarantine

Advertisements are kept as candidates by realm and instance, conflicting ones side by side, under the shared budget.  The
table is what the accepted advertisements make of it, one after another (`Held`): a refused batch has applied those before
the refused one.
-/

namespace Verdant.Bacnet

open Work

inductive QuarantineError where
  | quarantineFull
  | budget
  deriving DecidableEq, Repr

/-- In nanoseconds. -/
def candidateTtl : Nat := 30000000000
def maxCandidates : Nat := 16
def maxConflicts : Nat := 4

structure DirectTarget where
  realm : InstalledId
  mac : List UInt8
  deriving DecidableEq

structure Advertisement where
  target : DirectTarget
  inst : Nat
  maxApdu : Nat
  segmentation : Nat
  vendor : Nat
  deriving DecidableEq

def Advertisement.key (advertisement : Advertisement) : InstalledId × Nat :=
  (advertisement.target.realm, advertisement.inst)

/-- A candidate has a first advertisement. -/
structure Candidate where
  first : Advertisement
  more : List Advertisement
  lastReceipt : Nat
  expired : Bool
  deriving DecidableEq

def Candidate.advertisements (candidate : Candidate) : List Advertisement := candidate.first :: candidate.more

def Candidate.key (candidate : Candidate) : InstalledId × Nat := candidate.first.key

structure Reservation where
  running : Bool
  workClass : WorkClass
  deriving DecidableEq

structure HeldCandidate where
  candidate : Candidate
  reservation : Reservation
  deriving DecidableEq

structure Quarantine where
  budget : Budget
  entries : List HeldCandidate

/-! ### Operations -/

def Candidate.observe (candidate : Candidate) (advertisement : Advertisement) (now : Nat) :
    Except QuarantineError Candidate :=
  if advertisement ∈ candidate.advertisements then .ok { candidate with lastReceipt := now, expired := false }
  else if candidate.advertisements.length = maxConflicts then .error .quarantineFull
  else .ok { candidate with more := candidate.more ++ [advertisement], lastReceipt := now, expired := false }

/-- The entry of the advertisement, when there is one. -/
def observeEntry (advertisement : Advertisement) (now : Nat) :
    List HeldCandidate → Option (Except QuarantineError (List HeldCandidate))
  | [] => none
  | entry :: rest =>
    if entry.candidate.key = advertisement.key then
      some ((entry.candidate.observe advertisement now).map fun candidate => { entry with candidate } :: rest)
    else (observeEntry advertisement now rest).map fun result => result.map (entry :: ·)

namespace Quarantine

def observe (q : Quarantine) (advertisement : Advertisement) (now : Nat) : Quarantine × Except QuarantineError Unit :=
  match observeEntry advertisement now q.entries with
  | some (.ok entries) => ({ q with entries }, .ok ())
  | some (.error error) => (q, .error error)
  | none =>
    if q.entries.length = maxCandidates then (q, .error .quarantineFull)
    else match q.budget.reserve .optionalDiscovery false with
      | .error _ => (q, .error .budget)
      | .ok budget =>
        (⟨budget, q.entries ++ [⟨⟨advertisement, [], now, false⟩, ⟨false, .optionalDiscovery⟩⟩]⟩, .ok ())

def expire (now : Nat) (candidate : Candidate) : Candidate :=
  { candidate with expired := candidateTtl ≤ now - candidate.lastReceipt }

def snapshot (q : Quarantine) (now : Nat) : Quarantine × List Candidate :=
  let entries := q.entries.map fun entry => { entry with candidate := expire now entry.candidate }
  ({ q with entries }, entries.map HeldCandidate.candidate)

/-- The reservations are dropped with their entries. -/
def clear (q : Quarantine) : Quarantine where
  budget := q.entries.foldl (fun budget entry => budget.release entry.reservation.running entry.reservation.workClass) q.budget
  entries := []

/-- The advertisements of one batch, up to the first refusal. -/
def retainCandidates (q : Quarantine) (receipt : Nat) : List Advertisement → Quarantine × Except QuarantineError Unit
  | [] => (q, .ok ())
  | advertisement :: rest =>
    match q.observe advertisement receipt with
    | (q, .error error) => (q, .error error)
    | (q, .ok ()) => q.retainCandidates receipt rest

end Quarantine

/-! ### First-seen order -/

/-- Each element once, where it was first. -/
def firstSeen {α : Type} [DecidableEq α] (l : List α) : List α := l.reverse.dedup.reverse

section FirstSeen

variable {α : Type} [DecidableEq α]

theorem mem_firstSeen {a : α} {l : List α} : a ∈ firstSeen l ↔ a ∈ l := by
  unfold firstSeen
  rw [List.mem_reverse, List.mem_dedup, List.mem_reverse]

theorem nodup_firstSeen (l : List α) : (firstSeen l).Nodup := List.nodup_reverse.2 (List.nodup_dedup _)

theorem firstSeen_concat_of_mem {a : α} {l : List α} (h : a ∈ l) : firstSeen (l ++ [a]) = firstSeen l := by
  unfold firstSeen
  rw [List.reverse_append, List.reverse_singleton, List.singleton_append, List.dedup_cons_of_mem (List.mem_reverse.2 h)]

theorem firstSeen_concat_of_notMem {a : α} {l : List α} (h : a ∉ l) : firstSeen (l ++ [a]) = firstSeen l ++ [a] := by
  unfold firstSeen
  rw [List.reverse_append, List.reverse_singleton, List.singleton_append,
    List.dedup_cons_of_notMem fun hmem => h (List.mem_reverse.1 hmem), List.reverse_cons]

end FirstSeen

/-! ### What a table holds -/

/-- Accepted advertisements with their receipt times, since the last clearing. -/
abbrev Log := List (Advertisement × Nat)

def Log.about (log : Log) (key : InstalledId × Nat) : Log := log.filter fun item => item.1.key = key

theorem Log.about_concat_same (log : Log) (advertisement : Advertisement) (receipt : Nat) :
    Log.about (log ++ [(advertisement, receipt)]) advertisement.key = log.about advertisement.key ++ [(advertisement, receipt)] := by
  unfold Log.about
  rw [List.filter_append, List.filter_cons_of_pos (by simp), List.filter_nil]

theorem Log.about_concat_other (log : Log) {advertisement : Advertisement} (receipt : Nat) {key : InstalledId × Nat}
    (h : advertisement.key ≠ key) : Log.about (log ++ [(advertisement, receipt)]) key = log.about key := by
  unfold Log.about
  rw [List.filter_append, List.filter_cons_of_neg (by simpa using h), List.filter_nil, List.append_nil]

/-- A candidate is what the log says about its key. -/
structure Candidate.HeldBy (candidate : Candidate) (log : Log) : Prop where
  seen : candidate.advertisements = firstSeen ((log.about candidate.key).map Prod.fst)
  last : ((log.about candidate.key).map Prod.snd).getLast? = some candidate.lastReceipt
  few : candidate.advertisements.length ≤ maxConflicts

/-- The entries are those of the log. -/
structure Held (entries : List HeldCandidate) (log : Log) : Prop where
  keys : entries.map (fun entry => entry.candidate.key) = firstSeen (log.map fun item => item.1.key)
  candidates : ∀ entry ∈ entries, entry.candidate.HeldBy log
  few : entries.length ≤ maxCandidates
  reserved : ∀ entry ∈ entries, entry.reservation = ⟨false, .optionalDiscovery⟩

theorem Candidate.observe_key {candidate after : Candidate} {advertisement : Advertisement} {now : Nat}
    (h : candidate.observe advertisement now = .ok after) : after.first = candidate.first ∧
      candidate.advertisements <+: after.advertisements := by
  unfold Candidate.observe at h
  split at h
  · obtain rfl := Except.ok.inj h
    exact ⟨rfl, List.prefix_refl _⟩
  · split at h
    · exact nomatch h
    · obtain rfl := Except.ok.inj h
      exact ⟨rfl, List.prefix_append (candidate.first :: candidate.more) [advertisement]⟩

/-- One more accepted advertisement. -/
theorem Candidate.HeldBy.observe {candidate after : Candidate} {log : Log} {advertisement : Advertisement} {now : Nat}
    (h : candidate.HeldBy log) (hkey : candidate.key = advertisement.key)
    (hobserve : candidate.observe advertisement now = .ok after) : after.HeldBy (log ++ [(advertisement, now)]) := by
  have hafter : after.key = advertisement.key := by
    rw [← hkey]
    exact congrArg Advertisement.key (Candidate.observe_key hobserve).1
  have hseen := h.seen
  rw [hkey] at hseen
  have habout := Log.about_concat_same log advertisement now
  unfold Candidate.observe at hobserve
  constructor
  · rw [hafter, habout, List.map_append, List.map_singleton]
    split at hobserve
    · rename_i hmem
      obtain rfl := Except.ok.inj hobserve
      rw [hseen, mem_firstSeen] at hmem
      rw [firstSeen_concat_of_mem hmem]
      exact hseen
    · rename_i hfresh
      split at hobserve
      · exact nomatch hobserve
      · obtain rfl := Except.ok.inj hobserve
        have hnew : advertisement ∉ (log.about advertisement.key).map Prod.fst := by
          rw [hseen, mem_firstSeen] at hfresh
          exact hfresh
        rw [firstSeen_concat_of_notMem hnew, ← hseen]
        rfl
  · rw [hafter, habout, List.map_append, List.map_singleton, List.getLast?_append, List.getLast?_singleton]
    split at hobserve
    · obtain rfl := Except.ok.inj hobserve
      rfl
    · split at hobserve
      · exact nomatch hobserve
      · obtain rfl := Except.ok.inj hobserve
        rfl
  · have hfew := h.few
    split at hobserve
    · obtain rfl := Except.ok.inj hobserve
      exact hfew
    · split at hobserve
      · exact nomatch hobserve
      · rename_i hroom
        obtain rfl := Except.ok.inj hobserve
        have hlength : (candidate.first :: (candidate.more ++ [advertisement])).length =
            candidate.advertisements.length + 1 := by
          rw [List.length_cons, List.length_append, List.length_singleton]
          rfl
        show (candidate.first :: (candidate.more ++ [advertisement])).length ≤ maxConflicts
        rw [hlength]
        omega

/-- Nothing about another key changes. -/
theorem Candidate.HeldBy.other {candidate : Candidate} {log : Log} {advertisement : Advertisement} {now : Nat}
    (h : candidate.HeldBy log) (hkey : advertisement.key ≠ candidate.key) : candidate.HeldBy (log ++ [(advertisement, now)]) := by
  have habout := Log.about_concat_other log now hkey
  constructor
  · rw [habout]
    exact h.seen
  · rw [habout]
    exact h.last
  · exact h.few

/-- The entry of an advertisement, among the others. -/
theorem observeEntry_eq_some {advertisement : Advertisement} {now : Nat} {entries : List HeldCandidate}
    {result : Except QuarantineError (List HeldCandidate)} (h : observeEntry advertisement now entries = some result) :
    ∃ front entry back, entries = front ++ entry :: back ∧ entry.candidate.key = advertisement.key ∧
      result = (entry.candidate.observe advertisement now).map fun candidate => front ++ { entry with candidate } :: back := by
  induction entries generalizing result with
  | nil => exact nomatch h
  | cons entry rest ih =>
    rw [observeEntry] at h
    split at h
    · rename_i hkey
      exact ⟨[], entry, rest, rfl, hkey, (Option.some.inj h).symm⟩
    · obtain ⟨inner, hinner, rfl⟩ := Option.map_eq_some_iff.1 h
      obtain ⟨front, held, back, rfl, hkey, rfl⟩ := ih hinner
      refine ⟨entry :: front, held, back, rfl, hkey, ?_⟩
      cases held.candidate.observe advertisement now with
      | error error => rfl
      | ok candidate => rfl

theorem observeEntry_eq_none {advertisement : Advertisement} {now : Nat} {entries : List HeldCandidate}
    (h : observeEntry advertisement now entries = none) : ∀ entry ∈ entries, entry.candidate.key ≠ advertisement.key := by
  induction entries with
  | nil => exact fun entry hentry => (nomatch hentry)
  | cons first rest ih =>
    rw [observeEntry] at h
    split at h
    · exact nomatch h
    · rename_i hkey
      intro entry hentry
      rcases List.mem_cons.1 hentry with rfl | hrest
      · exact hkey
      · exact ih (Option.map_eq_none_iff.1 h) entry hrest

/-- What one accepted advertisement makes of the table: an entry has it now, or there is one more entry. -/
inductive Observed (q : Quarantine) (advertisement : Advertisement) (now : Nat) : Quarantine → Prop where
  | refreshed {front back : List HeldCandidate} {entry : HeldCandidate} {candidate : Candidate}
      (hentries : q.entries = front ++ entry :: back) (hkey : entry.candidate.key = advertisement.key)
      (hcandidate : entry.candidate.observe advertisement now = .ok candidate) :
      Observed q advertisement now { q with entries := front ++ { entry with candidate } :: back }
  | added (hnew : ∀ entry ∈ q.entries, entry.candidate.key ≠ advertisement.key) (hroom : q.entries.length ≠ maxCandidates)
      (hfree : q.budget.used false .optionalDiscovery < slots false .optionalDiscovery) :
      Observed q advertisement now ⟨q.budget.take false .optionalDiscovery,
        q.entries ++ [⟨⟨advertisement, [], now, false⟩, ⟨false, .optionalDiscovery⟩⟩]⟩

/-- A refused advertisement changes nothing; an accepted one is observed. -/
theorem observe_cases (q : Quarantine) (advertisement : Advertisement) (now : Nat) :
    (∃ error, q.observe advertisement now = (q, .error error)) ∨
      ∃ after, q.observe advertisement now = (after, .ok ()) ∧ Observed q advertisement now after := by
  unfold Quarantine.observe
  cases hfound : observeEntry advertisement now q.entries with
  | some result =>
    obtain ⟨front, entry, back, hentries, hkey, rfl⟩ := observeEntry_eq_some hfound
    cases hcandidate : entry.candidate.observe advertisement now with
    | error error => exact .inl ⟨error, rfl⟩
    | ok candidate => exact .inr ⟨_, rfl, .refreshed hentries hkey hcandidate⟩
  | none =>
    simp only
    by_cases hfull : q.entries.length = maxCandidates
    · rw [if_pos hfull]
      exact .inl ⟨_, rfl⟩
    · rw [if_neg hfull]
      cases hreserve : q.budget.reserve .optionalDiscovery false with
      | error error => exact .inl ⟨_, rfl⟩
      | ok budget =>
        obtain ⟨hfree, rfl⟩ := Budget.reserve_ok hreserve
        exact .inr ⟨_, rfl, .added (observeEntry_eq_none hfound) hfull hfree⟩

theorem Held.nodup {entries : List HeldCandidate} {log : Log} (h : Held entries log) :
    (entries.map fun entry => entry.candidate.key).Nodup := by
  rw [h.keys]
  exact nodup_firstSeen _

theorem Held.observed {q after : Quarantine} {log : Log} {advertisement : Advertisement} {now : Nat}
    (h : Held q.entries log) (hobserved : Observed q advertisement now after) :
    Held after.entries (log ++ [(advertisement, now)]) := by
  cases hobserved with
  | @refreshed front back entry candidate hentries hkey hcandidate =>
    have hfirst := (Candidate.observe_key hcandidate).1
    have hsame : candidate.key = entry.candidate.key := congrArg Advertisement.key hfirst
    have hnodup := h.nodup
    rw [hentries, List.map_append, List.map_cons, List.nodup_middle, List.nodup_cons, List.mem_append] at hnodup
    have hmem : advertisement.key ∈ log.map fun item => item.1.key := by
      rw [← mem_firstSeen, ← h.keys, hentries, ← hkey]
      exact List.mem_map_of_mem (List.mem_append_right _ List.mem_cons_self)
    constructor
    · have hlog : (log ++ [(advertisement, now)]).map (fun item => item.1.key) =
          log.map (fun item => item.1.key) ++ [advertisement.key] := List.map_append
      rw [hlog, firstSeen_concat_of_mem hmem, ← h.keys, hentries]
      simp only [List.map_append, List.map_cons, hsame]
    · intro other hother
      have hrest : ∀ other ∈ front ++ back, advertisement.key ≠ other.candidate.key := by
        intro other hother heq
        rw [← hkey] at heq
        refine hnodup.1 ?_
        rw [heq]
        rcases List.mem_append.1 hother with hfront | hback
        · exact .inl (List.mem_map_of_mem hfront)
        · exact .inr (List.mem_map_of_mem hback)
      rcases List.mem_append.1 hother with hfront | hother
      · exact (h.candidates other (by rw [hentries]; exact List.mem_append_left _ hfront)).other
          (hrest other (List.mem_append_left _ hfront))
      · rcases List.mem_cons.1 hother with rfl | hback
        · exact (h.candidates entry (by rw [hentries]; exact List.mem_append_right _ List.mem_cons_self)).observe hkey
            hcandidate
        · exact (h.candidates other (by rw [hentries]; exact List.mem_append_right _ (List.mem_cons_of_mem _ hback))).other
            (hrest other (List.mem_append_right _ hback))
    · have hfew := h.few
      rw [hentries] at hfew
      simpa using hfew
    · intro other hother
      have hreserved := h.reserved
      rw [hentries] at hreserved
      rcases List.mem_append.1 hother with hfront | hother
      · exact hreserved other (List.mem_append_left _ hfront)
      · rcases List.mem_cons.1 hother with rfl | hback
        · exact hreserved entry (List.mem_append_right _ List.mem_cons_self)
        · exact hreserved other (List.mem_append_right _ (List.mem_cons_of_mem _ hback))
  | added hnew hroom hfree =>
    have hfresh : advertisement.key ∉ log.map fun item => item.1.key := by
      rw [← mem_firstSeen, ← h.keys, List.mem_map]
      rintro ⟨entry, hentry, hkey⟩
      exact hnew entry hentry hkey
    have hnone : log.about advertisement.key = [] := by
      rw [Log.about, List.filter_eq_nil_iff]
      intro item hitem hkey
      exact hfresh (List.mem_map.2 ⟨item, hitem, of_decide_eq_true hkey⟩)
    constructor
    · rw [List.map_append, List.map_append, List.map_singleton, List.map_singleton, firstSeen_concat_of_notMem hfresh, h.keys]
      rfl
    · intro entry hentry
      rcases List.mem_append.1 hentry with hold | hadded
      · exact (h.candidates entry hold).other (hnew entry hold).symm
      · obtain rfl := List.mem_singleton.1 hadded
        have habout := Log.about_concat_same log advertisement now
        rw [hnone, List.nil_append] at habout
        constructor
        · show [advertisement] = firstSeen ((Log.about (log ++ [(advertisement, now)]) advertisement.key).map Prod.fst)
          rw [habout]
          rfl
        · show ((Log.about (log ++ [(advertisement, now)]) advertisement.key).map Prod.snd).getLast? = some now
          rw [habout]
          rfl
        · exact (by decide : 1 ≤ maxConflicts)
    · have hfew := h.few
      rw [List.length_append, List.length_singleton]
      omega
    · intro entry hentry
      rcases List.mem_append.1 hentry with hold | hadded
      · exact h.reserved entry hold
      · obtain rfl := List.mem_singleton.1 hadded
        rfl

/-! ### Batches -/

/-- A batch has applied its advertisements up to the first that is refused, and that one has changed nothing. -/
theorem retainCandidates_cases (q : Quarantine) (receipt : Nat) (batch : List Advertisement) :
    (∃ after, q.retainCandidates receipt batch = (after, .ok ())) ∨
      ∃ front advertisement back after error, batch = front ++ advertisement :: back ∧
        q.retainCandidates receipt batch = (after, .error error) ∧ q.retainCandidates receipt front = (after, .ok ()) ∧
          after.observe advertisement receipt = (after, .error error) := by
  induction batch generalizing q with
  | nil => exact .inl ⟨q, rfl⟩
  | cons advertisement rest ih =>
    rcases observe_cases q advertisement receipt with ⟨error, herror⟩ | ⟨next, hnext, -⟩
    · refine .inr ⟨[], advertisement, rest, q, error, rfl, ?_, rfl, herror⟩
      rw [Quarantine.retainCandidates, herror]
    · have hstep : ∀ batch, q.retainCandidates receipt (advertisement :: batch) = next.retainCandidates receipt batch := by
        intro batch
        rw [Quarantine.retainCandidates, hnext]
      rcases ih next with ⟨after, hafter⟩ | ⟨front, refused, back, after, error, rfl, hbatch, hfront, hrefused⟩
      · exact .inl ⟨after, (hstep rest).trans hafter⟩
      · exact .inr ⟨advertisement :: front, refused, back, after, error, rfl, (hstep _).trans hbatch,
          (hstep front).trans hfront, hrefused⟩

/-- The advertisements of a batch that are applied. -/
def Quarantine.applied (q : Quarantine) (receipt : Nat) : List Advertisement → List Advertisement
  | [] => []
  | advertisement :: rest =>
    match q.observe advertisement receipt with
    | (_, .error _) => []
    | (q, .ok ()) => advertisement :: q.applied receipt rest

/-- What holds of every accepted advertisement holds of a batch. -/
theorem retainCandidates_induction {P : Quarantine → Log → Prop}
    (hobserved : ∀ {q after : Quarantine} {log : Log} {advertisement : Advertisement} {now : Nat}, P q log →
      Observed q advertisement now after → P after (log ++ [(advertisement, now)]))
    (q : Quarantine) (log : Log) (receipt : Nat) (batch : List Advertisement) (h : P q log) :
    P (q.retainCandidates receipt batch).1 (log ++ (q.applied receipt batch).map fun advertisement => (advertisement, receipt)) := by
  induction batch generalizing q log with
  | nil =>
    rw [Quarantine.applied, List.map_nil, List.append_nil]
    exact h
  | cons advertisement rest ih =>
    rcases observe_cases q advertisement receipt with ⟨error, herror⟩ | ⟨next, hnext, hstep⟩
    · rw [Quarantine.retainCandidates, Quarantine.applied, herror, List.map_nil, List.append_nil]
      exact h
    · rw [Quarantine.retainCandidates, Quarantine.applied, hnext, List.map_cons, List.append_cons]
      exact ih next _ (hobserved h hstep)

/-! ### Runs -/

/-- The table among the other holders of the budget, with the log of what it was made of. -/
structure Table where
  quarantine : Quarantine
  others : List (Bool × WorkClass)
  log : Log

inductive Step where
  | retain (receipt : Nat) (batch : List Advertisement)
  | snapshot (now : Nat)
  | clear
  | acquire (running : Bool) (workClass : WorkClass)
  | release (index : Nat)

namespace Table

def start : Table := ⟨⟨.empty, []⟩, [], []⟩

def acquire (table : Table) (running : Bool) (workClass : WorkClass) : Table :=
  match table.quarantine.budget.reserve workClass running with
  | .error _ => table
  | .ok budget =>
    ⟨{ table.quarantine with budget }, table.others ++ [(running, workClass)], table.log⟩

def release (table : Table) (index : Nat) : Table :=
  match table.others[index]? with
  | none => table
  | some (running, workClass) =>
    ⟨{ table.quarantine with budget := table.quarantine.budget.release running workClass },
      table.others.eraseIdx index, table.log⟩

def step (table : Table) : Step → Table
  | .retain receipt batch =>
    ⟨(table.quarantine.retainCandidates receipt batch).1, table.others,
      table.log ++ (table.quarantine.applied receipt batch).map fun advertisement => (advertisement, receipt)⟩
  | .snapshot now => { table with quarantine := (table.quarantine.snapshot now).1 }
  | .clear => ⟨table.quarantine.clear, table.others, []⟩
  | .acquire running workClass => table.acquire running workClass
  | .release index => table.release index

def run (table : Table) (steps : List Step) : Table := steps.foldl step table

theorem run_append (table : Table) (steps more : List Step) : table.run (steps ++ more) = (table.run steps).run more :=
  List.foldl_append

end Table

def reservations (entries : List HeldCandidate) : List (Bool × WorkClass) :=
  entries.map fun entry => (entry.reservation.running, entry.reservation.workClass)

/-- Every counted slot has one holder. -/
def Accounts (budget : Budget) (others : List (Bool × WorkClass)) (entries : List HeldCandidate) : Prop :=
  ∀ running workClass, budget.used running workClass =
    others.count (running, workClass) + (reservations entries).count (running, workClass)

theorem Accounts.observed {q after : Quarantine} {others : List (Bool × WorkClass)} {advertisement : Advertisement}
    {now : Nat} (h : Accounts q.budget others q.entries) (hobserved : Observed q advertisement now after) :
    Accounts after.budget others after.entries := by
  intro running workClass
  have hcount := h running workClass
  cases hobserved with
  | refreshed hentries hkey hcandidate =>
    rw [hentries] at hcount
    simpa [reservations] using hcount
  | added hnew hroom hfree =>
    rw [Budget.take_used, hcount]
    unfold reservations
    rw [List.map_append, List.count_append, List.map_singleton, List.count_singleton]
    simp only [beq_iff_eq]
    rw [Nat.add_assoc]

theorem used_dropAll (entries : List HeldCandidate) (budget : Budget) (running : Bool) (workClass : WorkClass) :
    (entries.foldl (fun budget entry => budget.release entry.reservation.running entry.reservation.workClass) budget).used
      running workClass = budget.used running workClass - (reservations entries).count (running, workClass) := by
  induction entries generalizing budget with
  | nil => rfl
  | cons entry rest ih =>
    have hfirst : reservations (entry :: rest) =
        (entry.reservation.running, entry.reservation.workClass) :: reservations rest := rfl
    rw [List.foldl_cons, ih, Budget.release_used, hfirst, List.count_cons]
    simp only [beq_iff_eq]
    omega

/-- The invariant of a run. -/
structure Sound (table : Table) : Prop where
  held : Held table.quarantine.entries table.log
  accounts : Accounts table.quarantine.budget table.others table.quarantine.entries

theorem sound_start : Sound Table.start where
  held := {
    keys := rfl
    candidates := fun _ hentry => (nomatch hentry)
    few := Nat.zero_le _
    reserved := fun _ hentry => (nomatch hentry) }
  accounts := fun _ _ => rfl

theorem Held.snapshot {q : Quarantine} {log : Log} (h : Held q.entries log) (now : Nat) :
    Held (q.snapshot now).1.entries log := by
  constructor
  · rw [← h.keys]
    exact List.map_map
  · intro entry hentry
    obtain ⟨old, hold, rfl⟩ := List.mem_map.1 hentry
    exact ⟨(h.candidates old hold).seen, (h.candidates old hold).last, (h.candidates old hold).few⟩
  · exact (List.length_map _).le.trans h.few
  · intro entry hentry
    obtain ⟨old, hold, rfl⟩ := List.mem_map.1 hentry
    exact h.reserved old hold

theorem Sound.acquire {table : Table} (h : Sound table) (running : Bool) (workClass : WorkClass) :
    Sound (table.acquire running workClass) := by
  unfold Table.acquire
  cases hreserve : table.quarantine.budget.reserve workClass running with
  | error error => exact h
  | ok budget =>
    obtain ⟨-, rfl⟩ := Budget.reserve_ok hreserve
    refine ⟨h.held, fun r c => ?_⟩
    have hcount := h.accounts r c
    show (table.quarantine.budget.take running workClass).used r c =
      (table.others ++ [(running, workClass)]).count (r, c) + (reservations table.quarantine.entries).count (r, c)
    rw [Budget.take_used, hcount, List.count_append, count_single]
    omega

theorem Sound.release {table : Table} (h : Sound table) (index : Nat) : Sound (table.release index) := by
  unfold Table.release
  cases hindex : table.others[index]? with
  | none => exact h
  | some holder =>
    obtain ⟨running, workClass⟩ := holder
    refine ⟨h.held, fun r c => ?_⟩
    have hcount := h.accounts r c
    have herase := (perm_eraseIdx hindex).count_eq (r, c)
    rw [List.count_cons] at herase
    simp only [beq_iff_eq] at herase
    show (table.quarantine.budget.release running workClass).used r c =
      (table.others.eraseIdx index).count (r, c) + (reservations table.quarantine.entries).count (r, c)
    rw [Budget.release_used, hcount, herase]
    omega

theorem Sound.step {table : Table} (h : Sound table) (step : Step) : Sound (table.step step) := by
  cases step with
  | retain receipt batch =>
    refine retainCandidates_induction (P := fun q log => Sound ⟨q, table.others, log⟩) ?_ _ _ receipt batch h
    intro q after log advertisement now hbefore hobserved
    exact ⟨hbefore.held.observed hobserved, hbefore.accounts.observed hobserved⟩
  | snapshot now =>
    refine ⟨h.held.snapshot now, fun running workClass => ?_⟩
    have hsame : reservations (table.quarantine.snapshot now).1.entries = reservations table.quarantine.entries := List.map_map
    show _ = _ + (reservations (table.quarantine.snapshot now).1.entries).count (running, workClass)
    rw [hsame]
    exact h.accounts running workClass
  | clear =>
    refine ⟨sound_start.held, fun running workClass => ?_⟩
    have hcount := h.accounts running workClass
    have hdropped := used_dropAll table.quarantine.entries table.quarantine.budget running workClass
    show (table.quarantine.clear).budget.used running workClass = table.others.count (running, workClass) + 0
    rw [Quarantine.clear, hdropped, hcount]
    omega
  | acquire running workClass => exact h.acquire running workClass
  | release index => exact h.release index

theorem Sound.run {table : Table} (h : Sound table) (steps : List Step) : Sound (table.run steps) := by
  induction steps generalizing table with
  | nil => exact h
  | cons step steps ih => exact ih (h.step step)

/-! ### What stays -/

/-- Every entry is still there, and what it held is in front. -/
def Extends (old new : List HeldCandidate) : Prop :=
  ∀ (i : Nat) (entry : HeldCandidate), old[i]? = some entry → ∃ entry', new[i]? = some entry' ∧
    entry'.candidate.key = entry.candidate.key ∧ entry.candidate.advertisements <+: entry'.candidate.advertisements

theorem Extends.refl (entries : List HeldCandidate) : Extends entries entries :=
  fun _ entry hentry => ⟨entry, hentry, rfl, List.prefix_refl _⟩

theorem Extends.trans {a b c : List HeldCandidate} (h : Extends a b) (h' : Extends b c) : Extends a c := by
  intro i entry hentry
  obtain ⟨middle, hmiddle, hkey, hprefix⟩ := h i entry hentry
  obtain ⟨last, hlast, hkey', hprefix'⟩ := h' i middle hmiddle
  exact ⟨last, hlast, hkey'.trans hkey, hprefix.trans hprefix'⟩

theorem Observed.extends {q after : Quarantine} {advertisement : Advertisement} {now : Nat}
    (h : Observed q advertisement now after) : Extends q.entries after.entries := by
  intro i held hheld
  cases h with
  | @refreshed front back entry candidate hentries hkey hcandidate =>
    obtain ⟨hfirst, hprefix⟩ := Candidate.observe_key hcandidate
    rw [hentries] at hheld
    rcases Nat.lt_trichotomy i front.length with hbefore | rfl | hafter
    · rw [List.getElem?_append_left hbefore] at hheld
      exact ⟨held, by rw [List.getElem?_append_left hbefore]; exact hheld, rfl, List.prefix_refl _⟩
    · rw [List.getElem?_append_right (Nat.le_refl _), Nat.sub_self] at hheld
      obtain rfl := Option.some.inj hheld
      refine ⟨{ entry with candidate }, ?_, congrArg Advertisement.key hfirst, hprefix⟩
      rw [List.getElem?_append_right (Nat.le_refl _), Nat.sub_self]
      rfl
    · obtain ⟨n, rfl⟩ := Nat.exists_eq_add_of_lt hafter
      have hplace : front.length + n + 1 - front.length = n + 1 := by omega
      rw [List.getElem?_append_right (by omega), hplace, List.getElem?_cons_succ] at hheld
      refine ⟨held, ?_, rfl, List.prefix_refl _⟩
      rw [List.getElem?_append_right (by omega), hplace, List.getElem?_cons_succ]
      exact hheld
  | added hnew hroom hfree =>
    have hinside := (List.getElem?_eq_some_iff.1 hheld).1
    exact ⟨held, by rw [List.getElem?_append_left hinside]; exact hheld, rfl, List.prefix_refl _⟩

/-- Only a clearing drops anything. -/
theorem extends_step (table : Table) {step : Step} (h : step ≠ .clear) :
    Extends table.quarantine.entries (table.step step).quarantine.entries := by
  cases step with
  | retain receipt batch =>
    refine retainCandidates_induction (P := fun q _ => Extends table.quarantine.entries q.entries) ?_ _ table.log receipt
      batch (.refl _)
    intro q after log advertisement now hbefore hobserved
    exact hbefore.trans hobserved.extends
  | snapshot now =>
    intro i entry hentry
    refine ⟨{ entry with candidate := Quarantine.expire now entry.candidate }, ?_, rfl, List.prefix_refl _⟩
    show (table.quarantine.entries.map _)[i]? = _
    rw [List.getElem?_map, hentry]
    rfl
  | clear => exact absurd rfl h
  | acquire running workClass =>
    show Extends _ (table.acquire running workClass).quarantine.entries
    unfold Table.acquire
    cases table.quarantine.budget.reserve workClass running <;> exact .refl _
  | release index =>
    show Extends _ (table.release index).quarantine.entries
    unfold Table.release
    cases table.others[index]? <;> exact .refl _

theorem extends_run (table : Table) {steps : List Step} (h : Step.clear ∉ steps) :
    Extends table.quarantine.entries (table.run steps).quarantine.entries := by
  induction steps generalizing table with
  | nil => exact .refl _
  | cons step steps ih =>
    rw [List.mem_cons, not_or] at h
    exact (extends_step table (Ne.symm h.1)).trans (ih (table.step step) h.2)

/-! ### Ages -/

/-- The receipts of a key reached the table in order. -/
def Log.InOrder (log : Log) (key : InstalledId × Nat) : Prop := ((log.about key).map Prod.snd).Pairwise (· ≤ ·)

theorem le_last_of_pairwise {l : List Nat} {last : Nat} (h : l.Pairwise (· ≤ ·)) (hlast : l.getLast? = some last) :
    last ∈ l ∧ ∀ n ∈ l, n ≤ last := by
  obtain ⟨front, rfl⟩ := List.getLast?_eq_some_iff.1 hlast
  refine ⟨List.mem_append_right _ (List.mem_singleton_self _), fun n hn => ?_⟩
  rcases List.mem_append.1 hn with hfront | hsame
  · exact (List.pairwise_append.1 h).2.2 n hfront last (List.mem_singleton_self _)
  · exact (List.mem_singleton.1 hsame).le

/-- In order, an entry expires by its latest receipt. -/
theorem Candidate.HeldBy.expired_iff {candidate : Candidate} {log : Log} (h : candidate.HeldBy log)
    (horder : log.InOrder candidate.key) (now : Nat) : (Quarantine.expire now candidate).expired = true ↔
      ∀ receipt ∈ (log.about candidate.key).map Prod.snd, candidateTtl ≤ now - receipt := by
  obtain ⟨hmem, hmax⟩ := le_last_of_pairwise horder h.last
  show decide _ = true ↔ _
  rw [decide_eq_true_eq]
  constructor
  · intro hold receipt hreceipt
    have hle := hmax receipt hreceipt
    omega
  · exact fun hall => hall _ hmem

theorem Candidate.HeldBy.advertisements {candidate : Candidate} {log : Log} (h : candidate.HeldBy log) :
    candidate.advertisements.Nodup ∧ ∀ advertisement ∈ candidate.advertisements, advertisement.key = candidate.key := by
  rw [h.seen]
  refine ⟨nodup_firstSeen _, fun advertisement hadvertisement => ?_⟩
  obtain ⟨item, hitem, rfl⟩ := List.mem_map.1 (mem_firstSeen.1 hadvertisement)
  exact of_decide_eq_true (List.mem_filter.1 hitem).2

theorem count_reservations {entries : List HeldCandidate} {log : Log} (h : Held entries log) :
    (reservations entries).count (false, .optionalDiscovery) = entries.length := by
  have hall : reservations entries = List.replicate entries.length (false, .optionalDiscovery) := by
    rw [List.eq_replicate_iff]
    refine ⟨List.length_map _, fun reservation hreservation => ?_⟩
    obtain ⟨entry, hentry, rfl⟩ := List.mem_map.1 hreservation
    rw [h.reserved entry hentry]
  rw [hall, List.count_replicate_self]

/-- After every run the table holds what was accepted since the last clearing, one reservation for each entry. -/
theorem quarantine_keeps (steps : List Step) :
    let table := Table.start.run steps
    table.quarantine.entries.length ≤ 16 ∧
      (table.quarantine.entries.map fun entry => entry.candidate.key).Nodup ∧
      (∀ entry ∈ table.quarantine.entries, 1 ≤ entry.candidate.advertisements.length ∧
        entry.candidate.advertisements.length ≤ 4 ∧ entry.candidate.advertisements.Nodup ∧
        (∀ advertisement ∈ entry.candidate.advertisements, advertisement.key = entry.candidate.key) ∧
        entry.candidate.advertisements = firstSeen ((table.log.about entry.candidate.key).map Prod.fst)) ∧
      (∀ more, Step.clear ∉ more → Extends table.quarantine.entries (table.run more).quarantine.entries) ∧
      (∀ entry ∈ table.quarantine.entries, entry.reservation = ⟨false, .optionalDiscovery⟩) ∧
      table.quarantine.budget.used false .optionalDiscovery =
        table.others.count (false, .optionalDiscovery) + table.quarantine.entries.length ∧
      (table.step .clear).quarantine.entries = [] ∧
      (table.step .clear).quarantine.budget.used false .optionalDiscovery =
        table.others.count (false, .optionalDiscovery) ∧
      (∀ receipt batch error, (table.quarantine.retainCandidates receipt batch).2 = .error error →
        ∃ front advertisement back, batch = front ++ advertisement :: back ∧
          table.quarantine.retainCandidates receipt front = ((table.quarantine.retainCandidates receipt batch).1, .ok ()) ∧
          (table.quarantine.retainCandidates receipt batch).1.observe advertisement receipt =
            ((table.quarantine.retainCandidates receipt batch).1, .error error)) ∧
      ∀ now, (table.quarantine.snapshot now).2 =
          table.quarantine.entries.map (fun entry => Quarantine.expire now entry.candidate) ∧
        ∀ entry ∈ table.quarantine.entries, table.log.InOrder entry.candidate.key →
          ((Quarantine.expire now entry.candidate).expired = true ↔
            ∀ receipt ∈ (table.log.about entry.candidate.key).map Prod.snd, candidateTtl ≤ now - receipt) := by
  intro table
  have hsound : Sound table := sound_start.run steps
  have hcleared := (hsound.step .clear).accounts false .optionalDiscovery
  refine ⟨hsound.held.few, hsound.held.nodup, ?_, fun more hmore => extends_run table hmore, hsound.held.reserved, ?_, rfl,
    hcleared, ?_, fun now => ⟨?_, ?_⟩⟩
  · intro entry hentry
    have hheld := hsound.held.candidates entry hentry
    obtain ⟨hnodup, hkeys⟩ := hheld.advertisements
    exact ⟨Nat.succ_le_succ (Nat.zero_le _), hheld.few, hnodup, hkeys, hheld.seen⟩
  · rw [hsound.accounts, count_reservations hsound.held]
  · intro receipt batch error herror
    rcases retainCandidates_cases table.quarantine receipt batch with ⟨after, hafter⟩ | ⟨front, advertisement, back, after,
      error', hbatch, hretain, hfront, hrefused⟩
    · rw [hafter] at herror
      exact nomatch herror
    · rw [hretain] at herror ⊢
      obtain rfl := Except.error.inj herror
      exact ⟨front, advertisement, back, hbatch, hfront, hrefused⟩
  · exact List.map_map
  · exact fun entry hentry horder => (hsound.held.candidates entry hentry).expired_iff horder now

/-- A device at some address. -/
def someDevice (host : UInt8) : Advertisement := ⟨⟨⟨"realm-a", by decide⟩, [127, 0, 0, host, 186, 192]⟩, 1, 480, 3, 7⟩

/-- A refused batch has left an entry, and an older receipt has made an entry older than its latest receipt. -/
theorem quarantine_keeps_refused :
    ((Table.start.quarantine.retainCandidates 0 ([1, 2, 3, 4, 5].map someDevice)).2 = .error .quarantineFull ∧
      (Table.start.quarantine.retainCandidates 0 ([1, 2, 3, 4, 5].map someDevice)).1.entries ≠ Table.start.quarantine.entries) ∧
    (((Table.start.run [.retain 10000000000 [someDevice 1], .retain 5000000000 [someDevice 1]]).quarantine.snapshot
      36000000000).2.map Candidate.expired = [true] ∧ ¬ candidateTtl ≤ 36000000000 - 10000000000) := by
  decide +kernel

end Verdant.Bacnet
