import Verdant.Api.Journal
import Verdant.Library.Ledger

/-!
# The journal as a ledger

The intents of all scopes as one list, what one append adds to it (`Commit`), and the ledgers that appends lead to.  An
edit or a seal is appended only after the newest revision of its draft, so the revisions of a draft are one chain; and
since a draft's revisions all live in the scope of the draft, what an append checks in its scope holds over all scopes.
-/

namespace Verdant.Api

open Storage

def ofScope (scope : TrustedScope) (log : List Intent) : List Intent := log.filter fun i => i.scope = scope

/-- The revisions of a draft, in order. -/
def revisionsOf (log : List Intent) (subject : OperationId) : List Intent :=
  log.filter fun i => i.subject = subject && i.kind.isRevision

theorem latestRevision_eq (log : List Intent) (subject : OperationId) :
    latestRevision log subject = (revisionsOf log subject).getLast? := by
  unfold latestRevision revisionsOf
  rw [← List.head?_reverse, ← List.filter_reverse, ← List.head?_filter]

/-- What one append adds to the ledger it was decided on. -/
structure Commit (log : List Intent) (intent : Intent) : Prop where
  fresh : ∀ old ∈ log, old.operation ≠ intent.operation
  room : (ofScope intent.scope log).length < maxWork
  /-- A draft is its own subject. -/
  own : intent.kind = .draft → intent.subject = intent.operation ∧ intent.parent = none
  /-- An edit or a seal starts from the newest revision of its draft in the scope. -/
  latest : intent.kind.followsRevision = true →
    ∃ old, latestRevision (ofScope intent.scope log) intent.subject = some old ∧ intent.parent = some old.operation
  unsealed : intent.kind.followsRevision = true →
    ∀ old ∈ ofScope intent.scope log, old.subject = intent.subject → old.kind ≠ .seal

/-- The ledgers that appends lead to. -/
inductive Reachable : List Intent → Prop
  | empty : Reachable []
  | commit {log : List Intent} {intent : Intent} (before : Reachable log) (step : Commit log intent) :
      Reachable (log ++ [intent])

/-- The intents that belong to the life of a draft. -/
def Intent.ofDraft (i : Intent) : Bool := i.kind.isRevision || i.kind.followsRevision

/-- What every ledger keeps. -/
structure Sound (log : List Intent) : Prop where
  bounded : ∀ scope, (ofScope scope log).length ≤ maxWork
  operations : (log.map Intent.operation).Nodup
  /-- The life of a draft stays in one scope. -/
  home : ∀ i ∈ log, ∀ j ∈ log, i.ofDraft = true → j.ofDraft = true → i.subject = j.subject → i.scope = j.scope
  own : ∀ i ∈ log, i.kind = .draft → i.subject = i.operation ∧ i.parent = none
  /-- An edit or a seal names the newest revision of its draft at its append. -/
  latest : ∀ a i b, log = a ++ i :: b → i.kind.followsRevision = true →
    ∃ old, latestRevision a i.subject = some old ∧ i.parent = some old.operation
  /-- A draft is not edited or sealed after its seal. -/
  frozen : ∀ a i b, log = a ++ i :: b → i.kind = .seal → ∀ j ∈ b, j.subject = i.subject →
    j.kind.followsRevision = false

theorem mem_ofScope {scope : TrustedScope} {log : List Intent} {i : Intent} :
    i ∈ ofScope scope log ↔ i ∈ log ∧ i.scope = scope := by
  simp [ofScope]

theorem ofScope_append (scope : TrustedScope) (a b : List Intent) :
    ofScope scope (a ++ b) = ofScope scope a ++ ofScope scope b := List.filter_append ..

theorem revisionsOf_append (a b : List Intent) (subject : OperationId) :
    revisionsOf (a ++ b) subject = revisionsOf a subject ++ revisionsOf b subject := List.filter_append ..

theorem mem_revisionsOf {log : List Intent} {subject : OperationId} {i : Intent} :
    i ∈ revisionsOf log subject ↔ i ∈ log ∧ i.subject = subject ∧ i.kind.isRevision = true := by
  simp [revisionsOf]

theorem mem_of_latestRevision {log : List Intent} {subject : OperationId} {i : Intent}
    (h : latestRevision log subject = some i) : i ∈ revisionsOf log subject := by
  rw [latestRevision_eq] at h
  exact List.mem_of_getLast? h

theorem ofDraft_of_isRevision {i : Intent} (h : i.kind.isRevision = true) : i.ofDraft = true := by
  unfold Intent.ofDraft
  rw [h, Bool.true_or]

theorem ofDraft_of_followsRevision {i : Intent} (h : i.kind.followsRevision = true) : i.ofDraft = true := by
  unfold Intent.ofDraft
  rw [h, Bool.or_true]

/-- A revision of a draft, first or later. -/
theorem Kind.isRevision_iff {kind : Kind} : kind.isRevision = true ↔ kind = .draft ∨ kind = .edit := by
  cases kind <;> simp [isRevision]

theorem Kind.followsRevision_iff {kind : Kind} : kind.followsRevision = true ↔ kind = .edit ∨ kind = .seal := by
  cases kind <;> simp [followsRevision]

/-- A kind of a draft's life that follows no revision is the draft itself. -/
theorem Intent.draft_of_ofDraft {i : Intent} (h : i.ofDraft = true) (hnot : i.kind.followsRevision = false) :
    i.kind = .draft := by
  unfold ofDraft at h
  rw [hnot, Bool.or_false, Kind.isRevision_iff] at h
  rcases h with h | h
  · exact h
  · rw [h] at hnot
    exact nomatch hnot

namespace Sound

theorem empty : Sound [] where
  bounded scope := Nat.zero_le _
  operations := List.nodup_nil
  home i h := nomatch h
  own i h := nomatch h
  latest a i b h := by simp at h
  frozen a i b h := by simp at h

variable {log : List Intent} {intent : Intent}

/-- The revisions of a draft that lives in a scope are those of the scope. -/
theorem latestRevision_ofScope (h : Sound log) {scope : TrustedScope} {subject : OperationId} {old : Intent}
    (hold : latestRevision (ofScope scope log) subject = some old) : latestRevision log subject = some old := by
  obtain ⟨hmem, hsubject, hrevision⟩ := mem_revisionsOf.1 (mem_of_latestRevision hold)
  obtain ⟨hlog, hscope⟩ := mem_ofScope.1 hmem
  have hsame : revisionsOf (ofScope scope log) subject = revisionsOf log subject := by
    unfold revisionsOf ofScope
    rw [List.filter_filter]
    refine List.filter_congr fun i hi => ?_
    by_cases hrev : i.subject = subject ∧ i.kind.isRevision = true
    · have hhome := h.home i hi old hlog (ofDraft_of_isRevision hrev.2) (ofDraft_of_isRevision hrevision)
        (hrev.1.trans hsubject.symm)
      simp [hrev.1, hrev.2, hhome, hscope]
    · have hnot : (decide (i.subject = subject) && i.kind.isRevision) = false := by
        rw [Bool.eq_false_iff]
        intro htrue
        rw [Bool.and_eq_true, decide_eq_true_eq] at htrue
        exact hrev htrue
      rw [hnot, Bool.false_and]
  rw [latestRevision_eq, ← hsame, ← latestRevision_eq]
  exact hold

/-- What an append follows is in its scope. -/
theorem latest_of_commit (h : Sound log) (step : Commit log intent) (hfollows : intent.kind.followsRevision = true) :
    ∃ old ∈ log, latestRevision log intent.subject = some old ∧ intent.parent = some old.operation ∧
      old.subject = intent.subject ∧ old.kind.isRevision = true ∧ old.scope = intent.scope := by
  obtain ⟨old, hold, hparent⟩ := step.latest hfollows
  obtain ⟨hmem, hsubject, hrevision⟩ := mem_revisionsOf.1 (mem_of_latestRevision hold)
  obtain ⟨hlog, hscope⟩ := mem_ofScope.1 hmem
  exact ⟨old, hlog, h.latestRevision_ofScope hold, hparent, hsubject, hrevision, hscope⟩

/-- The subject of a revision or a seal names a draft of the ledger. -/
theorem draft_of_ofDraft (h : Sound log) {i : Intent} (hi : i ∈ log) (hdraft : i.ofDraft = true) :
    ∃ d ∈ log, d.operation = i.subject := by
  -- along the chain of its parents, which are older
  obtain ⟨a, b, hsplit⟩ := List.append_of_mem hi
  induction hn : a.length using Nat.strong_induction_on generalizing i a b with
  | _ n ih =>
    by_cases hfollows : i.kind.followsRevision = true
    · obtain ⟨old, hold, -⟩ := h.latest a i b hsplit hfollows
      obtain ⟨hmem, hsubject, hrevision⟩ := mem_revisionsOf.1 (mem_of_latestRevision hold)
      obtain ⟨front, back, hfront⟩ := List.append_of_mem hmem
      have hlog : old ∈ log := by
        rw [hsplit]
        exact List.mem_append_left _ hmem
      have hshort : front.length < n := by
        rw [← hn, hfront, List.length_append, List.length_cons]
        omega
      obtain ⟨d, hd, hop⟩ := ih front.length hshort hlog (ofDraft_of_isRevision hrevision) front (back ++ i :: b)
        (by rw [hsplit, hfront]; simp) rfl
      exact ⟨d, hd, hop.trans hsubject⟩
    · have hkind := i.draft_of_ofDraft hdraft (by simpa using hfollows)
      exact ⟨i, hi, (h.own i hi hkind).1.symm⟩

/-- One append keeps a sound ledger sound. -/
theorem commit (h : Sound log) (step : Commit log intent) : Sound (log ++ [intent]) where
  bounded scope := by
    have hold := h.bounded scope
    rw [ofScope_append, List.length_append]
    by_cases hscope : intent.scope = scope
    · have hroom := step.room
      rw [hscope] at hroom
      have hone : (ofScope scope [intent]).length ≤ 1 := List.length_filter_le _ _
      omega
    · have hnone : ofScope scope [intent] = [] := by
        unfold ofScope
        simp [hscope]
      rw [hnone]
      simpa using hold
  operations := by
    rw [List.map_append, List.map_singleton, List.nodup_append]
    refine ⟨h.operations, List.nodup_singleton _, ?_⟩
    intro op hop op' hop'
    obtain ⟨old, hold, rfl⟩ := List.mem_map.1 hop
    rw [List.mem_singleton.1 hop']
    exact step.fresh old hold
  home := by
    -- an old intent against the new one
    have hone : ∀ i ∈ log, i.ofDraft = true → intent.ofDraft = true → i.subject = intent.subject →
        i.scope = intent.scope := by
      intro i hi hidraft hdraft hsubject
      by_cases hfollows : intent.kind.followsRevision = true
      · obtain ⟨old, hold, -, -, hsame, hrevision, hscope⟩ := h.latest_of_commit step hfollows
        have hhome := h.home i hi old hold hidraft (ofDraft_of_isRevision hrevision) (hsubject.trans hsame.symm)
        exact hhome.trans hscope
      · have hkind := intent.draft_of_ofDraft hdraft (by simpa using hfollows)
        obtain ⟨d, hd, hop⟩ := h.draft_of_ofDraft hi hidraft
        have hclash : d.operation = intent.operation := hop.trans (hsubject.trans (step.own hkind).1)
        exact absurd hclash (step.fresh d hd)
    intro i hmem j hmem' hidraft hjdraft hsubject
    rcases List.mem_append.1 hmem with hi | hi
    · rcases List.mem_append.1 hmem' with hj | hj
      · exact h.home i hi j hj hidraft hjdraft hsubject
      · have hnew := List.mem_singleton.1 hj
        rw [hnew] at hjdraft hsubject ⊢
        exact hone i hi hidraft hjdraft hsubject
    · have hnew := List.mem_singleton.1 hi
      rw [hnew] at hidraft hsubject ⊢
      rcases List.mem_append.1 hmem' with hj | hj
      · exact (hone j hj hjdraft hidraft hsubject.symm).symm
      · rw [List.mem_singleton.1 hj]
  own i hi hkind := by
    rcases List.mem_append.1 hi with hi | hi
    · exact h.own i hi hkind
    · obtain rfl := List.mem_singleton.1 hi
      exact step.own hkind
  latest a i b hsplit hfollows := by
    rcases Ledger.split_concat hsplit with ⟨rfl, rfl, rfl⟩ | ⟨c, rfl, hlog⟩
    · obtain ⟨old, -, hlatest, hparent, -⟩ := h.latest_of_commit step hfollows
      exact ⟨old, hlatest, hparent⟩
    · exact h.latest a i c hlog hfollows
  frozen a i b hsplit hseal j hj hsubject := by
    rcases Ledger.split_concat hsplit with ⟨rfl, rfl, rfl⟩ | ⟨c, rfl, hlog⟩
    · exact nomatch hj
    · rcases List.mem_append.1 hj with hj | hj
      · exact h.frozen a i c hlog hseal j hj hsubject
      · obtain rfl := List.mem_singleton.1 hj
        by_contra hfollows
        rw [Bool.not_eq_false] at hfollows
        have hi : i ∈ log := by
          rw [hlog]
          exact List.mem_append_right _ List.mem_cons_self
        -- the new one was decided in the scope of the seal
        obtain ⟨old, hold, -, -, hsame, hrevision, hscope⟩ := h.latest_of_commit step hfollows
        have hseals : i.kind.followsRevision = true := by
          rw [hseal]
          rfl
        have hhome := h.home i hi old hold (ofDraft_of_followsRevision hseals) (ofDraft_of_isRevision hrevision)
          (hsubject.symm.trans hsame.symm)
        exact step.unsealed hfollows i (mem_ofScope.2 ⟨hi, hhome.trans hscope⟩) hsubject.symm hseal

end Sound

theorem Reachable.sound {log : List Intent} (h : Reachable log) : Sound log := by
  induction h with
  | empty => exact Sound.empty
  | commit before step ih => exact ih.commit step

/-! ### What a sound ledger says -/

namespace Sound

variable {log : List Intent}

theorem intent_unique (h : Sound log) {i j : Intent} (hi : i ∈ log) (hj : j ∈ log)
    (hop : i.operation = j.operation) : i = j := List.inj_on_of_nodup_map h.operations hi hj hop

/-- A ledger without its newest intent. -/
theorem dropLast {intent : Intent} (h : Sound (log ++ [intent])) : Sound log where
  bounded scope := by
    have hall := h.bounded scope
    rw [ofScope_append, List.length_append] at hall
    omega
  operations := by
    have hall := h.operations
    rw [List.map_append, List.nodup_append] at hall
    exact hall.1
  home i hi j hj := h.home i (List.mem_append_left _ hi) j (List.mem_append_left _ hj)
  own i hi := h.own i (List.mem_append_left _ hi)
  latest a i b hsplit := h.latest a i (b ++ [intent]) (by rw [hsplit]; simp)
  frozen a i b hsplit hseal j hj := h.frozen a i (b ++ [intent]) (by rw [hsplit]; simp) hseal j
    (List.mem_append_left _ hj)

/-- The revisions of a draft are one chain of parents from the draft itself. -/
theorem chained (h : Sound log) (subject : OperationId) :
    List.IsChain (fun a b => b.kind = .edit ∧ b.parent = some a.operation) (revisionsOf log subject) ∧
      ∀ i, (revisionsOf log subject).head? = some i → i.kind = .draft ∧ i.operation = subject := by
  induction log using List.reverseRecOn with
  | nil => exact ⟨List.IsChain.nil, fun i hi => nomatch hi⟩
  | append_singleton log i ih =>
    obtain ⟨hchain, hhead⟩ := ih h.dropLast
    by_cases hrev : i.subject = subject ∧ i.kind.isRevision = true
    · have hone : revisionsOf [i] subject = [i] := by
        unfold revisionsOf
        simp [hrev.1, hrev.2]
      rw [revisionsOf_append, hone]
      rcases Kind.isRevision_iff.1 hrev.2 with hkind | hkind
      · -- a draft opens the chain: its operation is fresh
        have hown := h.own i (by simp) hkind
        have hnone : revisionsOf log subject = [] := by
          rw [List.eq_nil_iff_forall_not_mem]
          intro j hj
          obtain ⟨hjlog, hjsubject, hjrev⟩ := mem_revisionsOf.1 hj
          obtain ⟨d, hd, hop⟩ := h.dropLast.draft_of_ofDraft hjlog (ofDraft_of_isRevision hjrev)
          have hclash : d.operation = i.operation := hop.trans (hjsubject.trans (hrev.1.symm.trans hown.1))
          have hnodup := h.operations
          rw [List.map_append, List.nodup_append] at hnodup
          exact hnodup.2.2 _ (List.mem_map_of_mem hd) _ (List.mem_singleton_self _) hclash
        rw [hnone, List.nil_append]
        refine ⟨List.isChain_singleton i, ?_⟩
        rintro j ⟨⟩
        exact ⟨hkind, hown.1.symm.trans hrev.1⟩
      · have hfollows : i.kind.followsRevision = true := by
          rw [hkind]
          rfl
        obtain ⟨old, hold, hparent⟩ := h.latest log i [] rfl hfollows
        rw [hrev.1, latestRevision_eq] at hold
        have hne : revisionsOf log subject ≠ [] := by
          rintro hnil
          rw [hnil] at hold
          exact nomatch hold
        refine ⟨?_, ?_⟩
        · rw [List.isChain_append]
          refine ⟨hchain, List.isChain_singleton i, ?_⟩
          intro x hx y hy
          rw [hold] at hx
          obtain rfl := Option.some.inj hx
          obtain rfl := Option.some.inj hy
          exact ⟨hkind, hparent⟩
        · intro j hj
          rw [List.head?_append_of_ne_nil _ hne] at hj
          exact hhead j hj
    · have hnone : revisionsOf [i] subject = [] := by
        unfold revisionsOf
        rw [List.filter_eq_nil_iff]
        intro j hj htrue
        obtain rfl := List.mem_singleton.1 hj
        rw [Bool.and_eq_true, decide_eq_true_eq] at htrue
        exact hrev htrue
      rw [revisionsOf_append, hnone, List.append_nil]
      exact ⟨hchain, hhead⟩

/-- Two edits of one revision are the same edit. -/
theorem unforked (h : Sound log) {i j : Intent} (hi : i ∈ log) (hj : j ∈ log) (hik : i.kind = .edit)
    (hjk : j.kind = .edit) (hparent : i.parent = j.parent) : i = j := by
  have hfollows : ∀ k : Intent, k.kind = .edit → k.kind.followsRevision = true := by
    intro k hk
    rw [hk]
    rfl
  have hrevises : ∀ k : Intent, k.kind = .edit → k.kind.isRevision = true := by
    intro k hk
    rw [hk]
    rfl
  -- of two places in the ledger, the later one names a newer revision
  have hordered : ∀ {a b c : List Intent} {i j : Intent}, log = a ++ i :: b ++ j :: c → i.kind = .edit →
      j.kind = .edit → i.parent ≠ j.parent := by
    intro a b c i j hsplit hik hjk hsame
    obtain ⟨old, hold, hiparent⟩ := h.latest a i (b ++ j :: c) (by rw [hsplit]; simp) (hfollows i hik)
    obtain ⟨new, hnew, hjparent⟩ := h.latest (a ++ i :: b) j c hsplit (hfollows j hjk)
    obtain ⟨holdmem, holdsubject, -⟩ := mem_revisionsOf.1 (mem_of_latestRevision hold)
    obtain ⟨hnewmem, hnewsubject, -⟩ := mem_revisionsOf.1 (mem_of_latestRevision hnew)
    have hop : old.operation = new.operation := by
      rw [hiparent, hjparent] at hsame
      exact Option.some.inj hsame
    have hsubset : ∀ k ∈ a ++ i :: b, k ∈ log := by
      intro k hk
      rw [hsplit]
      exact List.mem_append_left _ hk
    have heq : old = new := h.intent_unique (hsubset old (List.mem_append_left _ holdmem)) (hsubset new hnewmem) hop
    subst heq
    -- the newest revision is at or after `i`, the old one before it
    rw [latestRevision_eq, revisionsOf_append] at hnew
    have hne : revisionsOf (i :: b) j.subject ≠ [] := by
      have hmem : i ∈ revisionsOf (i :: b) j.subject :=
        mem_revisionsOf.2 ⟨List.mem_cons_self, holdsubject.symm.trans hnewsubject, hrevises i hik⟩
      exact List.ne_nil_of_mem hmem
    rw [List.getLast?_append_of_ne_nil _ hne] at hnew
    have hback : old ∈ i :: b := (mem_revisionsOf.1 (List.mem_of_getLast? hnew)).1
    have hnodup := h.operations
    rw [hsplit, List.map_append, List.map_append, List.nodup_append, List.nodup_append] at hnodup
    exact hnodup.1.2.2 _ (List.mem_map_of_mem holdmem) _ (List.mem_map_of_mem hback) rfl
  obtain ⟨a, b, hsplit⟩ := List.append_of_mem hi
  rw [hsplit, List.mem_append, List.mem_cons] at hj
  rcases hj with hj | rfl | hj
  · obtain ⟨c, d, rfl⟩ := List.append_of_mem hj
    exact absurd hparent.symm (hordered hsplit hjk hik)
  · rfl
  · obtain ⟨c, d, rfl⟩ := List.append_of_mem hj
    have hsplit' : log = a ++ i :: c ++ j :: d := by
      rw [hsplit]
      simp
    exact absurd hparent (hordered hsplit' hik hjk)

/-- An edit or a seal does not start from a revision that a newer one has replaced before. -/
theorem not_stale (h : Sound log) {a b old : List Intent} {i p : Intent} (hsplit : log = a ++ i :: b) (hold : old <+: a)
    (hfollows : i.kind.followsRevision = true) (hp : p ∈ revisionsOf old i.subject)
    (hparent : i.parent = some p.operation) : latestRevision old i.subject = some p := by
  obtain ⟨latest, hlatest, hnamed⟩ := h.latest a i b hsplit hfollows
  obtain ⟨rest, rfl⟩ := hold
  have hmem := mem_of_latestRevision hlatest
  have hsubset : ∀ j ∈ old ++ rest, j ∈ log := by
    intro j hj
    rw [hsplit]
    exact List.mem_append_left _ hj
  have hop : latest.operation = p.operation := by
    rw [hparent] at hnamed
    exact (Option.some.inj hnamed).symm
  have hsame : latest = p := h.intent_unique (hsubset latest (mem_revisionsOf.1 hmem).1)
    (hsubset p (List.mem_append_left _ (mem_revisionsOf.1 hp).1)) hop
  subst hsame
  rw [latestRevision_eq, revisionsOf_append] at hlatest
  by_cases hrest : revisionsOf rest i.subject = []
  · rw [hrest, List.append_nil] at hlatest
    rw [latestRevision_eq, hlatest]
  · -- the revision would be in the ledger twice
    rw [List.getLast?_append_of_ne_nil _ hrest] at hlatest
    have hback := (mem_revisionsOf.1 (List.mem_of_getLast? hlatest)).1
    have hnodup := h.operations
    rw [hsplit, List.map_append, List.map_append, List.nodup_append, List.nodup_append] at hnodup
    exact absurd rfl (hnodup.1.2.2 _ (List.mem_map_of_mem (mem_revisionsOf.1 hp).1) _ (List.mem_map_of_mem hback))

/-- A draft has one seal. -/
theorem sealed_once (h : Sound log) {i j : Intent} (hi : i ∈ log) (hj : j ∈ log) (hik : i.kind = .seal)
    (hjk : j.kind = .seal) (hsubject : i.subject = j.subject) : i = j := by
  have hfollows : ∀ k : Intent, k.kind = .seal → k.kind.followsRevision ≠ false := by
    intro k hk hnot
    rw [hk] at hnot
    exact nomatch hnot
  obtain ⟨a, b, hsplit⟩ := List.append_of_mem hi
  rw [hsplit, List.mem_append, List.mem_cons] at hj
  rcases hj with hj | rfl | hj
  · obtain ⟨c, d, rfl⟩ := List.append_of_mem hj
    have hafter := h.frozen c j (d ++ i :: b) (by rw [hsplit]; simp) hjk i (by simp) hsubject
    exact absurd hafter (hfollows i hik)
  · rfl
  · have hafter := h.frozen a i b hsplit hik j hj hsubject.symm
    exact absurd hafter (hfollows j hjk)

end Sound

end Verdant.Api
