import Verdant.Library.Text
import Verdant.Observation.Receiver

/-!
# The law of the synthetic receiver

A generation text carries the allocation it was minted at, and allocations only grow: so a fresh generation was never
used, and the counter of a ledger entry is above every record of its generation.  The current table is the fold of
`consider` over the records, since appending a record leaves the fold over the earlier ones as it was.
-/

namespace Verdant.Observation

open Access

theorem text_of_parse_generation {raw : String} {generation : SourceGenerationId}
    (h : SourceGenerationId.parse raw = .ok generation) : generation.text = raw := by
  unfold SourceGenerationId.parse parseId at h
  split at h
  · exact nomatch h
  · cases h
    rfl

namespace SyntheticReceiver

/-! ### What one call can do -/

/-- The text of the generation minted at an allocation. -/
def generationText (receiver : SyntheticReceiver) (allocation : Nat) : String :=
  receiver.namespaceId.text ++ ":" ++ Nat.repr allocation

theorem generationText_injective (receiver : SyntheticReceiver) : Function.Injective receiver.generationText := by
  intro a b h
  unfold generationText at h
  have hrepr := String.append_right_inj (s := _) |>.1 h
  exact TextCodec.repr_injective hrepr

theorem allocate_cases (receiver : SyntheticReceiver) :
    (∃ e, receiver.allocate = (receiver, .error e)) ∨
      ∃ generation : SourceGenerationId, generation.text = receiver.generationText (receiver.allocation + 1) ∧
        receiver.allocate =
          ({ receiver with allocation := receiver.allocation + 1 }, .ok (generation, receiver.allocation + 1)) := by
  unfold allocate checkedAdd64
  by_cases hsmall : receiver.allocation + 1 < 2 ^ 64
  · simp only [if_pos hsmall]
    cases hparse : SourceGenerationId.parse (receiver.namespaceId.text ++ ":" ++ Nat.repr (receiver.allocation + 1)) with
    | error e => exact .inl ⟨_, rfl⟩
    | ok generation => exact .inr ⟨generation, text_of_parse_generation hparse, rfl⟩
  · simp only [if_neg hsmall]
    exact .inl ⟨_, rfl⟩

/-- The receiver after the ledger entries became `producers` at the next lease. -/
def leased (receiver : SyntheticReceiver) (producers : List LedgerEntry) : SyntheticReceiver :=
  { receiver with allocation := receiver.allocation + 1, producers := producers }

theorem start_cases (receiver : SyntheticReceiver) (gate : Except AccessError Unit) (scope : TrustedScope)
    (producer : ProducerId) (incarnation : ProducerIncarnation) :
    (∃ e, receiver.start gate scope producer incarnation = (receiver, .error e)) ∨
      ∃ generation : SourceGenerationId, generation.text = receiver.generationText (receiver.allocation + 1) ∧
        (∀ p ∈ receiver.producers, p.checkpoint.scope = scope → p.checkpoint.producer ≠ producer) ∧
        receiver.start gate scope producer incarnation =
          (receiver.leased (receiver.producers ++ [⟨⟨scope, producer, generation, 0⟩, receiver.allocation + 1⟩]),
            .ok ⟨⟨scope, producer, generation, 0⟩, incarnation, receiver.allocation + 1⟩) := by
  unfold start
  cases gate with
  | error e => exact .inl ⟨_, rfl⟩
  | ok _ =>
    dsimp only
    split
    · exact .inl ⟨_, rfl⟩
    rename_i hnew
    split
    · exact .inl ⟨_, rfl⟩
    rcases allocate_cases receiver with ⟨e, he⟩ | ⟨generation, htext, hok⟩
    · rw [he]
      exact .inl ⟨_, rfl⟩
    · rw [hok]
      refine .inr ⟨generation, htext, ?_, rfl⟩
      simpa using hnew

theorem resume_cases (receiver : SyntheticReceiver) (gate : Except AccessError Unit) (restored : ProducerCheckpoint)
    (incarnation : ProducerIncarnation) :
    (∃ e, receiver.resume gate restored incarnation = (receiver, .error e)) ∨
      ∃ index p checkpoint, receiver.producers[index]? = some p ∧
        p.checkpoint.scope = restored.scope ∧ p.checkpoint.producer = restored.producer ∧
        checkpoint.scope = restored.scope ∧ checkpoint.producer = restored.producer ∧
        (p.checkpoint = checkpoint ∨
          checkpoint.generation.text = receiver.generationText (receiver.allocation + 1)) ∧
        receiver.resume gate restored incarnation =
          (receiver.leased (receiver.producers.set index ⟨checkpoint, receiver.allocation + 1⟩),
            .ok ⟨checkpoint, incarnation, receiver.allocation + 1⟩) := by
  unfold resume
  cases gate with
  | error e => exact .inl ⟨_, rfl⟩
  | ok _ =>
    dsimp only
    split
    · exact .inl ⟨_, rfl⟩
    rename_i index hfind
    obtain ⟨hlt, hp, -⟩ := List.findIdx?_eq_some_iff_getElem.1 hfind
    rcases allocate_cases receiver with ⟨e, he⟩ | ⟨generation, htext, hok⟩
    · rw [he]
      exact .inl ⟨_, rfl⟩
    · rw [hok]
      have hget : receiver.producers[index]? = some receiver.producers[index] := List.getElem?_eq_getElem hlt
      simp only [decide_eq_true_eq] at hp
      by_cases hintact : receiver.producers[index]?.map LedgerEntry.checkpoint = some restored
      · refine .inr ⟨index, _, restored, hget, hp.1, hp.2, rfl, rfl, .inl ?_, ?_⟩
        · rw [hget] at hintact
          exact Option.some.inj hintact
        · simp only [if_pos hintact]
          rfl
      · refine .inr ⟨index, _, ⟨restored.scope, restored.producer, generation, 0⟩, hget, hp.1, hp.2, rfl, rfl,
          .inr htext, ?_⟩
        simp only [if_neg hintact]
        rfl

theorem selectBinding_cases (receiver : SyntheticReceiver) (gate : Except AccessError Unit)
    (expected : Option BindingContext) (selected : BindingContext) :
    (∃ e, receiver.selectBinding gate expected selected = (receiver, .error e)) ∨
      receiver.selectBinding gate expected selected = (receiver, .ok ()) ∨
      ∃ bindings, receiver.selectBinding gate expected selected =
        (({ receiver with bindings := bindings } : SyntheticReceiver).rebuildCurrent, .ok ()) := by
  unfold selectBinding
  cases gate with
  | error e => exact .inl ⟨_, rfl⟩
  | ok _ =>
    dsimp only
    split
    · exact .inl ⟨_, rfl⟩
    split
    · split
      · exact .inr (.inl rfl)
      split
      · exact .inl ⟨_, rfl⟩
      · exact .inr (.inr ⟨_, rfl⟩)
    · split
      · exact .inl ⟨_, rfl⟩
      · exact .inr (.inr ⟨_, rfl⟩)

/-- The receiver after the entry at `index` emitted `observation`, with the next counter. -/
def recorded (receiver : SyntheticReceiver) (index next : Nat) (observation : NormalizedObservation) :
    SyntheticReceiver :=
  let records := receiver.records ++ [⟨observation, observation.freshnessAtIngestion⟩]
  { receiver with
    producers := receiver.producers.modify index fun p => { p with checkpoint := { p.checkpoint with next := next } }
    records := records
    current := consider records receiver.bindings receiver.current (records.length - 1) }

/-- A producer after it emitted. -/
def advanced (producer : Producer) : Producer :=
  { producer with checkpoint := { producer.checkpoint with next := producer.checkpoint.next + 1 } }

theorem emit_cases (receiver : SyntheticReceiver) (gate : Except AccessError Unit) (producer : Producer)
    (pending : PendingObservation) :
    (∃ e, receiver.emit gate producer pending = (receiver, producer, .error e)) ∨
      ∃ index p observation, receiver.producers[index]? = some p ∧ p.checkpoint = producer.checkpoint ∧
        p.lease = producer.lease ∧
        observation.id = ⟨producer.checkpoint.scope, producer.checkpoint.producer,
          ⟨producer.checkpoint.generation, producer.checkpoint.next⟩⟩ ∧
        receiver.emit gate producer pending =
          (receiver.recorded index (producer.checkpoint.next + 1) observation, advanced producer, .ok observation) := by
  unfold emit
  cases gate with
  | error e => exact .inl ⟨_, rfl⟩
  | ok _ =>
    dsimp only
    split
    · exact .inl ⟨_, rfl⟩
    rename_i index hfind
    split
    · exact .inl ⟨_, rfl⟩
    unfold Producer.nextId checkedAdd64
    by_cases hsmall : producer.checkpoint.next + 1 < 2 ^ 64
    · simp only [if_pos hsmall]
      unfold PendingObservation.identify
      by_cases hscope : producer.checkpoint.scope ≠ pending.binding.scope
      · simp only [if_pos hscope]
        exact .inl ⟨_, rfl⟩
      · simp only [if_neg hscope]
        obtain ⟨hlt, hp, -⟩ := List.findIdx?_eq_some_iff_getElem.1 hfind
        simp only [decide_eq_true_eq] at hp
        exact .inr ⟨index, _, _, List.getElem?_eq_getElem hlt, hp.1, hp.2, rfl, rfl⟩
    · simp only [if_neg hsmall]
      exact .inl ⟨_, rfl⟩

/-- The receiver after the record at `index` was read as `freshness`. -/
def refreshed (receiver : SyntheticReceiver) (index : Nat) (stored : Stored) (freshness : Freshness) :
    SyntheticReceiver :=
  { receiver with records := receiver.records.set index { stored with freshness := freshness } }

theorem readCurrent_cases (receiver : SyntheticReceiver) (gate : Except AccessError Unit) (scope : TrustedScope)
    (key : InstalledId) (now : ClockReading) :
    (∃ e, receiver.readCurrent gate scope key now = (receiver, .error e)) ∨
      receiver.readCurrent gate scope key now = (receiver, .ok none) ∨
      ∃ index stored freshness suitability, receiver.records[index]? = some stored ∧
        freshness = stored.freshness.retain (stored.observation.assess now) ∧
        receiver.readCurrent gate scope key now =
          (receiver.refreshed index stored freshness, .ok (some ⟨stored.observation, freshness, suitability⟩)) := by
  unfold readCurrent
  cases gate with
  | error e => exact .inl ⟨_, rfl⟩
  | ok _ =>
    dsimp only
    split
    · exact .inr (.inl rfl)
    rename_i held _
    cases hstored : receiver.records[held.record]? with
    | none => exact .inr (.inl rfl)
    | some stored => exact .inr (.inr ⟨_, stored, _, _, hstored, rfl, rfl⟩)

/-! ### The fold behind the current table -/

/-- The same observations at every position below `n`. -/
def SameBelow (n : Nat) (records records' : List Stored) : Prop :=
  ∀ i < n, records[i]?.map Stored.observation = records'[i]?.map Stored.observation

theorem consider_below {records : List Stored} {bindings : List BindingContext} {current : List Current}
    {index n : Nat} (hindex : index < n) (hcurrent : ∀ c ∈ current, c.record < n) :
    ∀ c ∈ consider records bindings current index, c.record < n := by
  intro c hc
  unfold consider at hc
  split at hc
  · exact hcurrent c hc
  dsimp only at hc
  split at hc
  · exact hcurrent c hc
  split at hc
  · split at hc
    · exact hcurrent c hc
    split at hc
    · exact hcurrent c hc
    split at hc
    · rcases List.mem_or_eq_of_mem_set hc with hold | rfl
      · exact hcurrent c hold
      · exact hindex
    · exact hcurrent c hc
  · rw [List.mem_append, List.mem_singleton] at hc
    rcases hc with hold | rfl
    · exact hcurrent c hold
    · exact hindex

/-- What `consider` does at `index` depends on the observations below `n` only. -/
theorem consider_congr {records records' : List Stored} {bindings : List BindingContext} {current : List Current}
    {index n : Nat} (hsame : SameBelow n records records') (hindex : index < n)
    (hcurrent : ∀ c ∈ current, c.record < n) :
    consider records bindings current index = consider records' bindings current index := by
  have hat := hsame index hindex
  unfold consider
  cases hstored : records[index]? with
  | none =>
    rw [hstored] at hat
    have hnone : records'[index]? = none := by simpa using hat.symm
    rw [hnone]
  | some stored =>
    rw [hstored] at hat
    obtain ⟨stored', hstored', hobs⟩ := Option.map_eq_some_iff.1 hat.symm
    rw [hstored']
    dsimp only
    rw [hobs]
    by_cases hbound : stored.observation.binding ∉ bindings
    · rw [if_pos hbound, if_pos hbound]
    rw [if_neg hbound, if_neg hbound]
    split
    · rename_i slot _
      cases hheld : current[slot]? with
      | none => rfl
      | some held =>
        dsimp only
        have hlow := hsame held.record (hcurrent held (List.mem_of_getElem? hheld))
        cases hold : records[held.record]? with
        | none =>
          rw [hold] at hlow
          have hnone : records'[held.record]? = none := by simpa using hlow.symm
          rw [hnone]
        | some old =>
          rw [hold] at hlow
          obtain ⟨old', hold', hobs'⟩ := Option.map_eq_some_iff.1 hlow.symm
          rw [hold']
          dsimp only
          rw [hobs']
    · rfl

theorem currentOf_succ (records : List Stored) (bindings : List BindingContext) (n : Nat) :
    currentOf records bindings (n + 1) = consider records bindings (currentOf records bindings n) n := by
  unfold currentOf
  rw [List.range_succ, List.foldl_append]
  rfl

theorem currentOf_below (records : List Stored) (bindings : List BindingContext) (n : Nat) :
    ∀ c ∈ currentOf records bindings n, c.record < n := by
  induction n with
  | zero =>
    intro c hc
    exact nomatch hc
  | succ n ih =>
    rw [currentOf_succ]
    have hlow : ∀ c ∈ currentOf records bindings n, c.record < n + 1 := by
      intro c hc
      have := ih c hc
      omega
    exact consider_below (by omega) hlow

theorem currentOf_congr {records records' : List Stored} {n : Nat} (hsame : SameBelow n records records')
    (bindings : List BindingContext) : currentOf records bindings n = currentOf records' bindings n := by
  induction n with
  | zero => rfl
  | succ n ih =>
    have hless : SameBelow n records records' := fun i hi => hsame i (by omega)
    have hlow : ∀ c ∈ currentOf records' bindings n, c.record < n + 1 := by
      intro c hc
      have := currentOf_below records' bindings n c hc
      omega
    rw [currentOf_succ, currentOf_succ, ih hless]
    exact consider_congr hsame (by omega) hlow

end SyntheticReceiver

/-! ### The law of a session -/

/-- Two checkpoints are of one producer in one scope. -/
def ProducerCheckpoint.SameProducer (a b : ProducerCheckpoint) : Prop := a.scope = b.scope ∧ a.producer = b.producer

/-- A generation text minted at an allocation the receiver has made. -/
def Minted (receiver : SyntheticReceiver) (generation : SourceGenerationId) : Prop :=
  ∃ k ≤ receiver.allocation, generation.text = receiver.generationText k

namespace ReceiverSession

structure Ledgered (session : ReceiverSession) : Prop where
  distinct : ∀ (i j : Nat) (p q : LedgerEntry), session.receiver.producers[i]? = some p → session.receiver.producers[j]? = some q →
    p.checkpoint.SameProducer q.checkpoint → i = j
  leases : ∀ p ∈ session.receiver.producers, p.lease ≤ session.receiver.allocation
  taken : ∀ h ∈ session.producers, h.lease ≤ session.receiver.allocation
  fenced : ∀ h ∈ session.producers, ∀ p ∈ session.receiver.producers, p.checkpoint.SameProducer h.checkpoint →
    h.lease ≤ p.lease
  minted : ∀ p ∈ session.receiver.producers, Minted session.receiver p.checkpoint.generation
  recorded : ∀ r ∈ session.receiver.records, Minted session.receiver r.observation.id.position.generation
  counted : ∀ r ∈ session.receiver.records, ∀ p ∈ session.receiver.producers,
    p.checkpoint.scope = r.observation.id.scope → p.checkpoint.producer = r.observation.id.producer →
    p.checkpoint.generation = r.observation.id.position.generation → r.observation.id.position.seq < p.checkpoint.next
  ids : (session.receiver.records.map fun r => r.observation.id).Nodup
  current : session.receiver.current =
    SyntheticReceiver.currentOf session.receiver.records session.receiver.bindings session.receiver.records.length

/-- What a session never takes back: its handles, the order of leases, and records with their loss of freshness. -/
structure Grown (old new : ReceiverSession) : Prop where
  handles : ∀ (i : Nat) (h : Producer), old.producers[i]? = some h → ∃ h' : Producer, new.producers[i]? = some h' ∧
    h'.checkpoint.SameProducer h.checkpoint ∧ h'.lease = h.lease
  entries : ∀ p ∈ old.receiver.producers, ∃ q ∈ new.receiver.producers,
    q.checkpoint.SameProducer p.checkpoint ∧ p.lease ≤ q.lease
  records : ∀ (i : Nat) (r : Stored), old.receiver.records[i]? = some r → ∃ r' : Stored, new.receiver.records[i]? = some r' ∧
    r'.observation = r.observation ∧ (r.freshness ≠ .fresh → r'.freshness = r.freshness)

theorem Grown.refl (session : ReceiverSession) : Grown session session where
  handles _ h hh := ⟨h, hh, ⟨rfl, rfl⟩, rfl⟩
  entries p hp := ⟨p, hp, ⟨rfl, rfl⟩, Nat.le_refl _⟩
  records _ r hr := ⟨r, hr, rfl, fun _ => rfl⟩

theorem Grown.trans {a b c : ReceiverSession} (hab : Grown a b) (hbc : Grown b c) : Grown a c where
  handles i h hh := by
    obtain ⟨h', hh', hsame, hlease⟩ := hab.handles i h hh
    obtain ⟨h'', hh'', hsame', hlease'⟩ := hbc.handles i h' hh'
    exact ⟨h'', hh'', ⟨hsame'.1.trans hsame.1, hsame'.2.trans hsame.2⟩, hlease'.trans hlease⟩
  entries p hp := by
    obtain ⟨q, hq, hsame, hle⟩ := hab.entries p hp
    obtain ⟨q', hq', hsame', hle'⟩ := hbc.entries q hq
    exact ⟨q', hq', ⟨hsame'.1.trans hsame.1, hsame'.2.trans hsame.2⟩, Nat.le_trans hle hle'⟩
  records i r hr := by
    obtain ⟨r', hr', hobs, hkept⟩ := hab.records i r hr
    obtain ⟨r'', hr'', hobs', hkept'⟩ := hbc.records i r' hr'
    refine ⟨r'', hr'', hobs'.trans hobs, ?_⟩
    intro hne
    have hsame := hkept hne
    have hne' : r'.freshness ≠ .fresh := by
      rw [hsame]
      exact hne
    exact (hkept' hne').trans hsame

theorem ledgered_new {namespaceId : SourceGenerationId} {limit : Nat} {receiver : SyntheticReceiver}
    (h : SyntheticReceiver.new namespaceId limit = .ok receiver) : Ledgered ⟨receiver, []⟩ := by
  unfold SyntheticReceiver.new at h
  split at h
  · exact nomatch h
  · cases h
    constructor <;> simp [SyntheticReceiver.currentOf]

/-- A lease taken for the entry at `k`: a new producer's, or a resumed one's. -/
theorem keeps_leased {receiver : SyntheticReceiver} {handles : List Producer} (hs : Ledgered ⟨receiver, handles⟩)
    {producers : List LedgerEntry} {k : Nat} {checkpoint : ProducerCheckpoint} (incarnation : ProducerIncarnation)
    (hnew : producers[k]? = some ⟨checkpoint, receiver.allocation + 1⟩)
    (hold : ∀ (i : Nat) (p : LedgerEntry), i ≠ k → producers[i]? = some p → receiver.producers[i]? = some p)
    (hkept : ∀ (i : Nat) (p : LedgerEntry), receiver.producers[i]? = some p →
      producers[i]? = some p ∨ p.checkpoint.SameProducer checkpoint)
    (halone : ∀ (i : Nat) (p : LedgerEntry), i ≠ k → receiver.producers[i]? = some p → ¬p.checkpoint.SameProducer checkpoint)
    (hgeneration : (∃ p ∈ receiver.producers, p.checkpoint = checkpoint) ∨
      checkpoint.generation.text = receiver.generationText (receiver.allocation + 1)) :
    Ledgered ⟨receiver.leased producers, handles ++ [⟨checkpoint, incarnation, receiver.allocation + 1⟩]⟩ ∧
      Grown ⟨receiver, handles⟩
        ⟨receiver.leased producers, handles ++ [⟨checkpoint, incarnation, receiver.allocation + 1⟩]⟩ := by
  -- every entry is an old one or the new one
  have hcases : ∀ (i : Nat) (p : LedgerEntry), producers[i]? = some p →
      (i ≠ k ∧ receiver.producers[i]? = some p) ∨ (i = k ∧ p = ⟨checkpoint, receiver.allocation + 1⟩) := by
    intro i p hp
    by_cases hik : i = k
    · subst hik
      rw [hnew] at hp
      exact .inr ⟨rfl, (Option.some.inj hp).symm⟩
    · exact .inl ⟨hik, hold i p hik hp⟩
  have hmem : ∀ p ∈ producers, p ∈ receiver.producers ∨ p = ⟨checkpoint, receiver.allocation + 1⟩ := by
    intro p hp
    obtain ⟨i, hi⟩ := List.getElem?_of_mem hp
    rcases hcases i p hi with ⟨-, hi'⟩ | ⟨-, rfl⟩
    · exact .inl (List.mem_of_getElem? hi')
    · exact .inr rfl
  have hminted : ∀ generation, Minted receiver generation → Minted (receiver.leased producers) generation := by
    rintro generation ⟨a, ha, htext⟩
    exact ⟨a, Nat.le_succ_of_le ha, htext⟩
  have hleases := hs.leases
  have htaken := hs.taken
  refine ⟨⟨?_, ?_, ?_, ?_, ?_, fun r hr => hminted _ (hs.recorded r hr), ?_, hs.ids, hs.current⟩, ?_, ?_, ?_⟩
  · intro i j p q hp hq hsame
    rcases hcases i p hp with ⟨hi, hp'⟩ | ⟨rfl, rfl⟩ <;> rcases hcases j q hq with ⟨hj, hq'⟩ | ⟨rfl, rfl⟩
    · exact hs.distinct i j p q hp' hq' hsame
    · exact absurd hsame (halone i p hi hp')
    · exact absurd ⟨hsame.1.symm, hsame.2.symm⟩ (halone j q hj hq')
    · rfl
  · intro p hp
    change p.lease ≤ receiver.allocation + 1
    rcases hmem p hp with hp' | rfl
    · have hle := hleases p hp'
      simp only at hle
      omega
    · exact Nat.le_refl _
  · intro h hh
    change h.lease ≤ receiver.allocation + 1
    rw [List.mem_append, List.mem_singleton] at hh
    rcases hh with hh | rfl
    · have hle := htaken h hh
      simp only at hle
      omega
    · exact Nat.le_refl _
  · intro h hh p hp hsame
    rw [List.mem_append, List.mem_singleton] at hh
    rcases hmem p hp with hp' | rfl
    · rcases hh with hh | rfl
      · exact hs.fenced h hh p hp' hsame
      · -- an old entry of the new handle's producer can only be the entry replaced
        obtain ⟨i, hi⟩ := List.getElem?_of_mem hp
        rcases hcases i p hi with ⟨hik, hi'⟩ | ⟨-, rfl⟩
        · exact absurd hsame (halone i p hik hi')
        · exact Nat.le_refl _
    · change h.lease ≤ receiver.allocation + 1
      rcases hh with hh | rfl
      · have hle := htaken h hh
        simp only at hle
        omega
      · exact Nat.le_refl _
  · intro p hp
    rcases hmem p hp with hp' | rfl
    · exact hminted _ (hs.minted p hp')
    · rcases hgeneration with ⟨q, hq, rfl⟩ | htext
      · exact hminted _ (hs.minted q hq)
      · exact ⟨receiver.allocation + 1, Nat.le_refl _, htext⟩
  · intro r hr p hp hscope hproducer hgen
    rcases hmem p hp with hp' | rfl
    · exact hs.counted r hr p hp' hscope hproducer hgen
    · rcases hgeneration with ⟨q, hq, rfl⟩ | htext
      · exact hs.counted r hr q hq hscope hproducer hgen
      · -- the record's generation was minted at an earlier allocation
        obtain ⟨a, ha, htext'⟩ := hs.recorded r hr
        rw [← hgen] at htext'
        have heq := receiver.generationText_injective (htext.symm.trans htext')
        change a ≤ receiver.allocation at ha
        omega
  · intro i h hh
    refine ⟨h, ?_, ⟨rfl, rfl⟩, rfl⟩
    exact List.getElem?_append_left (List.getElem?_eq_some_iff.1 hh).1 ▸ hh
  · intro p hp
    obtain ⟨i, hi⟩ := List.getElem?_of_mem hp
    rcases hkept i p hi with hi' | hsame
    · exact ⟨p, List.mem_of_getElem? hi', ⟨rfl, rfl⟩, Nat.le_refl _⟩
    · have hle := hleases p hp
      exact ⟨_, List.mem_of_getElem? hnew, ⟨hsame.1.symm, hsame.2.symm⟩, Nat.le_succ_of_le hle⟩
  · intro i r hr
    exact ⟨r, hr, rfl, fun _ => rfl⟩

theorem keeps_start {session : ReceiverSession} (hs : Ledgered session) (gate : Except AccessError Unit)
    (scope : TrustedScope) (producer : ProducerId) (incarnation : ProducerIncarnation) :
    Ledgered (session.call (.start gate scope producer incarnation)).1 ∧
      Grown session (session.call (.start gate scope producer incarnation)).1 := by
  unfold call
  dsimp only
  rcases session.receiver.start_cases gate scope producer incarnation with ⟨e, he⟩ | ⟨generation, htext, hnew, hok⟩
  · rw [he]
    exact ⟨hs, Grown.refl session⟩
  · rw [hok]
    refine keeps_leased (k := session.receiver.producers.length) hs incarnation (by simp) ?_ ?_ ?_ (.inr htext)
    · intro i p hne hp
      rw [List.getElem?_append] at hp
      split at hp
      · exact hp
      · rename_i hge
        rw [List.getElem?_eq_none (by simp; omega)] at hp
        exact nomatch hp
    · intro i p hp
      have hlt := (List.getElem?_eq_some_iff.1 hp).1
      exact .inl (List.getElem?_append_left hlt ▸ hp)
    · intro i p _ hp hsame
      exact hnew p (List.mem_of_getElem? hp) hsame.1 hsame.2

theorem keeps_resume {session : ReceiverSession} (hs : Ledgered session) (gate : Except AccessError Unit)
    (restored : ProducerCheckpoint) (incarnation : ProducerIncarnation) :
    Ledgered (session.call (.resume gate restored incarnation)).1 ∧
      Grown session (session.call (.resume gate restored incarnation)).1 := by
  unfold call
  dsimp only
  rcases session.receiver.resume_cases gate restored incarnation with
    ⟨e, he⟩ | ⟨k, p, checkpoint, hp, hscope, hproducer, hscope', hproducer', hgeneration, hok⟩
  · rw [he]
    exact ⟨hs, Grown.refl session⟩
  · rw [hok]
    have hlt := (List.getElem?_eq_some_iff.1 hp).1
    have hsame : p.checkpoint.SameProducer checkpoint := ⟨hscope.trans hscope'.symm, hproducer.trans hproducer'.symm⟩
    refine keeps_leased (k := k) hs incarnation (List.getElem?_set_self hlt) ?_ ?_ ?_ ?_
    · intro i q hne hq
      rwa [List.getElem?_set_ne (Ne.symm hne)] at hq
    · intro i q hq
      by_cases hik : i = k
      · subst hik
        rw [hp] at hq
        cases hq
        exact .inr hsame
      · exact .inl ((List.getElem?_set_ne (Ne.symm hik)).trans hq)
    · intro i q hne hq hsame'
      exact hne (hs.distinct i k q p hq hp ⟨hsame'.1.trans hsame.1.symm, hsame'.2.trans hsame.2.symm⟩)
    · rcases hgeneration with heq | htext
      · exact .inl ⟨p, List.mem_of_getElem? hp, heq⟩
      · exact .inr htext

/-- A rebuild leaves the ledger and the records alone. -/
theorem keeps_rebuild {receiver : SyntheticReceiver} {handles : List Producer} (hs : Ledgered ⟨receiver, handles⟩)
    (bindings : List BindingContext) :
    Ledgered ⟨({ receiver with bindings := bindings } : SyntheticReceiver).rebuildCurrent, handles⟩ ∧
      Grown ⟨receiver, handles⟩
        ⟨({ receiver with bindings := bindings } : SyntheticReceiver).rebuildCurrent, handles⟩ := by
  refine ⟨⟨hs.distinct, hs.leases, hs.taken, hs.fenced, hs.minted, hs.recorded, hs.counted, hs.ids, rfl⟩, ?_⟩
  exact ⟨(Grown.refl ⟨receiver, handles⟩).handles, (Grown.refl ⟨receiver, handles⟩).entries,
    (Grown.refl ⟨receiver, handles⟩).records⟩

theorem reopen_eq {session : ReceiverSession} (hs : Ledgered session) : session.receiver.reopen = session.receiver := by
  have hcurrent := hs.current
  unfold SyntheticReceiver.reopen SyntheticReceiver.rebuildCurrent
  rw [← hcurrent]

theorem keeps_selectBinding {session : ReceiverSession} (hs : Ledgered session) (gate : Except AccessError Unit)
    (expected : Option BindingContext) (selected : BindingContext) :
    Ledgered (session.call (.selectBinding gate expected selected)).1 ∧
      Grown session (session.call (.selectBinding gate expected selected)).1 := by
  unfold call
  dsimp only
  rcases session.receiver.selectBinding_cases gate expected selected with ⟨e, he⟩ | hsame | ⟨bindings, hok⟩
  · rw [he]
    exact ⟨hs, Grown.refl session⟩
  · rw [hsame]
    exact ⟨hs, Grown.refl session⟩
  · rw [hok]
    exact keeps_rebuild hs bindings

/-- An entry after an emission is the one it was, but for the counter of the entry that emitted. -/
theorem recorded_entry {receiver : SyntheticReceiver} {index j : Nat} {p q : LedgerEntry} {producer : Producer}
    (hp : receiver.producers[index]? = some p) (hcheckpoint : p.checkpoint = producer.checkpoint)
    (observation : NormalizedObservation)
    (hq : (receiver.recorded index (producer.checkpoint.next + 1) observation).producers[j]? = some q) :
    ∃ q₀, receiver.producers[j]? = some q₀ ∧ q.checkpoint.SameProducer q₀.checkpoint ∧
      q.checkpoint.generation = q₀.checkpoint.generation ∧ q.lease = q₀.lease ∧
      q₀.checkpoint.next ≤ q.checkpoint.next ∧ (j = index → q.checkpoint.next = producer.checkpoint.next + 1) := by
  simp only [SyntheticReceiver.recorded, List.getElem?_modify, Option.map_eq_map, Option.map_eq_some_iff] at hq
  obtain ⟨q₀, hq₀, rfl⟩ := hq
  refine ⟨q₀, hq₀, ?_⟩
  by_cases hj : index = j
  · subst hj
    rw [hp] at hq₀
    cases hq₀
    have hnext : p.checkpoint.next = producer.checkpoint.next := by rw [hcheckpoint]
    refine ⟨by simp [ProducerCheckpoint.SameProducer], by simp, by simp, ?_, by simp⟩
    simp only [if_true]
    omega
  · simp only [if_neg hj]
    exact ⟨⟨rfl, rfl⟩, trivial, trivial, Nat.le_refl _, fun h => absurd h.symm hj⟩

/-- An emission: one counter and one handle advance together, and the record gets a position no record has. -/
theorem keeps_recorded {receiver : SyntheticReceiver} {handles : List Producer} (hs : Ledgered ⟨receiver, handles⟩)
    {index i : Nat} {p : LedgerEntry} {producer : Producer} {observation : NormalizedObservation}
    (hp : receiver.producers[index]? = some p) (hcheckpoint : p.checkpoint = producer.checkpoint)
    (hhandle : handles[i]? = some producer)
    (hid : observation.id = ⟨producer.checkpoint.scope, producer.checkpoint.producer,
      ⟨producer.checkpoint.generation, producer.checkpoint.next⟩⟩) :
    Ledgered ⟨receiver.recorded index (producer.checkpoint.next + 1) observation,
        handles.set i (SyntheticReceiver.advanced producer)⟩ ∧
      Grown ⟨receiver, handles⟩ ⟨receiver.recorded index (producer.checkpoint.next + 1) observation,
        handles.set i (SyntheticReceiver.advanced producer)⟩ := by
  have hentry := fun j q => recorded_entry (j := j) (q := q) hp hcheckpoint observation
  have hmem : ∀ h ∈ handles.set i (SyntheticReceiver.advanced producer), ∃ h₀ ∈ handles,
      h.checkpoint.SameProducer h₀.checkpoint ∧ h.lease = h₀.lease := by
    intro h hh
    rcases List.mem_or_eq_of_mem_set hh with hold | rfl
    · exact ⟨h, hold, ⟨rfl, rfl⟩, rfl⟩
    · exact ⟨producer, List.mem_of_getElem? hhandle, ⟨rfl, rfl⟩, rfl⟩
  have hsplit : ∀ r ∈ (receiver.recorded index (producer.checkpoint.next + 1) observation).records,
      r ∈ receiver.records ∨ r.observation = observation := by
    intro r hr
    simp only [SyntheticReceiver.recorded, List.mem_append, List.mem_singleton] at hr
    rcases hr with hr | rfl
    · exact .inl hr
    · exact .inr rfl
  refine ⟨⟨?_, ?_, ?_, ?_, ?_, ?_, ?_, ?_, ?_⟩, ?_, ?_, ?_⟩
  · intro j k q q' hq hq' hsame
    obtain ⟨q₀, hq₀, hto, -⟩ := hentry j q hq
    obtain ⟨q₀', hq₀', hto', -⟩ := hentry k q' hq'
    exact hs.distinct j k q₀ q₀' hq₀ hq₀'
      ⟨hto.1.symm.trans (hsame.1.trans hto'.1), hto.2.symm.trans (hsame.2.trans hto'.2)⟩
  · intro q hq
    obtain ⟨j, hj⟩ := List.getElem?_of_mem hq
    obtain ⟨q₀, hq₀, -, -, hlease, -⟩ := hentry j q hj
    rw [hlease]
    exact hs.leases q₀ (List.mem_of_getElem? hq₀)
  · intro h hh
    obtain ⟨h₀, hh₀, -, hlease⟩ := hmem h hh
    rw [hlease]
    exact hs.taken h₀ hh₀
  · intro h hh q hq hsame
    obtain ⟨h₀, hh₀, hto', hlease'⟩ := hmem h hh
    obtain ⟨j, hj⟩ := List.getElem?_of_mem hq
    obtain ⟨q₀, hq₀, hto, -, hlease, -⟩ := hentry j q hj
    rw [hlease, hlease']
    exact hs.fenced h₀ hh₀ q₀ (List.mem_of_getElem? hq₀)
      ⟨hto.1.symm.trans (hsame.1.trans hto'.1), hto.2.symm.trans (hsame.2.trans hto'.2)⟩
  · intro q hq
    obtain ⟨j, hj⟩ := List.getElem?_of_mem hq
    obtain ⟨q₀, hq₀, -, hgeneration, -⟩ := hentry j q hj
    rw [hgeneration]
    exact hs.minted q₀ (List.mem_of_getElem? hq₀)
  · intro r hr
    rcases hsplit r hr with hr | hr
    · exact hs.recorded r hr
    · have hminted := hs.minted p (List.mem_of_getElem? hp)
      rw [hcheckpoint] at hminted
      rw [hr, hid]
      exact hminted
  · intro r hr q hq hscope hproducer hgeneration
    obtain ⟨j, hj⟩ := List.getElem?_of_mem hq
    obtain ⟨q₀, hq₀, hto, hsameGeneration, -, hle, hadvanced⟩ := hentry j q hj
    rcases hsplit r hr with hr | hr
    · have hlt := hs.counted r hr q₀ (List.mem_of_getElem? hq₀) (hto.1.symm.trans hscope)
        (hto.2.symm.trans hproducer) (hsameGeneration.symm.trans hgeneration)
      omega
    · rw [hr, hid] at hscope hproducer ⊢
      have hsame : q₀.checkpoint.SameProducer p.checkpoint := by
        rw [hcheckpoint]
        exact ⟨hto.1.symm.trans hscope, hto.2.symm.trans hproducer⟩
      have hnext := hadvanced (hs.distinct j index q₀ p hq₀ hp hsame)
      change producer.checkpoint.next < q.checkpoint.next
      omega
  · have hfresh : observation.id ∉ receiver.records.map fun r => r.observation.id := by
      intro hin
      obtain ⟨r, hr, heq⟩ := List.mem_map.1 hin
      rw [hid] at heq
      have hlt := hs.counted r hr p (List.mem_of_getElem? hp) (by rw [hcheckpoint, heq]) (by rw [hcheckpoint, heq])
        (by rw [hcheckpoint, heq])
      rw [hcheckpoint, heq] at hlt
      exact absurd hlt (Nat.lt_irrefl _)
    have hids := hs.ids
    simp only [SyntheticReceiver.recorded, List.map_append, List.map_cons, List.map_nil]
    exact List.nodup_append.2 ⟨hids, List.nodup_singleton _, fun a ha b hb heq => by
      rw [List.mem_singleton] at hb
      rw [hb] at heq
      exact hfresh (heq ▸ ha)⟩
  · have hcurrent := hs.current
    simp only at hcurrent
    have hsame : SyntheticReceiver.SameBelow receiver.records.length
        (receiver.records ++ [⟨observation, observation.freshnessAtIngestion⟩]) receiver.records := by
      intro j hj
      rw [List.getElem?_append_left hj]
    simp only [SyntheticReceiver.recorded, List.length_append, List.length_singleton, Nat.add_sub_cancel]
    rw [SyntheticReceiver.currentOf_succ, SyntheticReceiver.currentOf_congr hsame, ← hcurrent]
  · intro j h hh
    by_cases hij : i = j
    · subst hij
      rw [hhandle] at hh
      cases hh
      exact ⟨_, List.getElem?_set_self (List.getElem?_eq_some_iff.1 hhandle).1, ⟨rfl, rfl⟩, rfl⟩
    · exact ⟨h, (List.getElem?_set_ne hij).trans hh, ⟨rfl, rfl⟩, rfl⟩
  · intro q hq
    obtain ⟨j, hj⟩ := List.getElem?_of_mem hq
    refine ⟨_, List.mem_of_getElem? (i := j) (a := if index = j then
      { q with checkpoint := { q.checkpoint with next := producer.checkpoint.next + 1 } } else q) ?_, ?_⟩
    · simp only [SyntheticReceiver.recorded, List.getElem?_modify, Option.map_eq_map, Option.map_eq_some_iff]
      exact ⟨q, hj, rfl⟩
    · by_cases hj : index = j
      · simp [hj, ProducerCheckpoint.SameProducer]
      · simp [hj, ProducerCheckpoint.SameProducer]
  · intro j r hr
    have hlt := (List.getElem?_eq_some_iff.1 hr).1
    exact ⟨r, (List.getElem?_append_left hlt).trans hr, rfl, fun _ => rfl⟩

/-- Reading a record changes its freshness only, and never back. -/
theorem keeps_refreshed {receiver : SyntheticReceiver} {handles : List Producer} (hs : Ledgered ⟨receiver, handles⟩)
    {index : Nat} {stored : Stored} (hstored : receiver.records[index]? = some stored) (assessed : Freshness) :
    Ledgered ⟨receiver.refreshed index stored (stored.freshness.retain assessed), handles⟩ ∧
      Grown ⟨receiver, handles⟩ ⟨receiver.refreshed index stored (stored.freshness.retain assessed), handles⟩ := by
  obtain ⟨hlt, hget⟩ := List.getElem?_eq_some_iff.1 hstored
  have hrecord : ∀ (i : Nat) (r : Stored), receiver.records[i]? = some r →
      ∃ r', (receiver.refreshed index stored (stored.freshness.retain assessed)).records[i]? = some r' ∧
        r'.observation = r.observation ∧ (r.freshness ≠ .fresh → r'.freshness = r.freshness) := by
    intro i r hr
    by_cases hi : index = i
    · subst hi
      rw [hstored] at hr
      cases hr
      exact ⟨_, List.getElem?_set_self hlt, rfl, fun hne => Freshness.retain_of_ne_fresh hne assessed⟩
    · exact ⟨r, (List.getElem?_set_ne hi).trans hr, rfl, fun _ => rfl⟩
  have hmem : ∀ r ∈ (receiver.refreshed index stored (stored.freshness.retain assessed)).records,
      ∃ r₀ ∈ receiver.records, r.observation = r₀.observation := by
    intro r hr
    rcases List.mem_or_eq_of_mem_set hr with hold | rfl
    · exact ⟨r, hold, rfl⟩
    · exact ⟨stored, List.mem_of_getElem? hstored, rfl⟩
  have hobservations : (receiver.refreshed index stored (stored.freshness.retain assessed)).records.map
      Stored.observation = receiver.records.map Stored.observation := by
    simp only [SyntheticReceiver.refreshed, List.map_set]
    rw [← hget, ← List.getElem_map Stored.observation (h := by simpa using hlt)]
    exact List.set_getElem_self _
  have hlength : (receiver.refreshed index stored (stored.freshness.retain assessed)).records.length =
      receiver.records.length := by simp [SyntheticReceiver.refreshed]
  have hsame : SyntheticReceiver.SameBelow receiver.records.length receiver.records
      (receiver.refreshed index stored (stored.freshness.retain assessed)).records := by
    intro i _
    rw [← List.getElem?_map, ← List.getElem?_map, hobservations]
  refine ⟨⟨hs.distinct, hs.leases, hs.taken, hs.fenced, hs.minted, ?_, ?_, ?_, ?_⟩,
    (Grown.refl ⟨receiver, handles⟩).handles, (Grown.refl ⟨receiver, handles⟩).entries, hrecord⟩
  · intro r hr
    obtain ⟨r₀, hr₀, hobs⟩ := hmem r hr
    rw [hobs]
    exact hs.recorded r₀ hr₀
  · intro r hr p hp
    obtain ⟨r₀, hr₀, hobs⟩ := hmem r hr
    rw [hobs]
    exact hs.counted r₀ hr₀ p hp
  · have hids := hs.ids
    have hmap : ∀ records : List Stored, (records.map fun r => r.observation.id) =
        (records.map Stored.observation).map NormalizedObservation.id := by
      intro records
      rw [List.map_map]
      rfl
    rw [hmap] at hids ⊢
    rwa [hobservations]
  · rw [hlength, ← SyntheticReceiver.currentOf_congr hsame]
    exact hs.current

theorem keeps_call {session : ReceiverSession} (hs : Ledgered session) (c : ReceiverCall) :
    Ledgered (session.call c).1 ∧ Grown session (session.call c).1 := by
  cases c with
  | start gate scope producer incarnation => exact keeps_start hs gate scope producer incarnation
  | resume gate restored incarnation => exact keeps_resume hs gate restored incarnation
  | selectBinding gate expected selected => exact keeps_selectBinding hs gate expected selected
  | emit gate handle pending =>
    unfold call
    dsimp only
    cases hhandle : session.producers[handle]? with
    | none => exact ⟨hs, Grown.refl session⟩
    | some producer =>
      dsimp only
      rcases session.receiver.emit_cases gate producer pending with
        ⟨e, he⟩ | ⟨index, p, observation, hp, hcheckpoint, -, hid, hok⟩
      · rw [he]
        have hset : session.producers.set handle producer = session.producers := by
          rw [← (List.getElem?_eq_some_iff.1 hhandle).2]
          exact List.set_getElem_self _
        rw [hset]
        exact ⟨hs, Grown.refl session⟩
      · rw [hok]
        exact keeps_recorded hs hp hcheckpoint hhandle hid
  | current gate scope key now =>
    unfold call
    dsimp only
    rcases session.receiver.readCurrent_cases gate scope key now with
      ⟨e, he⟩ | hnone | ⟨index, stored, freshness, suitability, hstored, hfreshness, hok⟩
    · rw [he]
      exact ⟨hs, Grown.refl session⟩
    · rw [hnone]
      exact ⟨hs, Grown.refl session⟩
    · rw [hok, hfreshness]
      exact keeps_refreshed hs hstored _
  | reopen =>
    unfold call
    dsimp only
    rw [reopen_eq hs]
    exact ⟨hs, Grown.refl session⟩

theorem run_append (session : ReceiverSession) (front back : List ReceiverCall) :
    session.run (front ++ back) = (session.run front).run back := by
  unfold run
  rw [List.foldl_append]

theorem keeps_run {session : ReceiverSession} (hs : Ledgered session) (calls : List ReceiverCall) :
    Ledgered (session.run calls) ∧ Grown session (session.run calls) := by
  induction calls generalizing session with
  | nil => exact ⟨hs, Grown.refl session⟩
  | cons c calls ih =>
    obtain ⟨hnext, hgrown⟩ := keeps_call hs c
    obtain ⟨hlast, hgrown'⟩ := ih hnext
    exact ⟨hlast, hgrown.trans hgrown'⟩

/-- A failed call changes neither the receiver nor a producer. -/
theorem call_failed {session : ReceiverSession} {c : ReceiverCall} {e : Error}
    (h : (session.call c).2 = .error e) : (session.call c).1 = session := by
  cases c with
  | start gate scope producer incarnation =>
    unfold call at h ⊢
    dsimp only at h ⊢
    rcases session.receiver.start_cases gate scope producer incarnation with ⟨e', he⟩ | ⟨_, -, -, hok⟩
    · rw [he]
      rfl
    · rw [hok] at h
      exact nomatch h
  | resume gate restored incarnation =>
    unfold call at h ⊢
    dsimp only at h ⊢
    rcases session.receiver.resume_cases gate restored incarnation with
      ⟨e', he⟩ | ⟨_, _, _, -, -, -, -, -, -, hok⟩
    · rw [he]
      rfl
    · rw [hok] at h
      exact nomatch h
  | selectBinding gate expected selected =>
    unfold call at h ⊢
    dsimp only at h ⊢
    rcases session.receiver.selectBinding_cases gate expected selected with ⟨e', he⟩ | hsame | ⟨_, hok⟩
    · rw [he]
    · rw [hsame] at h
      exact nomatch h
    · rw [hok] at h
      exact nomatch h
  | emit gate handle pending =>
    unfold call at h ⊢
    dsimp only at h ⊢
    cases hhandle : session.producers[handle]? with
    | none => rfl
    | some producer =>
      rw [hhandle] at h
      dsimp only at h ⊢
      rcases session.receiver.emit_cases gate producer pending with ⟨e', he⟩ | ⟨_, _, _, -, -, -, -, hok⟩
      · rw [he]
        have hset : session.producers.set handle producer = session.producers := by
          rw [← (List.getElem?_eq_some_iff.1 hhandle).2]
          exact List.set_getElem_self _
        dsimp only
        rw [hset]
      · rw [hok] at h
        exact nomatch h
  | current gate scope key now =>
    unfold call at h ⊢
    dsimp only at h ⊢
    rcases session.receiver.readCurrent_cases gate scope key now with
      ⟨e', he⟩ | hnone | ⟨_, _, _, _, -, -, hok⟩
    · rw [he]
    · rw [hnone] at h
      exact nomatch h
    · rw [hok] at h
      exact nomatch h
  | reopen => exact nomatch h

/-- A resume leaves its producer a lease above every handle there was. -/
theorem resumed_lease {session : ReceiverSession} {gate : Except AccessError Unit} {restored : ProducerCheckpoint}
    {incarnation : ProducerIncarnation} {reply : ReceiverReply}
    (h : (session.call (.resume gate restored incarnation)).2 = .ok reply) :
    ∃ q ∈ (session.call (.resume gate restored incarnation)).1.receiver.producers,
      q.checkpoint.SameProducer restored ∧ session.receiver.allocation < q.lease := by
  unfold call at h ⊢
  dsimp only at h ⊢
  rcases session.receiver.resume_cases gate restored incarnation with
    ⟨e, he⟩ | ⟨k, p, checkpoint, hp, -, -, hscope, hproducer, -, hok⟩
  · rw [he] at h
    exact nomatch h
  · rw [hok]
    have hlt := (List.getElem?_eq_some_iff.1 hp).1
    exact ⟨_, List.mem_of_getElem? (List.getElem?_set_self hlt), ⟨hscope, hproducer⟩, Nat.lt_succ_self _⟩

/-- A handle whose producer's lease went past its own does not emit. -/
theorem emit_fenced {session : ReceiverSession} (hs : Ledgered session) {handle : Nat} {producer : Producer}
    (hhandle : session.producers[handle]? = some producer) {q : LedgerEntry} (hq : q ∈ session.receiver.producers)
    (hsame : q.checkpoint.SameProducer producer.checkpoint) (hlease : producer.lease < q.lease)
    (gate : Except AccessError Unit) (pending : PendingObservation) :
    ∃ e, (session.call (.emit gate handle pending)).2 = .error e := by
  unfold call
  dsimp only
  rw [hhandle]
  dsimp only
  rcases session.receiver.emit_cases gate producer pending with
    ⟨e, he⟩ | ⟨index, p, observation, hp, hcheckpoint, heq, -, -⟩
  · rw [he]
    exact ⟨e, rfl⟩
  · obtain ⟨j, hj⟩ := List.getElem?_of_mem hq
    rw [← hcheckpoint] at hsame
    have hindex := hs.distinct j index q p hj hp hsame
    subst hindex
    rw [hp] at hj
    cases hj
    omega

/-- A `current` call that answers with a value. -/
def Reads (session : ReceiverSession) (gate : Except AccessError Unit) (scope : TrustedScope) (key : InstalledId)
    (now : ClockReading) (value : SyntheticReceiver.CurrentValue) : Prop :=
  (session.call (.current gate scope key now)).2 = .ok (.read (some value))

/-- A value that is read is a record's, and its freshness is kept with it. -/
theorem Reads.record {session : ReceiverSession} {gate : Except AccessError Unit} {scope : TrustedScope}
    {key : InstalledId} {now : ClockReading} {value : SyntheticReceiver.CurrentValue}
    (h : session.Reads gate scope key now value) :
    ∃ (index : Nat) (stored kept : Stored), session.receiver.records[index]? = some stored ∧
      (session.call (.current gate scope key now)).1.receiver.records[index]? = some kept ∧
      stored.observation = value.observation ∧ kept = ⟨value.observation, value.freshness⟩ ∧
      (stored.freshness ≠ .fresh → value.freshness = stored.freshness) := by
  unfold Reads at h
  unfold call at h ⊢
  dsimp only at h ⊢
  rcases session.receiver.readCurrent_cases gate scope key now with
    ⟨e, he⟩ | hnone | ⟨index, stored, freshness, suitability, hstored, hfreshness, hok⟩
  · rw [he] at h
    exact nomatch h
  · rw [hnone] at h
    exact nomatch h
  · rw [hok] at h ⊢
    cases h
    refine ⟨index, stored, _, hstored, List.getElem?_set_self (List.getElem?_eq_some_iff.1 hstored).1, rfl, rfl, ?_⟩
    intro hne
    rw [hfreshness]
    exact Freshness.retain_of_ne_fresh hne _

end ReceiverSession

open ReceiverSession

/-- The ledger of a receiver after any calls on it and the producers it returned. -/
structure ReceiverLedger (receiver : SyntheticReceiver) (calls : List ReceiverCall) : Prop where
  /-- No two records have one identity. -/
  identities : ((run ⟨receiver, []⟩ calls).receiver.records.map fun r => r.observation.id).Nodup
  /-- A producer held when its checkpoint was resumed never emits again. -/
  superseded : ∀ front gate restored incarnation back handle producer gate' pending reply,
    calls = front ++ .resume gate restored incarnation :: back →
    ((run ⟨receiver, []⟩ front).call (.resume gate restored incarnation)).2 = .ok reply →
    (run ⟨receiver, []⟩ front).producers[handle]? = some producer →
    producer.checkpoint.SameProducer restored →
    ∃ e, ((run ⟨receiver, []⟩ calls).call (.emit gate' handle pending)).2 = .error e
  /-- A failed call changes neither the receiver nor a producer. -/
  failed : ∀ c e, ((run ⟨receiver, []⟩ calls).call c).2 = .error e →
    ((run ⟨receiver, []⟩ calls).call c).1 = run ⟨receiver, []⟩ calls
  /-- The current table is the fold of `consider` over all records for the present bindings. -/
  folded : (run ⟨receiver, []⟩ calls).receiver.current =
    (List.range (run ⟨receiver, []⟩ calls).receiver.records.length).foldl
      (SyntheticReceiver.consider (run ⟨receiver, []⟩ calls).receiver.records
        (run ⟨receiver, []⟩ calls).receiver.bindings) []
  reopened : (run ⟨receiver, []⟩ calls).receiver.reopen = (run ⟨receiver, []⟩ calls).receiver
  /-- A record keeps its place and its content, and a freshness it lost is never found again. -/
  kept : ∀ front back (index : Nat) (record : Stored), calls = front ++ back →
    (run ⟨receiver, []⟩ front).receiver.records[index]? = some record →
    ∃ record', (run ⟨receiver, []⟩ calls).receiver.records[index]? = some record' ∧
      record'.observation = record.observation ∧
      (record.freshness ≠ .fresh → record'.freshness = record.freshness)
  /-- Once a record reads stale or unknown, it reads so ever after. -/
  sticky : ∀ front gate scope key now value back gate' scope' key' now' value',
    calls = front ++ .current gate scope key now :: back →
    (run ⟨receiver, []⟩ front).Reads gate scope key now value → value.freshness ≠ .fresh →
    (run ⟨receiver, []⟩ calls).Reads gate' scope' key' now' value' →
    value'.observation.id = value.observation.id → value'.freshness = value.freshness

/-- From a new receiver, whatever the calls and in whatever order. -/
theorem receiver_ledger {namespaceId : SourceGenerationId} {limit : Nat} {receiver : SyntheticReceiver}
    (hnew : SyntheticReceiver.new namespaceId limit = .ok receiver) (calls : List ReceiverCall) :
    ReceiverLedger receiver calls := by
  have hstart := ledgered_new hnew
  obtain ⟨hlast, -⟩ := keeps_run hstart calls
  refine ⟨hlast.ids, ?_, fun c e h => call_failed h, hlast.current, reopen_eq hlast, ?_, ?_⟩
  · intro front gate restored incarnation back handle producer gate' pending reply hcalls hok hhandle hsame
    obtain ⟨hfront, -⟩ := keeps_run hstart front
    obtain ⟨hresumed, hgrown⟩ := keeps_call hfront (.resume gate restored incarnation)
    obtain ⟨-, hgrown'⟩ := keeps_run hresumed back
    have hlater : run ⟨receiver, []⟩ calls =
        run ((run ⟨receiver, []⟩ front).call (.resume gate restored incarnation)).1 back := by
      rw [hcalls, run_append]
      rfl
    rw [hlater] at hlast ⊢
    obtain ⟨q, hq, hqsame, hlease⟩ := resumed_lease hok
    obtain ⟨q', hq', hqsame', hle⟩ := hgrown'.entries q hq
    obtain ⟨producer', hhandle', hsame', hlease'⟩ := (hgrown.trans hgrown').handles handle producer hhandle
    have htaken := hfront.taken producer (List.mem_of_getElem? hhandle)
    refine emit_fenced hlast hhandle' hq' ?_ (by omega) gate' pending
    have hscope := hqsame'.1.trans (hqsame.1.trans (hsame.1.symm.trans hsame'.1.symm))
    exact ⟨hscope, hqsame'.2.trans (hqsame.2.trans (hsame.2.symm.trans hsame'.2.symm))⟩
  · intro front back index record hcalls hrecord
    obtain ⟨hfront, -⟩ := keeps_run hstart front
    obtain ⟨-, hgrown⟩ := keeps_run hfront back
    rw [hcalls, run_append]
    exact hgrown.records index record hrecord
  · intro front gate scope key now value back gate' scope' key' now' value' hcalls hreads hne hreads' hid
    obtain ⟨hfront, -⟩ := keeps_run hstart front
    obtain ⟨hread, -⟩ := keeps_call hfront (.current gate scope key now)
    obtain ⟨-, hgrown⟩ := keeps_run hread back
    have hlater : run ⟨receiver, []⟩ calls =
        run ((run ⟨receiver, []⟩ front).call (.current gate scope key now)).1 back := by
      rw [hcalls, run_append]
      rfl
    rw [hlater] at hlast hreads'
    obtain ⟨index, -, kept, -, hkept, -, rfl, -⟩ := hreads.record
    obtain ⟨index', stored', -, hstored', -, hobs', -, hstays⟩ := hreads'.record
    obtain ⟨now'', hnow, hobs, hsticky⟩ := hgrown.records index _ hkept
    -- the two reads are of one record, since identities are distinct
    have hindex : index' = index := by
      have hlt := (List.getElem?_eq_some_iff.1 hstored').1
      have hlt' := (List.getElem?_eq_some_iff.1 hnow).1
      have hi : index' < (((run ⟨receiver, []⟩ front).call (.current gate scope key now)).1.run back |>.receiver.records.map
        fun r => r.observation.id).length := by simpa using hlt
      have hj : index < (((run ⟨receiver, []⟩ front).call (.current gate scope key now)).1.run back |>.receiver.records.map
        fun r => r.observation.id).length := by simpa using hlt'
      refine (@List.Nodup.getElem_inj_iff _ _ hlast.ids index' hi index hj).1 ?_
      rw [List.getElem_map, List.getElem_map, (List.getElem?_eq_some_iff.1 hstored').2,
        (List.getElem?_eq_some_iff.1 hnow).2, hobs', hobs, hid]
    subst hindex
    rw [hnow] at hstored'
    cases hstored'
    have hlost := hsticky hne
    have hne' : stored'.freshness ≠ .fresh := by
      rw [hlost]
      exact hne
    exact (hstays hne').trans hlost

/-- One producer, started and then resumed from the checkpoint it had. -/
theorem receiver_ledger_resumed :
    ReceiverLedger ⟨⟨"ns", by decide⟩, 0, 2, [], [], [], []⟩
      [.start (.ok ()) ⟨"site", by decide⟩ ⟨⟨"meter", by decide⟩⟩ ⟨⟨"boot-1", by decide⟩⟩,
        .resume (.ok ()) ⟨⟨"site", by decide⟩, ⟨⟨"meter", by decide⟩⟩, ⟨"ns:1", by decide⟩, 0⟩
          ⟨⟨"boot-2", by decide⟩⟩] :=
  @receiver_ledger ⟨"ns", by decide⟩ 2 _ (by decide) _

end Verdant.Observation
