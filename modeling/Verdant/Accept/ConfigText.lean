import Verdant.Accept.Effective
import Verdant.Library.Pointwise

/-!
# Configurations read back

What `decode` makes of the bytes of an assembled configuration.  An entry whose labels hold the separator is refused, one
whose mode is written as the absent mode comes back without it, and every other entry comes back as it was
(`Entry.decode_encode`); with facts within the limits of the reader the whole configuration follows its entries
(`decode_canonicalBytes_iff`).
-/

namespace Verdant.Accept

open TextCodec Storage Access Binding

/-! ### Entries -/

/-- What an assembled entry is known to be. -/
structure Entry.Admitted (scope : TrustedScope) (entry : Entry) : Prop where
  parts : FromParts entry.binding
  scope : entry.InScope scope
  source : entry.source = .domain ∨ entry.source = .temporaryIntent

/-- The binding without a mode that is written as the absent one. -/
def unmarked (b : ProposedBinding) : ProposedBinding := { b with mode := if b.modeText = "-" then none else b.mode }

/-- The entry as it is read. -/
def Entry.readBack (entry : Entry) : Entry := { entry with binding := unmarked entry.binding }

theorem modeText_unmarked (b : ProposedBinding) : (unmarked b).modeText = b.modeText := by
  unfold unmarked
  by_cases hdash : b.modeText = "-"
  · rw [if_pos hdash, hdash]
    rfl
  · rw [if_neg hdash]

theorem canonicalBytes_unmarked (b : ProposedBinding) : (unmarked b).canonicalBytes = b.canonicalBytes := by
  refine canonicalBytes_eq_iff.2 ⟨rfl, ?_⟩
  unfold ProposedBinding.labels
  rw [modeText_unmarked]
  rfl

theorem unmarked_eq_iff {b : ProposedBinding} : unmarked b = b ↔ ∀ mode ∈ b.mode, mode.asStr ≠ "-" := by
  constructor
  · intro h mode hmode hdash
    have hsome : b.mode = some mode := hmode
    have hmodes := congrArg ProposedBinding.mode h
    have hnone : (unmarked b).mode = none := by
      unfold unmarked
      exact if_pos (by rw [modeText_some hsome, hdash])
    rw [hnone, hsome] at hmodes
    exact nomatch hmodes
  · intro h
    unfold unmarked
    cases hmode : b.mode with
    | none => simp [← hmode]
    | some mode =>
      rw [if_neg (by rw [modeText_some hmode]; exact h mode hmode), ← hmode]

theorem utf8ByteSize_asStr_le (b : ProposedBinding) : b.endpointClass.asStr.utf8ByteSize ≤ 128 ∧
    b.requested.asStr.utf8ByteSize ≤ 128 ∧ b.effective.asStr.utf8ByteSize ≤ 128 ∧
      b.feedback.asStr.utf8ByteSize ≤ 128 ∧ b.status.asStr.utf8ByteSize ≤ 128 := by
  have hrole : ∀ role : BindingRole, role.asStr.utf8ByteSize ≤ 128 := by
    intro role
    cases role <;> decide
  refine ⟨?_, hrole _, hrole _, ?_, ?_⟩
  · cases b.endpointClass <;> decide
  · cases b.feedback with
    | absent => decide
    | single role => exact hrole role
    | ambiguous => decide
  · cases b.status <;> decide

/-- Fourteen parts of at most 128 bytes and their separators. -/
theorem utf8ByteSize_canonicalBytes_le {b : ProposedBinding} (hparts : FromParts b) :
    b.canonicalBytes.utf8ByteSize ≤ 1806 := by
  have hall : ∀ part ∈ canonicalParts b, part.utf8ByteSize + unitSep.utf8Size ≤ 129 := by
    obtain ⟨hclass, hrequested, heffective, hfeedback, hstatus⟩ := utf8ByteSize_asStr_le b
    have hversion : "binding-canonical-v2".utf8ByteSize ≤ 128 := by decide
    have hsep : unitSep.utf8Size = 1 := by decide
    unfold canonicalParts
    simp only [List.forall_mem_cons, List.not_mem_nil, false_implies, implies_true, and_true, hsep]
    exact ⟨Nat.succ_le_succ hversion, Nat.succ_le_succ b.endpoint.valid.2.1, Nat.succ_le_succ hclass,
      Nat.succ_le_succ b.endpointScope.valid.2.1, Nat.succ_le_succ b.pointEquipment.valid.2.1,
      Nat.succ_le_succ b.pointProperty.valid.2.1, Nat.succ_le_succ b.pointScope.valid.2.1,
      Nat.succ_le_succ b.source.valid.2.1, Nat.succ_le_succ (isLabel_of_parse_unit hparts.unit_parse).2,
      Nat.succ_le_succ (isLabel_modeText hparts).2, Nat.succ_le_succ hrequested, Nat.succ_le_succ heffective,
      Nat.succ_le_succ hfeedback, Nat.succ_le_succ hstatus⟩
  have hsum := List.sum_le_card_nsmul ((canonicalParts b).map fun f => f.utf8ByteSize + unitSep.utf8Size) 129
    (by simpa using hall)
  have hlength : ((canonicalParts b).map fun f => f.utf8ByteSize + unitSep.utf8Size).length = 14 := by
    rw [List.length_map]
    rfl
  rw [hlength, smul_eq_mul] at hsum
  rw [canonicalBytes_eq]
  exact Nat.le_trans (utf8ByteSize_joinText_le _ _) hsum

namespace Entry

variable {entry : Entry}

theorem encode_readBack (entry : Entry) : entry.readBack.encode = entry.encode := by
  unfold encode readBack
  rw [canonicalBytes_unmarked]

theorem utf8ByteSize_encode_le (hparts : FromParts entry.binding) : entry.encode.utf8ByteSize ≤ 4096 := by
  have hkey := Seal.utf8ByteSize_frame_le (k := 3) (by decide) entry.key.valid.2.1 (by decide)
  have hlabel := Seal.utf8ByteSize_frame_le (k := 3) (by decide) entry.inert.2.1 (by decide)
  have hbinding := Seal.utf8ByteSize_frame_le (k := 4) (by decide) (utf8ByteSize_canonicalBytes_le hparts) (by decide)
  have hsource : entry.source.asStr.utf8ByteSize ≤ 16 := by cases entry.source <;> decide
  have hsource := Seal.utf8ByteSize_frame_le (k := 2) (by decide) hsource (by decide)
  have hmax : maxIdLen = 128 := rfl
  unfold encode
  rw [encode_eq_seal, Seal.utf8ByteSize_encode]
  simp only [List.map_cons, List.map_nil, List.sum_cons, List.sum_nil]
  omega

theorem ofEntry_asStr (h : entry.source = .domain ∨ entry.source = .temporaryIntent) :
    SourceKind.ofEntry entry.source.asStr = .ok entry.source := by
  rcases h with h | h
  · rw [h]
    rfl
  · rw [h]
    rfl

/-- The frame of an entry reads as its four fields. -/
theorem decode_frame (hparts : FromParts entry.binding) : Accept.decode entry.encode 4096 4 =
    .ok [entry.key.text, entry.label, entry.source.asStr, entry.binding.canonicalBytes] :=
  Accept.decode_encode (utf8ByteSize_encode_le hparts) (by simp) (by decide)

/-- An entry without a further separator is read, but for a mode that is written as the absent one. -/
theorem decode_encode {scope : TrustedScope} (h : entry.Admitted scope) (huncut : Uncut entry.binding) :
    decode entry.encode = .ok entry.readBack := by
  have hnew : new entry.key entry.label (unmarked entry.binding) =
      .ok ⟨entry.key, entry.label, entry.inert, unmarked entry.binding, .domain⟩ := dif_pos entry.inert
  unfold decode
  rw [decode_frame h.parts]
  simp only [Result.ok_bind, decodeCanonical_uncut (AcceptError.invalid "binding version") AcceptError.binding h.parts huncut,
    parse_installed, Except.mapError]
  show (new entry.key entry.label (unmarked entry.binding) >>= _) = _
  rw [hnew]
  simp only [Result.ok_bind, ofEntry_asStr h.source]
  exact if_neg (not_not.2 (encode_readBack entry))

theorem decode_cut (hparts : FromParts entry.binding) (hcut : ¬ Uncut entry.binding) :
    decode entry.encode = .error (.invalid "binding version") := by
  unfold decode
  rw [decode_frame hparts]
  simp only [Result.ok_bind, decodeCanonical_cut (AcceptError.invalid "binding version") AcceptError.binding hcut,
    Result.error_bind]

end Entry

/-! ### Maps -/

namespace EffectiveConfig

theorem decodeEntries_encode {scope : TrustedScope} {map : EntryMap} {entries : List Entry}
    (horder : InKeyOrder (map.entries ++ entries)) (hadmitted : ∀ e ∈ entries, e.Admitted scope)
    (huncut : ∀ e ∈ entries, Uncut e.binding) :
    ∃ read : EntryMap, decodeEntries scope map (entries.map Entry.encode) = .ok read ∧
      read.entries = map.entries ++ entries.map Entry.readBack := by
  induction entries generalizing map with
  | nil => exact ⟨map, rfl, (List.append_nil _).symm⟩
  | cons entry rest ih =>
    obtain ⟨hmap, hrest, hcross⟩ := List.pairwise_append.1 horder
    have hentry := hadmitted entry List.mem_cons_self
    have hpast : ∀ e ∈ map.entries, e.key.text < entry.readBack.key.text :=
      fun e he => hcross e he entry List.mem_cons_self
    have hfresh : ¬ (¬ entry.readBack.InScope scope ∨ map.contains entry.readBack.key = true) := by
      rintro (hscope | hcontains)
      · exact hscope hentry.scope
      · obtain ⟨e, he, hkey⟩ := EntryMap.contains_eq_true.1 hcontains
        exact absurd hkey (ne_of_lt (hpast e he))
    have hinsert : (map.insert entry.readBack).entries = map.entries ++ [entry.readBack] := putEntry_last hpast
    have hnext : InKeyOrder ((map.insert entry.readBack).entries ++ rest) := by
      rw [hinsert, List.append_assoc]
      refine List.pairwise_append.2 ⟨hmap, ?_, ?_⟩
      · obtain ⟨hfirst, htail⟩ := List.pairwise_cons.1 hrest
        exact List.Pairwise.cons hfirst htail
      · intro a ha b hb
        rcases List.mem_cons.1 hb with rfl | hb
        · exact hpast a ha
        · exact hcross a ha b (List.mem_cons_of_mem _ hb)
    obtain ⟨read, hread, hentries⟩ := ih hnext (fun e he => hadmitted e (List.mem_cons_of_mem _ he))
      fun e he => huncut e (List.mem_cons_of_mem _ he)
    refine ⟨read, ?_, ?_⟩
    · rw [List.map_cons, decodeEntries, Entry.decode_encode hentry (huncut entry List.mem_cons_self), Result.ok_bind,
        if_neg hfresh]
      exact hread
    · rw [hentries, hinsert, List.append_assoc]
      rfl

theorem decodeEntries_cut {scope : TrustedScope} {map : EntryMap} {entries : List Entry}
    (hparts : ∀ e ∈ entries, FromParts e.binding) (hcut : ∃ e ∈ entries, ¬ Uncut e.binding) :
    ∃ error, decodeEntries scope map (entries.map Entry.encode) = .error error := by
  induction entries generalizing map with
  | nil =>
    obtain ⟨e, he, -⟩ := hcut
    exact nomatch he
  | cons entry rest ih =>
    rw [List.map_cons, decodeEntries]
    cases hread : Entry.decode entry.encode with
    | error error => exact ⟨error, rfl⟩
    | ok read =>
      rw [Result.ok_bind]
      split
      · exact ⟨_, rfl⟩
      · refine ih (fun e he => hparts e (List.mem_cons_of_mem _ he)) ?_
        obtain ⟨e, he, hbad⟩ := hcut
        rcases List.mem_cons.1 he with rfl | he
        · rw [Entry.decode_cut (hparts e List.mem_cons_self) hbad] at hread
          exact nomatch hread
        · exact ⟨e, he, hbad⟩

/-! ### Configurations -/

/-- What an assembled configuration is known to be. -/
structure Admitted (config : EffectiveConfig) : Prop where
  entries : ∀ e ∈ config.entries.entries, e.Admitted config.scope
  nonempty : config.entries.entries ≠ []
  few : config.entries.entries.length ≤ 32
  small : config.canonicalBytes.utf8ByteSize ≤ maxConfigBytes

/-- The facts are within the limits of the reader. -/
structure FactsFit (config : EffectiveConfig) : Prop where
  few : config.facts.length ≤ 256
  short : ∀ fact ∈ config.facts, fact.encode.utf8ByteSize ≤ 4096

/-- Every entry and every fact is read as it is written. -/
structure ReadsBack (config : EffectiveConfig) : Prop where
  labels : ∀ e ∈ config.entries.entries, LabelsRead e.binding
  facts : FactsFit config

theorem mapM_facts {facts : List ObservedFact} (h : ∀ fact ∈ facts, fact.encode.utf8ByteSize ≤ 4096) :
    (facts.map ObservedFact.encode).mapM ObservedFact.decode = .ok facts := by
  rw [Result.mapM_eq_ok, List.forall₂_map_left_iff]
  refine List.forall₂_same.2 fun fact hfact => ?_
  exact ObservedFact.decode_encode (h fact hfact)

theorem short_of_mapM {facts out : List ObservedFact}
    (h : (facts.map ObservedFact.encode).mapM ObservedFact.decode = .ok out) :
    ∀ fact ∈ facts, fact.encode.utf8ByteSize ≤ 4096 := by
  intro fact hfact
  by_contra hlong
  obtain ⟨error, herror⟩ := ObservedFact.decode_long (Nat.lt_of_not_le hlong)
  rw [Result.mapM_eq_ok, List.forall₂_map_left_iff] at h
  obtain ⟨read, -, hread⟩ := Pointwise.exists_right h hfact
  rw [herror] at hread
  exact nomatch hread

variable {config : EffectiveConfig}

/-- The parts of a small configuration are small. -/
theorem Admitted.small_parts (h : config.Admitted) :
    (encode (config.entries.entries.map Entry.encode)).utf8ByteSize ≤ maxConfigBytes ∧
      (encode (config.facts.map ObservedFact.encode)).utf8ByteSize ≤ maxConfigBytes := by
  have hsmall := h.small
  unfold canonicalBytes at hsmall
  exact ⟨Nat.le_trans (utf8ByteSize_le_encodeFrames (by simp)) hsmall,
    Nat.le_trans (utf8ByteSize_le_encodeFrames (by simp)) hsmall⟩

theorem Admitted.decode_frame (h : config.Admitted) : Accept.decode config.canonicalBytes maxConfigBytes 6 =
    .ok ["verdant-effective-v1", config.scope.text, Nat.repr config.bindingRevision.value.toNat, config.bootstrapReason,
      encode (config.entries.entries.map Entry.encode), encode (config.facts.map ObservedFact.encode)] :=
  Accept.decode_encode h.small (by simp) (by decide)

/-- The bytes of a configuration with whole labels and fitting facts read as the configuration of the entries read. -/
theorem Admitted.decode_whole (h : config.Admitted) (huncut : ∀ e ∈ config.entries.entries, Uncut e.binding)
    (hfacts : config.FactsFit) : ∃ read : EntryMap, decode config.canonicalBytes = .ok { config with entries := read } ∧
      read.entries = config.entries.entries.map Entry.readBack := by
  obtain ⟨read, hread, hentries⟩ : ∃ read : EntryMap,
      decodeEntries config.scope .empty (config.entries.entries.map Entry.encode) = .ok read ∧
        read.entries = config.entries.entries.map Entry.readBack :=
    decodeEntries_encode config.entries.ordered h.entries huncut
  refine ⟨read, ?_, hentries⟩
  have hbytes : ({ config with entries := read } : EffectiveConfig).canonicalBytes = config.canonicalBytes := by
    have hmap : (config.entries.entries.map Entry.readBack).map Entry.encode = config.entries.entries.map Entry.encode := by
      rw [List.map_map]
      exact List.map_congr_left fun e _ => Entry.encode_readBack e
    unfold canonicalBytes
    rw [hentries, hmap]
  have hnonempty : read.entries ≠ [] := by
    rw [hentries]
    exact fun hnil => h.nonempty (List.map_eq_nil_iff.1 hnil)
  obtain ⟨hsmallEntries, hsmallFacts⟩ := h.small_parts
  have hraws : Accept.decode (encode (config.entries.entries.map Entry.encode)) maxConfigBytes 32 = .ok _ :=
    Accept.decode_encode hsmallEntries (by simpa using h.few) (by decide)
  have hfactRaws : Accept.decode (encode (config.facts.map ObservedFact.encode)) maxConfigBytes 256 = .ok _ :=
    Accept.decode_encode hsmallFacts (by simpa using hfacts.few) (by decide)
  unfold decode
  rw [h.decode_frame]
  simp only [Result.ok_bind, ne_eq, not_true_eq_false, if_false, parse_scope, Except.mapError, numberU32_repr, hraws,
    hread, if_neg hnonempty, hfactRaws, mapM_facts hfacts.short]
  exact if_neg (not_not.2 hbytes)

/-- Bytes that are read had whole labels and fitting facts. -/
theorem Admitted.whole_of_decode (h : config.Admitted) {read : EffectiveConfig}
    (hread : decode config.canonicalBytes = .ok read) :
    (∀ e ∈ config.entries.entries, Uncut e.binding) ∧ config.FactsFit := by
  unfold decode at hread
  rw [h.decode_frame] at hread
  simp only [Result.ok_bind, ne_eq, not_true_eq_false, if_false, parse_scope, Except.mapError, numberU32_repr] at hread
  obtain ⟨raws, hraws, hread⟩ := Result.bind_eq_ok.1 hread
  obtain ⟨entries, hentries, hread⟩ := Result.bind_eq_ok.1 hread
  split at hread
  · exact nomatch hread
  obtain ⟨factRaws, hfactRaws, hread⟩ := Result.bind_eq_ok.1 hread
  obtain ⟨facts, hfacts, -⟩ := Result.bind_eq_ok.1 hread
  obtain ⟨hsameRaws, -, -⟩ := (Accept.decode_eq_ok (by decide)).1 hraws
  obtain ⟨hsameFacts, -, hfew⟩ := (Accept.decode_eq_ok (by decide)).1 hfactRaws
  cases encodeFrames_injective hsameRaws
  cases encodeFrames_injective hsameFacts
  rw [List.length_map] at hfew
  refine ⟨fun e he => ?_, hfew, short_of_mapM hfacts⟩
  by_contra hcut
  obtain ⟨error, herror⟩ : ∃ error, decodeEntries config.scope .empty (config.entries.entries.map Entry.encode) =
      .error error := decodeEntries_cut (fun e he => (h.entries e he).parts) ⟨e, he, hcut⟩
  rw [herror] at hentries
  exact nomatch hentries

/-- A configuration is decoded from its bytes exactly when its entries and facts are read as they are written. -/
theorem decode_canonicalBytes_iff (h : config.Admitted) :
    decode config.canonicalBytes = .ok config ↔ config.ReadsBack := by
  constructor
  · intro hread
    obtain ⟨huncut, hfacts⟩ := h.whole_of_decode hread
    obtain ⟨read, hdecode, hentries⟩ := h.decode_whole huncut hfacts
    rw [hread, Except.ok.injEq] at hdecode
    have hsame : config.entries.entries = config.entries.entries.map Entry.readBack := by
      rw [← hentries]
      exact congrArg (fun c => c.entries.entries) hdecode
    refine ⟨fun e he => ⟨huncut e he, ?_⟩, hfacts⟩
    have hmapped : config.entries.entries.map id = config.entries.entries.map Entry.readBack := by
      rw [List.map_id]
      exact hsame
    have hback : e.readBack = e := (List.map_inj_left.1 hmapped e he).symm
    exact unmarked_eq_iff.1 (congrArg Entry.binding hback)
  · intro hreads
    obtain ⟨read, hdecode, hentries⟩ := h.decode_whole (fun e he => (hreads.labels e he).uncut) hreads.facts
    have hsame : config.entries.entries.map Entry.readBack = config.entries.entries := by
      rw [List.map_congr_left fun e he => ?_, List.map_id]
      unfold Entry.readBack
      rw [unmarked_eq_iff.2 (hreads.labels e he).marked]
      rfl
    have hmap : read = config.entries := by
      cases read
      cases hc : config.entries
      rw [hc] at hentries hsame
      simp only at hentries
      congr 1
      rw [hentries, hsame]
    rw [hdecode, hmap]

/-! ### Assembling -/

/-- What one entry does: it is in scope and takes its place in the map; an intent takes the place of another entry. -/
theorem addEntry_eq_ok {source : SourceKind} {scope : TrustedScope} {state next : List String × EntryMap} {entry : Entry}
    (h : addEntry source scope state entry = .ok next) :
    entry.InScope scope ∧ next.2 = state.2.insert { entry with source := source } ∧
      (source = .temporaryIntent → next.2.entries.length = state.2.entries.length) := by
  unfold addEntry at h
  obtain ⟨-, h⟩ := Result.ite_error_eq_ok.1 h
  obtain ⟨hintent, h⟩ := Result.ite_error_eq_ok.1 h
  obtain ⟨hscope, h⟩ := Result.ite_error_eq_ok.1 h
  cases h
  refine ⟨not_not.1 hscope, rfl, fun hsource => ?_⟩
  have hcontains : state.2.contains entry.key = true := by
    by_contra hnone
    exact hintent ⟨hsource, by simpa using hnone⟩
  exact (length_putEntry _ _).2 state.2.ordered (EntryMap.contains_eq_true.1 hcontains)

/-- The map after the entries of a source. -/
theorem foldlM_addEntry {source : SourceKind} {scope : TrustedScope} {state next : List String × EntryMap}
    {items : List Entry} (hsource : source = .domain ∨ source = .temporaryIntent)
    (hitems : ∀ e ∈ items, FromParts e.binding) (hstate : ∀ e ∈ state.2.entries, e.Admitted scope)
    (h : items.foldlM (addEntry source scope) state = .ok next) :
    (∀ e ∈ next.2.entries, e.Admitted scope) ∧ next.2.entries.length ≤ state.2.entries.length + items.length ∧
      (source = .temporaryIntent → next.2.entries.length = state.2.entries.length) := by
  induction items generalizing state with
  | nil =>
    cases h
    exact ⟨hstate, Nat.le_add_right _ _, fun _ => rfl⟩
  | cons entry rest ih =>
    rw [List.foldlM_cons] at h
    obtain ⟨middle, hfirst, h⟩ := Result.bind_eq_ok.1 h
    obtain ⟨hscope, hmiddle, hlength⟩ := addEntry_eq_ok hfirst
    have hadmitted : ∀ e ∈ middle.2.entries, e.Admitted scope := by
      intro e he
      rw [hmiddle] at he
      rcases mem_putEntry he with rfl | he
      · exact ⟨hitems entry List.mem_cons_self, hscope, hsource⟩
      · exact hstate e he
    have hone : middle.2.entries.length ≤ state.2.entries.length + 1 := by
      rw [hmiddle]
      exact (length_putEntry _ _).1
    obtain ⟨hnext, hcount, hsame⟩ := ih (fun e he => hitems e (List.mem_cons_of_mem _ he)) hadmitted h
    refine ⟨hnext, ?_, fun hintent => (hsame hintent).trans (hlength hintent)⟩
    rw [List.length_cons]
    omega

theorem admitted_of_assemble {scope : TrustedScope} {memory : Memory} {reason : String} {domain intent : List Entry}
    {config : EffectiveConfig} (hparts : ∀ e ∈ domain ++ intent, FromParts e.binding)
    (h : assemble scope memory reason domain intent = .ok config) : config.Admitted := by
  unfold assemble at h
  obtain ⟨first, hfirst, h⟩ := Result.bind_eq_ok.1 h
  obtain ⟨entries, hsecond, h⟩ := Result.bind_eq_ok.1 h
  obtain ⟨hnonempty, h⟩ := Result.ite_error_eq_ok.1 h
  obtain ⟨hsmall, h⟩ := Result.ite_error_eq_ok.1 h
  cases h
  unfold addEntries at hfirst hsecond
  obtain ⟨hlong, hfirst⟩ := Result.ite_error_eq_ok.1 hfirst
  obtain ⟨-, hsecond⟩ := Result.ite_error_eq_ok.1 hsecond
  obtain ⟨s, hs, hdone⟩ := Result.bind_eq_ok.1 hfirst
  obtain ⟨t, ht, hdone'⟩ := Result.bind_eq_ok.1 hsecond
  obtain rfl : s.2 = first := Except.ok.inj hdone
  obtain rfl : t.2 = entries := Except.ok.inj hdone'
  have hempty : ∀ e ∈ (([], .empty) : List String × EntryMap).2.entries, e.Admitted scope := fun _ he =>
    absurd he List.not_mem_nil
  obtain ⟨hadmitted, hcount, -⟩ := foldlM_addEntry (.inl rfl) (fun e he => hparts e (List.mem_append_left _ he)) hempty hs
  have hsecondary : ∀ e ∈ (([], s.2) : List String × EntryMap).2.entries, e.Admitted scope := hadmitted
  obtain ⟨hall, -, hsame⟩ := foldlM_addEntry (.inr rfl) (fun e he => hparts e (List.mem_append_right _ he)) hsecondary ht
  have hnone : EntryMap.empty.entries.length = 0 := rfl
  have hkept := hsame rfl
  have hfew : t.2.entries.length ≤ 32 := by
    simp only at hcount hkept
    omega
  exact ⟨hall, hnonempty, hfew, Nat.le_of_not_lt hsmall⟩

end EffectiveConfig

end Verdant.Accept
