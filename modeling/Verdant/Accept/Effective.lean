import Verdant.Accept.Codec
import Verdant.Binding.CanonicalBytes
import Verdant.Binding.Registry
import Verdant.Seal.References

/-!
# Effective configurations

A configuration joins the bindings of named keys with the bootstrap reason and the findings they were read with.  `assemble`
admits the entries of the domain and of the temporary intent by one set of rules; `decode` reads them back by another.
-/

namespace Verdant.Accept

open TextCodec Storage Access Binding

inductive SourceKind where
  | bootstrap
  | domain
  | temporaryIntent
  | observedFact
  deriving DecidableEq, Repr

def SourceKind.asStr : SourceKind → String
  | .bootstrap => "bootstrap"
  | .domain => "domain"
  | .temporaryIntent => "temporary-intent"
  | .observedFact => "observed-fact"

/-- The source a stored entry names. -/
def SourceKind.ofEntry (raw : String) : Except AcceptError SourceKind :=
  if raw = "domain" then .ok .domain
  else if raw = "temporary-intent" then .ok .temporaryIntent
  else .error (.invalid "meaning source")

/-! ### Entries -/

/-- Stable configuration key with its label and its binding. -/
structure Entry where
  key : InstalledId
  label : String
  inert : Seal.IsInert label
  binding : ProposedBinding
  source : SourceKind
  deriving DecidableEq

namespace Entry

def new (key : InstalledId) (label : String) (binding : ProposedBinding) : Except AcceptError Entry :=
  if h : Seal.IsInert label then .ok ⟨key, label, h, binding, .domain⟩
  else .error (.invalid "configuration label")

def encode (entry : Entry) : String :=
  Accept.encode [entry.key.text, entry.label, entry.source.asStr, entry.binding.canonicalBytes]

def decode (raw : String) : Except AcceptError Entry := do
  match ← Accept.decode raw 4096 4 with
  | [keyText, label, sourceText, canonical] =>
    let binding ← decodeCanonical (.invalid "binding version") AcceptError.binding canonical
    let key ← (InstalledId.parse keyText).mapError fun _ => .invalid "entry key"
    let entry ← new key label binding
    let source ← SourceKind.ofEntry sourceText
    let entry := { entry with source := source }
    if entry.encode ≠ raw then .error (.invalid "noncanonical entry") else .ok entry
  | _ => .error (.invalid "entry fields")

/-- The entry is in a scope at both ends. -/
def InScope (scope : TrustedScope) (entry : Entry) : Prop :=
  entry.binding.pointScope = scope ∧ entry.binding.endpointScope = scope

instance (scope : TrustedScope) (entry : Entry) : Decidable (entry.InScope scope) := by
  unfold InScope
  infer_instance

end Entry

/-! ### Maps of entries -/

/-- Inserts in key order, in the place of an entry of the same key. -/
def putEntry (entry : Entry) : List Entry → List Entry
  | [] => [entry]
  | e :: rest =>
    if entry.key.text < e.key.text then entry :: e :: rest
    else if entry.key.text = e.key.text then entry :: rest
    else e :: putEntry entry rest

/-- Entries in the order of their keys. -/
def InKeyOrder (entries : List Entry) : Prop := entries.Pairwise fun a b => a.key.text < b.key.text

theorem mem_putEntry {entry e : Entry} {entries : List Entry} (h : e ∈ putEntry entry entries) :
    e = entry ∨ e ∈ entries := by
  induction entries with
  | nil => exact .inl (List.mem_singleton.1 h)
  | cons first rest ih =>
    unfold putEntry at h
    split at h
    · exact List.mem_cons.1 h
    split at h
    · rcases List.mem_cons.1 h with rfl | h
      · exact .inl rfl
      · exact .inr (List.mem_cons_of_mem _ h)
    · rcases List.mem_cons.1 h with rfl | h
      · exact .inr List.mem_cons_self
      · exact (ih h).imp_right fun hmem => List.mem_cons_of_mem _ hmem

theorem inKeyOrder_putEntry {entry : Entry} {entries : List Entry} (h : InKeyOrder entries) :
    InKeyOrder (putEntry entry entries) := by
  induction entries with
  | nil => exact List.pairwise_singleton _ _
  | cons first rest ih =>
    obtain ⟨hfirst, hrest⟩ := List.pairwise_cons.1 h
    unfold putEntry
    split
    · rename_i hlt
      refine List.Pairwise.cons (fun e he => ?_) h
      rcases List.mem_cons.1 he with rfl | he
      · exact hlt
      · exact lt_trans hlt (hfirst e he)
    split
    · rename_i hsame
      refine List.Pairwise.cons (fun e he => ?_) hrest
      rw [hsame]
      exact hfirst e he
    · rename_i hge hne
      refine List.Pairwise.cons (fun e he => ?_) (ih hrest)
      rcases mem_putEntry he with rfl | he
      · exact lt_of_le_of_ne (not_lt.1 hge) (Ne.symm hne)
      · exact hfirst e he

/-- A key past all others goes to the end. -/
theorem putEntry_last {entry : Entry} {entries : List Entry} (h : ∀ e ∈ entries, e.key.text < entry.key.text) :
    putEntry entry entries = entries ++ [entry] := by
  induction entries with
  | nil => rfl
  | cons first rest ih =>
    have hfirst := h first List.mem_cons_self
    unfold putEntry
    rw [if_neg (not_lt_of_gt hfirst), if_neg (ne_of_gt hfirst), ih fun e he => h e (List.mem_cons_of_mem _ he)]
    rfl

/-- A key that is there is replaced. -/
theorem length_putEntry (entry : Entry) (entries : List Entry) :
    (putEntry entry entries).length ≤ entries.length + 1 ∧
      (InKeyOrder entries → (∃ e ∈ entries, e.key.text = entry.key.text) →
        (putEntry entry entries).length = entries.length) := by
  induction entries with
  | nil => exact ⟨Nat.le_refl _, fun _ ⟨e, he, _⟩ => nomatch he⟩
  | cons first rest ih =>
    unfold putEntry
    split
    · rename_i hlt
      refine ⟨Nat.le_refl _, fun horder ⟨e, he, hkey⟩ => ?_⟩
      -- the key would be smaller than every key of the map
      rcases List.mem_cons.1 he with rfl | he
      · exact absurd hkey (ne_of_gt hlt)
      · exact absurd hkey (ne_of_gt (lt_trans hlt ((List.pairwise_cons.1 horder).1 e he)))
    split
    · exact ⟨Nat.le_succ _, fun _ _ => rfl⟩
    · rename_i hne
      simp only [List.length_cons]
      refine ⟨by omega, fun horder ⟨e, he, hkey⟩ => ?_⟩
      rcases List.mem_cons.1 he with rfl | he
      · exact absurd hkey.symm hne
      · rw [ih.2 (List.pairwise_cons.1 horder).2 ⟨e, he, hkey⟩]

/-- `BTreeMap<String, Entry>`. -/
structure EntryMap where
  entries : List Entry
  ordered : InKeyOrder entries
  deriving DecidableEq

namespace EntryMap

def empty : EntryMap := ⟨[], List.Pairwise.nil⟩

def insert (map : EntryMap) (entry : Entry) : EntryMap := ⟨putEntry entry map.entries, inKeyOrder_putEntry map.ordered⟩

def contains (map : EntryMap) (key : InstalledId) : Bool := map.entries.any fun e => e.key.text = key.text

theorem contains_eq_true {map : EntryMap} {key : InstalledId} :
    map.contains key = true ↔ ∃ e ∈ map.entries, e.key.text = key.text := by
  unfold contains
  simp

end EntryMap

/-! ### Facts -/

/-- The citation of one finding. -/
structure ObservedFact where
  id : FindingId
  generation : UInt32
  actor : String
  digest : String
  deriving DecidableEq

namespace ObservedFact

def ofFinding (finding : Finding) : ObservedFact :=
  ⟨finding.id, finding.generation, finding.actorReference, finding.digest⟩

def encode (fact : ObservedFact) : String :=
  Accept.encode [fact.id.text, Nat.repr fact.generation.toNat, fact.actor, fact.digest]

def decode (raw : String) : Except AcceptError ObservedFact := do
  match ← Accept.decode raw 4096 4 with
  | [idText, generation, actor, digest] =>
    let id ← (FindingId.parse idText).mapError AcceptError.binding
    let generation ← numberU32 generation
    .ok ⟨id, generation, actor, digest⟩
  | _ => .error (.invalid "finding reference")

theorem decode_encode {fact : ObservedFact} (h : fact.encode.utf8ByteSize ≤ 4096) : decode fact.encode = .ok fact := by
  have hframe : Accept.decode fact.encode 4096 4 =
      .ok [fact.id.text, Nat.repr fact.generation.toNat, fact.actor, fact.digest] :=
    Accept.decode_encode h (by simp) (by decide)
  unfold decode
  rw [hframe, Result.ok_bind]
  simp only [FindingId.parse_text, Except.mapError, numberU32_repr, Result.ok_bind]

theorem decode_long {fact : ObservedFact} (h : 4096 < fact.encode.utf8ByteSize) : ∃ e, decode fact.encode = .error e := by
  refine ⟨.limit "record bytes", ?_⟩
  unfold decode Accept.decode decodeFrames
  rw [if_pos h]
  rfl

end ObservedFact

/-! ### Configurations -/

structure EffectiveConfig where
  scope : TrustedScope
  bindingRevision : BindingRevision
  bootstrapReason : String
  entries : EntryMap
  facts : List ObservedFact
  deriving DecidableEq

/-- The largest configuration in bytes. -/
def maxConfigBytes : Nat := 16384

namespace EffectiveConfig

def canonicalBytes (config : EffectiveConfig) : String :=
  encode ["verdant-effective-v1", config.scope.text, Nat.repr config.bindingRevision.value.toNat, config.bootstrapReason,
    encode (config.entries.entries.map Entry.encode), encode (config.facts.map ObservedFact.encode)]

/-- One entry of a source, with the keys of the source so far. -/
def addEntry (source : SourceKind) (scope : TrustedScope) (state : List String × EntryMap) (entry : Entry) :
    Except AcceptError (List String × EntryMap) :=
  if entry.key.text ∈ state.1 then .error (.invalid "duplicate source key")
  else if source = .temporaryIntent ∧ state.2.contains entry.key = false then
    .error (.invalid "intent needs a domain key")
  else if ¬ entry.InScope scope then .error (.invalid "configuration scope")
  else .ok (entry.key.text :: state.1, state.2.insert { entry with source := source })

def addEntries (source : SourceKind) (scope : TrustedScope) (map : EntryMap) (items : List Entry) :
    Except AcceptError EntryMap :=
  if 32 < items.length then .error (.limit "configuration entries")
  else do
    let state ← items.foldlM (addEntry source scope) ([], map)
    .ok state.2

/-- The configuration of what was read: domain entries, and the intent that replaces named ones. -/
def assemble (scope : TrustedScope) (memory : Memory) (reason : String) (domain intent : List Entry) :
    Except AcceptError EffectiveConfig := do
  let entries ← addEntries .domain scope .empty domain
  let entries ← addEntries .temporaryIntent scope entries intent
  if entries.entries = [] then .error (.invalid "empty configuration")
  else
    let config : EffectiveConfig :=
      ⟨scope, memory.revision, reason, entries, memory.findings.map ObservedFact.ofFinding⟩
    if maxConfigBytes < config.canonicalBytes.utf8ByteSize then .error (.limit "effective configuration bytes")
    else .ok config

/-- The entries of a stored configuration. -/
def decodeEntries (scope : TrustedScope) : EntryMap → List String → Except AcceptError EntryMap
  | map, [] => .ok map
  | map, raw :: rest => do
    let entry ← Entry.decode raw
    if ¬ entry.InScope scope ∨ map.contains entry.key = true then .error (.invalid "effective entry scope/key")
    else decodeEntries scope (map.insert entry) rest

def decode (raw : String) : Except AcceptError EffectiveConfig := do
  match ← Accept.decode raw maxConfigBytes 6 with
  | [version, scopeText, revision, reason, entriesText, factsText] =>
    if version ≠ "verdant-effective-v1" then .error (.invalid "effective version")
    else
      let scope ← (TrustedScope.parse scopeText).mapError fun _ => .invalid "effective scope"
      let revision ← numberU32 revision
      let raws ← Accept.decode entriesText maxConfigBytes 32
      let entries ← decodeEntries scope .empty raws
      if entries.entries = [] then .error (.invalid "empty effective entries")
      else
        let raws ← Accept.decode factsText maxConfigBytes 256
        let facts ← raws.mapM ObservedFact.decode
        let config : EffectiveConfig := ⟨scope, ⟨revision⟩, reason, entries, facts⟩
        if config.canonicalBytes ≠ raw then .error (.invalid "noncanonical effective config") else .ok config
  | _ => .error (.invalid "effective version")

end EffectiveConfig

/-! ### Resolving -/

/-- A name of the reserved policy environment. -/
def reservedName (name : String) : Bool :=
  "VERDANT_POLICY_".toList.isPrefixOf name.toList || name = "VERDANT_TARGET" || name = "VERDANT_UNIT" ||
    name = "VERDANT_ROLE"

/-- The environment by the names of its variables. -/
def checkEnvironment (names : List String) : Except AcceptError Unit :=
  if names.any reservedName then .error .environmentOverride else .ok ()

/-- A fallible call of the acceptance coordinator. -/
abbrev AcceptCall (α : Type) := Prog.Try (StoreOp.Answer (ρ := OutboxTables)) AcceptError α

def sameStores (paths : CanonicalPaths) (detail : String) : Except AcceptError Unit := do
  let gate ← paths.gate.mapError AcceptError.io
  let registry ← paths.registry.mapError AcceptError.io
  if gate ≠ registry then .error (.conflict detail) else .ok ()

/-- Bootstrap and observed facts are read from existing truth. -/
def EffectiveConfig.resolve (names : List String) (paths : CanonicalPaths) (gate : AccessGate)
    (registry : BindingRegistry) (scope : TrustedScope) (domain intent : List Entry) :
    AcceptCall (BindingRegistry × EffectiveConfig) := do
  Prog.check (checkEnvironment names)
  Prog.check (sameStores paths "source stores differ")
  let registry ← Prog.mapErr AcceptError.binding registry.replay
  let reason ← Prog.mapErr AcceptError.access gate.bootstrapReason
  let config ← Prog.check (EffectiveConfig.assemble scope registry.memory reason domain intent)
  return (registry, config)

/-- A resolved configuration was assembled from what was read. -/
theorem EffectiveConfig.assemble_of_resolve {names : List String} {paths : CanonicalPaths} {gate : AccessGate}
    {registry after : BindingRegistry} {scope : TrustedScope} {domain intent : List Entry} {config : EffectiveConfig}
    {E : Moment → Prop} {db db' : Database OutboxTables}
    (h : Prog.Runs StoreOp.exec E (EffectiveConfig.resolve names paths gate registry scope domain intent).run db db'
      (some (.ok (after, config)))) :
    ∃ reason, assemble scope after.memory reason domain intent = .ok config := by
  unfold EffectiveConfig.resolve at h
  obtain ⟨_, -, h⟩ := Prog.runs_check_ok h
  obtain ⟨_, -, h⟩ := Prog.runs_check_ok h
  obtain ⟨registry', _, -, h⟩ := Prog.runs_try_ok h
  obtain ⟨reason, _, -, h⟩ := Prog.runs_try_ok h
  obtain ⟨config', hassemble, h⟩ := Prog.runs_check_ok h
  obtain ⟨-, hresult⟩ := Prog.runs_done.1 h
  cases hresult
  exact ⟨reason, hassemble⟩

end Verdant.Accept
