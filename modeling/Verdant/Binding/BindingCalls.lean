import Verdant.Access.Generations
import Verdant.Binding.BindingLaw

/-!
# The calls of a registry

Every call of a registry keeps the binding law: it replays, and the row it writes means what the memory allows
(`Meaning`).  Record and finding rows always read; a proposal row reads when its binding does (`Decodable`).
-/

namespace Verdant.Binding

open TextCodec Storage Access Prog

section Calls

variable {loose : Prop} {E : Moment → Prop} {s : Database OutboxTables}

/-- Nothing is promised of an error. -/
abbrev Whenever {ε α : Type} (P : Database OutboxTables → α → Prop) : Database OutboxTables → Except ε α → Prop :=
  onResult (fun _ _ => True) P

theorem keeps_silent {ε α : Type} {x : Prog.Try (StoreOp.Answer (ρ := OutboxTables)) ε α} (h : x.run.Issues NoSubmit) :
    Keeps StoreOp.exec (bindingLaw loose) E (Settled loose) (Whenever fun _ _ => True) s x.run := by
  have hkeeps : Keeps StoreOp.exec (bindingLaw loose) E (Settled loose) (fun _ _ => True) s x.run :=
    Issues.keeps h fun op m t _ hop _ => ⟨settled_noSubmit hop m t, by
      rw [hop.exec]
      exact (bindingLaw loose).refl t⟩
  refine hkeeps.mono fun t r _ _ => ?_
  cases r <;> exact trivial

theorem keeps_replay (registry : BindingRegistry) (hs : Kept loose s) :
    Keeps StoreOp.exec (bindingLaw loose) E (Settled loose)
      (Whenever fun u registry' => ∃ t, (bindingLaw loose).rel s t ∧ (bindingLaw loose).rel t u ∧
        Replayed registry' t.tables) s registry.replay.run := by
  unfold BindingRegistry.replay
  refine Keeps.tryBind (P := fun u rows => ∃ t, (bindingLaw loose).rel s t ∧ (bindingLaw loose).rel t u ∧
    rows = (logOf isBinding t.tables).map bindingColumns) ?_ ?_
  · refine Keeps.mapErr (F := fun _ _ => True) ?_ fun _ _ _ _ => trivial
    refine keeps_look (fun _ _ => rfl) (fun _ _ _ => .inl rfl) fun t hst m _ u htu => ?_
    have hanswer : (StoreOp.exec (.read selectBindings) m t).2 = execScript m selectBindings t := rfl
    rw [hanswer]
    unfold execScript
    cases m.read with
    | some fault => exact trivial
    | none => exact ⟨t, hst, htu, rfl⟩
  · intro t rows hst hrows
    obtain ⟨v, hsv, hvt, rfl⟩ := hrows t ((bindingLaw loose).refl t)
    refine keeps_check fun u htu => ?_
    have hv := (hsv hs).1
    cases hregistry : decodeRows ((logOf isBinding v.tables).map bindingColumns) >>=
        BindingRegistry.ofRows registry.store with
    | error e => exact trivial
    | ok registry' =>
      have hread := readable_of_ofRows hv.filedAll hregistry
      obtain ⟨guard, hrows, hguard⟩ := ofRows_filed hv.filedAll hread hv.reachable registry.store
      obtain rfl := Except.ok.inj (hregistry.symm.trans hrows)
      exact ⟨v, hsv, (bindingLaw loose).trans hvt htu, ⟨rfl, rfl, hread, hguard⟩⟩

/-- A replay in front of what depends on it. -/
theorem keeps_replayed {α : Type} (registry : BindingRegistry) (hs : Kept loose s) {P : Database OutboxTables → α → Prop}
    {f : BindingRegistry → BindingCall α}
    (hf : ∀ t registry' r, Kept loose r → (bindingLaw loose).rel s r → (bindingLaw loose).rel r t →
      Replayed registry' r.tables →
      Keeps StoreOp.exec (bindingLaw loose) E (Settled loose) (Whenever P) t (f registry').run) :
    Keeps StoreOp.exec (bindingLaw loose) E (Settled loose) (Whenever P) s (registry.replay >>= f).run := by
  refine Keeps.tryBind (keeps_replay registry hs) fun t registry' hst hregistry => ?_
  obtain ⟨r, hsr, hrt, hreplayed⟩ := hregistry t ((bindingLaw loose).refl t)
  exact hf t registry' r (hsr hs).1 hsr hrt hreplayed

theorem keeps_throw {α : Type} {P : Database OutboxTables → α → Prop} (e : BindingError) :
    Keeps StoreOp.exec (bindingLaw loose) E (Settled loose) (Whenever P) s (throw e : BindingCall α).run :=
  keeps_done fun _ _ => trivial

theorem keeps_operationId :
    Keeps StoreOp.exec (bindingLaw loose) E (Settled loose) (Whenever fun _ _ => True) s
      operationId.run := by
  unfold operationId
  refine Keeps.liftBind (P := fun _ _ => True) ?_ fun t id _ _ => keeps_check fun u _ => ?_
  · exact keeps_look (fun _ _ => rfl) (fun _ _ _ => .inl rfl) fun _ _ _ _ _ _ => trivial
  · cases (OperationId.parse id).mapError fun e => conflict e.display <;> exact trivial

/-! ### Rows -/

theorem nextSequence_eq_ok {sequence next : Nat} {revision : BindingRevision} {kind : String}
    (h : nextSequence sequence revision kind = .ok next) :
    next = sequence + 1 ∧ sequence + 1 < 2 ^ 64 ∧ (kind ≠ opFindingText → revision.value.toNat ≠ 2 ^ 32 - 1) := by
  unfold nextSequence at h
  split at h
  · exact nomatch h
  rename_i hbound
  split at h
  · exact nomatch h
  rename_i hroom
  cases h
  exact ⟨rfl, Nat.lt_of_not_le hbound, fun hkind hfull => hroom ⟨hkind, hfull⟩⟩

theorem joinedGuard_holds {guard : Guard} {authority : Option Authority} {tables : OutboxTables}
    (h : (joinedGuard guard authority).holds tables = true) : guard.holds tables = true := by
  cases authority with
  | none => exact h
  | some authority =>
    have hboth : (guard.holds tables && authority.guard.holds tables) = true := h
    rw [Bool.and_eq_true] at hboth
    exact hboth.1

theorem keeps_prepareRow (registry : BindingRegistry) (operation : OperationId) (kind : String) (entity : InstalledId)
    (text : String) (authority : Option Authority) :
    Keeps StoreOp.exec (bindingLaw loose) E (Settled loose)
      (Whenever fun _ pending => Prepared registry operation kind text pending) s
      (registry.prepareRow operation kind entity text authority).run := by
  unfold BindingRegistry.prepareRow
  refine Keeps.checkBind (fun _ _ _ _ => trivial) fun seq hseq => ?_
  obtain ⟨rfl, hbound, hroom⟩ := nextSequence_eq_ok hseq
  refine Keeps.liftBind (P := fun _ _ => True) ?_ fun t id _ _ => ?_
  · exact keeps_look (fun _ _ => rfl) (fun _ _ _ => .inl rfl) fun _ _ _ _ _ _ => trivial
  refine Keeps.checkBind (fun _ _ _ _ => trivial) fun pending hpending => ?_
  obtain ⟨-, heq⟩ := prepareGuardedBatch_eq_ok (Result.mapError_eq_ok.1 hpending)
  refine keeps_done fun _ _ => ⟨rfl, hbound, hroom, joinedGuard registry.guard authority, entity, authority,
    fun _ => joinedGuard_holds, ?_⟩
  show pending.body = _
  rw [heq]

/-- A submit of a row prepared on the history of an earlier state. -/
theorem keeps_submitRow {registry : BindingRegistry} {operation : OperationId} {kind text : String}
    {pending : PreparedMutation OutboxTables} {r : Database OutboxTables} (hr : Kept loose r)
    (hrs : (bindingLaw loose).rel r s) (hreplayed : Replayed registry r.tables)
    (hpending : Prepared registry operation kind text pending)
    (hmeaning : Meaning loose (ledgerOf r.tables) kind text operation) :
    Keeps StoreOp.exec (bindingLaw loose) E (Settled loose) (Whenever fun _ _ => True) s
      (registry.submitRow pending).run := by
  unfold BindingRegistry.submitRow
  refine Keeps.liftBind (P := fun _ _ => True) ?_ fun t outcome _ _ => keeps_check fun u _ => ?_
  · refine keeps_issue fun t hst m _ => ?_
    obtain ⟨ht, hgrows, -⟩ := (bindingLaw loose).trans hrs hst hr
    obtain ⟨hsettled, hlaw⟩ := submit_prepared hpending hreplayed hgrows ht hmeaning registry.store m
    exact ⟨hsettled, hlaw, fun _ _ => trivial⟩
  · cases submitted outcome <;> exact trivial

theorem names_of_readEntry {kind text : String} {e : Entry} (h : readEntry kind text = .ok e) : Names text := by
  intro map hmap
  unfold readEntry at h
  rw [hmap, Result.ok_bind] at h
  obtain ⟨_, -, h⟩ := Result.bind_eq_ok.1 h
  split at h
  · exact nomatch h
  obtain ⟨identity, hidentity, -⟩ := Result.bind_eq_ok.1 h
  exact ⟨identity, hidentity⟩

/-- A descriptor that reads says what its entry says. -/
theorem Meaning.of_readEntry {log : List Entry} {kind text : String} {operation : OperationId} {event : Event}
    (hread : readEntry kind text = .ok ⟨operation.text, (memoryOf log).revision, event⟩)
    (hknown : kind ∈ bindingOperations) (hroom : event.isFinding = false → kind ≠ opFindingText)
    (hallowed : Allowed (memoryOf log) event) : Meaning loose log kind text operation where
  known := hknown
  names := names_of_readEntry hread
  reads _ := ⟨_, hread⟩
  entry e he := by
    obtain rfl := Except.ok.inj (hread.symm.trans he)
    exact ⟨rfl, rfl, hroom, hallowed⟩

theorem keeps_writeRecord {registry : BindingRegistry} {kind : String} {entity : InstalledId} {fields : Fields}
    {r : Database OutboxTables} (hr : Kept loose r) (hrs : (bindingLaw loose).rel r s)
    (hreplayed : Replayed registry r.tables)
    (hmeaning : ∀ operation, Meaning loose (ledgerOf r.tables) kind
      (descriptor (fields ++ recordTail operation registry.memory.revision)) operation) :
    Keeps StoreOp.exec (bindingLaw loose) E (Settled loose) (Whenever fun _ _ => True) s
      (registry.writeRecord kind entity fields).run := by
  unfold BindingRegistry.writeRecord
  refine Keeps.tryBind keeps_operationId fun t operation hst _ => ?_
  refine Keeps.tryBind (keeps_prepareRow registry operation kind entity _ none) fun u pending htu hpending => ?_
  have hru := (bindingLaw loose).trans hrs ((bindingLaw loose).trans hst htu)
  refine Keeps.tryBind (keeps_submitRow hr hru hreplayed (hpending u ((bindingLaw loose).refl u)) (hmeaning operation))
    fun _ _ _ _ => ?_
  exact keeps_done fun _ _ => trivial

/-! ### Records -/

theorem keeps_recordEquipment (registry : BindingRegistry) (id : String) (kind : EquipmentKind) (scope : TrustedScope)
    (label address : String) (hs : Kept loose s) :
    Keeps StoreOp.exec (bindingLaw loose) E (Settled loose) (Whenever fun _ _ => True) s
      (registry.recordEquipment id kind scope label address).run := by
  unfold BindingRegistry.recordEquipment
  refine keeps_replayed registry hs fun t registry' r hr _ hrt hreplayed => ?_
  by_cases hinstalled : registry'.memory.installed id = true
  · rw [if_pos hinstalled]
    exact keeps_throw _
  rw [if_neg hinstalled]
  refine Keeps.checkBind (fun _ _ _ _ => trivial) fun record hrecord => ?_
  obtain ⟨hid, hparse⟩ := EquipmentRecord.parse_eq_ok hrecord
  refine Keeps.tryBind (keeps_writeRecord hr hrt hreplayed fun operation => ?_) fun _ _ _ _ => keeps_done fun _ _ => trivial
  rw [hreplayed.memory]
  refine .of_readEntry (readEntry_equipment operation _ hparse) (by decide) (fun _ => by decide) ?_
  show (memoryOf (ledgerOf r.tables)).installed record.id.text = false
  rw [hid, ← hreplayed.memory]
  simpa using hinstalled

theorem keeps_recordSpace (registry : BindingRegistry) (id : String) (scope : TrustedScope) (label : String)
    (hs : Kept loose s) :
    Keeps StoreOp.exec (bindingLaw loose) E (Settled loose) (Whenever fun _ _ => True) s
      (registry.recordSpace id scope label).run := by
  unfold BindingRegistry.recordSpace
  refine keeps_replayed registry hs fun t registry' r hr _ hrt hreplayed => ?_
  by_cases hinstalled : registry'.memory.installed id = true
  · rw [if_pos hinstalled]
    exact keeps_throw _
  rw [if_neg hinstalled]
  refine Keeps.checkBind (fun _ _ _ _ => trivial) fun record hrecord => ?_
  obtain ⟨hid, hparse⟩ := SpaceRecord.parse_eq_ok hrecord
  refine Keeps.tryBind (keeps_writeRecord hr hrt hreplayed fun operation => ?_) fun _ _ _ _ => keeps_done fun _ _ => trivial
  rw [hreplayed.memory]
  refine .of_readEntry (readEntry_space operation _ hparse) (by decide) (fun _ => by decide) ?_
  show (memoryOf (ledgerOf r.tables)).installed record.id.text = false
  rw [hid, ← hreplayed.memory]
  simpa using hinstalled

theorem keeps_recordSource (registry : BindingRegistry) (id : String) (scope : TrustedScope) (label : String)
    (hs : Kept loose s) :
    Keeps StoreOp.exec (bindingLaw loose) E (Settled loose) (Whenever fun _ _ => True) s
      (registry.recordSource id scope label).run := by
  unfold BindingRegistry.recordSource
  refine keeps_replayed registry hs fun t registry' r hr _ hrt hreplayed => ?_
  by_cases hinstalled : registry'.memory.installed id = true
  · rw [if_pos hinstalled]
    exact keeps_throw _
  rw [if_neg hinstalled]
  refine Keeps.checkBind (fun _ _ _ _ => trivial) fun record hrecord => ?_
  obtain ⟨hid, hparse⟩ := SourceRecord.parse_eq_ok hrecord
  refine Keeps.tryBind (keeps_writeRecord hr hrt hreplayed fun operation => ?_) fun _ _ _ _ => keeps_done fun _ _ => trivial
  rw [hreplayed.memory]
  refine .of_readEntry (readEntry_source operation _ hparse) (by decide) (fun _ => by decide) ?_
  show (memoryOf (ledgerOf r.tables)).installed record.id.text = false
  rw [hid, ← hreplayed.memory]
  simpa using hinstalled

theorem keeps_recordPoint (registry : BindingRegistry) (equipment property : String) (scope : TrustedScope)
    (unitText : String) (endpointClass : EndpointClass) (hs : Kept loose s) :
    Keeps StoreOp.exec (bindingLaw loose) E (Settled loose) (Whenever fun _ _ => True) s
      (registry.recordPoint equipment property scope unitText endpointClass).run := by
  unfold BindingRegistry.recordPoint
  refine keeps_replayed registry hs fun t registry' r hr _ hrt hreplayed => ?_
  by_cases hpoint : (registry'.memory.points (pointKey equipment property)).isSome = true
  · simp only [if_pos hpoint]
    exact keeps_throw _
  simp only [if_neg hpoint]
  refine Keeps.checkBind (fun _ _ _ _ => trivial) fun record hrecord => ?_
  obtain ⟨hequipment, hproperty, hparse⟩ := PointRecord.parse_eq_ok hrecord
  refine Keeps.tryBind (keeps_writeRecord hr hrt hreplayed fun operation => ?_) fun _ _ _ _ => keeps_done fun _ _ => trivial
  rw [hreplayed.memory]
  refine .of_readEntry (readEntry_point operation _ hparse) (by decide) (fun _ => by decide) ?_
  show (memoryOf (ledgerOf r.tables)).points (pointKey record.equipment.text record.property.text) = none
  rw [hequipment, hproperty, ← hreplayed.memory]
  simpa using hpoint

theorem retirable_eq_ok {registry : BindingRegistry} {id reason : String} {record : EquipmentRecord}
    (h : registry.retirable id reason = .ok record) :
    registry.memory.equipment id = some record ∧ id ∉ registry.memory.retired := by
  unfold BindingRegistry.retirable at h
  split at h
  · exact nomatch h
  rename_i found hfound
  split at h
  · exact nomatch h
  split at h
  · exact nomatch h
  rename_i hretired
  cases h
  exact ⟨hfound, hretired⟩

theorem keeps_retire (registry : BindingRegistry) (id reason : String) (hs : Kept loose s) :
    Keeps StoreOp.exec (bindingLaw loose) E (Settled loose) (Whenever fun _ _ => True) s
      (registry.retire id reason).run := by
  unfold BindingRegistry.retire
  refine keeps_replayed registry hs fun t registry' r hr _ hrt hreplayed => ?_
  refine Keeps.checkBind (fun _ _ _ _ => trivial) fun record hrecord => ?_
  obtain ⟨hequipment, hretired⟩ := retirable_eq_ok hrecord
  refine Keeps.tryBind (keeps_writeRecord hr hrt hreplayed fun operation => ?_) fun _ _ _ _ => keeps_done fun _ _ => trivial
  rw [hreplayed.memory]
  refine .of_readEntry (readEntry_retire operation _ id record.address.text reason) (by decide) (fun _ => by decide) ?_
  rw [← hreplayed.memory]
  exact ⟨Option.isSome_iff_exists.2 ⟨record, hequipment⟩, hretired⟩

/-! ### Proposals -/

theorem keeps_authority (gate : AccessGate) (credential : Option Credential) (scope : TrustedScope)
    (requested : BindingRole) (paths : CanonicalPaths) :
    Keeps StoreOp.exec (bindingLaw loose) E (Settled loose)
      (Whenever fun _ authority => authority.report.actor.row.capgen ≠ 0) s
      (authority gate credential scope requested paths).run := by
  unfold authority
  refine Keeps.checkBind (fun _ _ _ _ => trivial) fun _ _ => ?_
  refine Keeps.tryBind (P := fun _ _ => True) (Keeps.mapErr (F := fun _ _ => True) ?_ fun _ _ _ _ => trivial)
    fun t rows _ _ => ?_
  · refine (keeps_look (P := fun _ _ => True) (fun _ _ => rfl) (fun _ _ _ => .inl rfl)
      fun _ _ _ _ _ _ => trivial).mono fun t r _ _ => ?_
    cases r <;> exact trivial
  refine Keeps.checkBind (fun _ _ _ _ => trivial) fun guard _ => ?_
  have henter : Keeps StoreOp.exec (bindingLaw loose) E (Settled loose)
      (Whenever fun _ report => report.actor.row.capgen ≠ 0) t (gate.enter credential scope (roleOf requested)).run :=
    keeps_enter_dated (fun op m u hop => settled_noSubmit hop m u) gate credential scope (roleOf requested)
  refine Keeps.tryBind (Keeps.mapErr henter fun _ _ _ _ => trivial) fun u report _ hreport => ?_
  exact keeps_done fun v hv => hreport v hv

theorem resolve_eq_ok {registry : BindingRegistry} {binding : ProposedBinding} {u : Unit}
    (h : registry.resolve binding = .ok u) : Resolves registry.memory binding := by
  unfold BindingRegistry.resolve at h
  simp only at h
  split at h
  · exact nomatch h
  rename_i hretired
  split at h
  · exact nomatch h
  rename_i hsettled
  split at h
  · exact nomatch h
  rename_i point hpoint
  split at h
  · exact nomatch h
  rename_i hscope
  split at h
  · exact nomatch h
  obtain ⟨proposed, hpropose, -⟩ := Result.bind_eq_ok.1 h
  unfold propose at hpropose
  obtain ⟨_, hshape, -⟩ := Result.bind_eq_ok.1 hpropose
  obtain ⟨hclass, hunit⟩ := checkShape_eq_ok hshape
  exact ⟨hretired, hsettled, point, hpoint, not_not.1 hscope, hunit, hclass⟩

theorem requireRevision_eq_ok {registry : BindingRegistry} {revision : BindingRevision} {u : Unit}
    (h : registry.requireRevision revision = .ok u) : registry.memory.revision = revision := by
  unfold BindingRegistry.requireRevision at h
  split at h
  · exact nomatch h
  · rename_i hsame
    exact not_not.1 hsame

/-- A proposal that resolves means a commit, whatever its mode is read as. -/
theorem Meaning.of_proposal {log : List Entry} {binding : ProposedBinding} (operation : OperationId)
    {actor : ActorContext} (hresolves : Resolves (memoryOf log) binding) (hcapgen : actor.row.capgen ≠ 0)
    (hdecodable : ¬ loose → Decodable binding) :
    Meaning loose log opProposeText (proposalText operation (memoryOf log).revision binding actor) operation where
  known := by decide
  names map hmap := ⟨_, operation_of_proposal hmap⟩
  reads hstrict := hdecodable hstrict _ _ _ hcapgen
  entry e he := by
    obtain ⟨hoperation, hrevision, read, hread, hsame⟩ := readEntry_propose he
    refine ⟨hoperation, hrevision, fun _ => by decide, ?_⟩
    obtain ⟨hactive, hsettled, p, hpoint, hscope, hunit, hclass⟩ := hresolves
    have hkey : read.key = binding.key := by
      unfold ProposedBinding.key
      rw [hsame.equipment, hsame.property]
    rw [hread]
    refine ⟨?_, ?_, p, ?_, ?_, ?_, ?_⟩
    · rw [hsame.equipment]
      exact hactive
    · rw [hsame.equipment]
      exact hsettled
    · rw [hkey]
      exact hpoint
    · rw [hsame.scope]
      exact hscope
    · rw [hsame.unit]
      exact hunit
    · rw [hsame.endpointClass]
      exact hclass

/-- A registry as a replay of some state on the way gave it. -/
def Fresh (loose : Prop) (s u : Database OutboxTables) (registry : BindingRegistry) : Prop :=
  ∃ t, Kept loose t ∧ (bindingLaw loose).rel s t ∧ (bindingLaw loose).rel t u ∧ Replayed registry t.tables

theorem keeps_refresh (registry : BindingRegistry) (hs : Kept loose s) (f : BindingError → BindingError) :
    Keeps StoreOp.exec (bindingLaw loose) E (Settled loose) (Whenever fun u registry' => Fresh loose s u registry') s
      (Prog.mapErr f registry.replay).run := by
  refine Keeps.mapErr (F := fun _ _ => True) ?_ fun _ _ _ _ => trivial
  refine (keeps_replay registry hs).mono fun t r _ hr => ?_
  cases r with
  | error e => exact trivial
  | ok registry' =>
    obtain ⟨v, hsv, hvt, hreplayed⟩ := hr t ((bindingLaw loose).refl t)
    exact ⟨v, (hsv hs).1, hsv, hvt, hreplayed⟩

theorem keeps_dispatchProposal {registry : BindingRegistry} {r : Database OutboxTables} (hr : Kept loose r)
    (hrs : (bindingLaw loose).rel r s) (hreplayed : Replayed registry r.tables) (gate : AccessGate)
    (credential : Option Credential) (pending : PendingProposal) (paths : CanonicalPaths)
    (hdecodable : ¬ loose → Decodable pending.binding) :
    Keeps StoreOp.exec (bindingLaw loose) E (Settled loose) (Whenever fun u answer => Fresh loose s u answer.1) s
      (registry.dispatchProposal gate credential pending paths).run := by
  unfold BindingRegistry.dispatchProposal
  refine Keeps.checkBind (fun _ _ _ _ => trivial) fun _ hrevision => ?_
  refine Keeps.checkBind (fun _ _ _ _ => trivial) fun _ hresolve => ?_
  refine Keeps.tryBind (keeps_authority gate credential _ _ paths) fun t authority hst hauthority => ?_
  refine Keeps.tryBind (keeps_prepareRow registry pending.operation opProposeText _ _ _) fun u ticket htu hticket => ?_
  have hru := (bindingLaw loose).trans hrs ((bindingLaw loose).trans hst htu)
  have hmeaning : Meaning loose (ledgerOf r.tables) opProposeText
      (proposalText pending.operation pending.revision pending.binding authority.report.actor) pending.operation := by
    rw [← requireRevision_eq_ok hrevision, hreplayed.memory]
    have hresolves := resolve_eq_ok hresolve
    rw [hreplayed.memory] at hresolves
    exact .of_proposal _ hresolves (hauthority t ((bindingLaw loose).refl t)) hdecodable
  refine Keeps.tryBind (keeps_submitRow hr hru hreplayed (hticket u ((bindingLaw loose).refl u)) hmeaning)
    fun v rowId huv _ => ?_
  have hsv := (bindingLaw loose).trans hst ((bindingLaw loose).trans htu huv)
  refine Keeps.tryBind (keeps_refresh registry ((bindingLaw loose).trans hrs hsv hr).1 _) fun w registry' _ hfresh => ?_
  refine keeps_done fun x hwx => ?_
  obtain ⟨y, hy, hvy, hyx, hreplayed'⟩ := hfresh x hwx
  exact ⟨y, hy, (bindingLaw loose).trans hsv hvy, hyx, hreplayed'⟩

/-- What only reads the rows of a receipt. -/
theorem committedDescriptor_noSubmit (rowId : Int) (operation : OperationId) (kind : String) :
    (BindingRegistry.committedDescriptor rowId operation kind).run.Issues NoSubmit :=
  Prog.Issues.tryBind (Prog.Issues.mapErr (Prog.issues_issue trivial)) fun _ => Prog.issues_check

theorem keeps_reconcileProposal (registry : BindingRegistry) (pending : PendingProposal) (hs : Kept loose s) :
    Keeps StoreOp.exec (bindingLaw loose) E (Settled loose) (Whenever fun u answer => Fresh loose s u answer.1) s
      (registry.reconcileProposal pending).run := by
  unfold BindingRegistry.reconcileProposal
  refine keeps_replayed registry hs fun t registry' r hr hsr hrt hreplayed => ?_
  have hfresh : ∀ u, (bindingLaw loose).rel t u → Fresh loose s u registry' := fun u htu =>
    ⟨r, hr, hsr, (bindingLaw loose).trans hrt htu, hreplayed⟩
  refine Keeps.liftBind (P := fun _ _ => True) ?_ fun u outcome htu _ => ?_
  · exact keeps_look (fun _ _ => rfl) (fun _ _ _ => .inl rfl) fun _ _ _ _ _ _ => trivial
  by_cases habsent : absent outcome = true
  · rw [if_pos habsent]
    exact keeps_done fun v huv => hfresh v ((bindingLaw loose).trans htu huv)
  rw [if_neg habsent]
  refine Keeps.checkBind (fun _ _ _ _ => trivial) fun rowId _ => ?_
  refine Keeps.tryBind (keeps_silent (committedDescriptor_noSubmit rowId _ _)) fun v map huv _ => ?_
  refine Keeps.checkBind (fun _ _ _ _ => trivial) fun commit _ => ?_
  exact keeps_done fun w hvw => hfresh w ((bindingLaw loose).trans htu ((bindingLaw loose).trans huv hvw))

theorem keeps_submitProposal (registry : BindingRegistry) (gate : AccessGate) (credential : Option Credential)
    (pending : PendingProposal) (paths : CanonicalPaths) (hs : Kept loose s)
    (hdecodable : ¬ loose → Decodable pending.binding) :
    Keeps StoreOp.exec (bindingLaw loose) E (Settled loose) (Whenever fun u answer => Fresh loose s u answer.1) s
      (registry.submitProposal gate credential pending paths).run := by
  unfold BindingRegistry.submitProposal
  refine Keeps.tryBind (keeps_reconcileProposal registry pending hs) fun t answer hst hanswer => ?_
  obtain ⟨registry', commit⟩ := answer
  cases commit with
  | some commit => exact keeps_done hanswer
  | none =>
    obtain ⟨r, hr, hsr, hrt, hreplayed⟩ := hanswer t ((bindingLaw loose).refl t)
    refine (keeps_dispatchProposal hr hrt hreplayed gate credential pending paths hdecodable).mono fun u x _ hx => ?_
    cases x with
    | error e => exact trivial
    | ok done =>
      obtain ⟨v, hv, htv, hvu, hreplayed'⟩ := hx u ((bindingLaw loose).refl u)
      exact ⟨v, hv, (bindingLaw loose).trans hst htv, hvu, hreplayed'⟩

theorem keeps_proposeWithCredential (registry : BindingRegistry) (gate : AccessGate) (credential : Option Credential)
    (endpointAddress : String) (endpointClass : EndpointClass) (endpointScope : TrustedScope)
    (pointEquipment pointProperty sourceText : String) (unit : MeasureUnit) (mode : Option OpMode)
    (requested effective : BindingRole) (feedback : Feedback) (paths : CanonicalPaths) (hs : Kept loose s)
    (hdecodable : ¬ loose → ∀ endpoint equipment property scope source expectedUnit expectedClass binding,
      propose endpoint endpointClass endpointScope equipment property scope source expectedUnit expectedClass unit mode
        requested effective feedback = .ok binding → Decodable binding) :
    Keeps StoreOp.exec (bindingLaw loose) E (Settled loose) (Whenever fun _ _ => True) s
      (registry.proposeWithCredential gate credential endpointAddress endpointClass endpointScope pointEquipment
        pointProperty sourceText unit mode requested effective feedback paths).run := by
  unfold BindingRegistry.proposeWithCredential
  refine keeps_replayed registry hs fun t registry' r hr _ hrt _ => ?_
  refine Keeps.checkBind (fun _ _ _ _ => trivial) fun point _ => ?_
  refine Keeps.checkBind (fun _ _ _ _ => trivial) fun endpoint _ => ?_
  refine Keeps.checkBind (fun _ _ _ _ => trivial) fun equipment _ => ?_
  refine Keeps.checkBind (fun _ _ _ _ => trivial) fun property _ => ?_
  refine Keeps.checkBind (fun _ _ _ _ => trivial) fun source _ => ?_
  refine Keeps.checkBind (fun _ _ _ _ => trivial) fun binding hbinding => ?_
  refine Keeps.tryBind keeps_operationId fun u operation htu _ => ?_
  have hu := ((bindingLaw loose).trans hrt htu hr).1
  refine Keeps.tryBind (keeps_submitProposal registry' gate credential ⟨operation, registry'.memory.revision, binding⟩ paths
    hu fun hstrict => hdecodable hstrict _ _ _ _ _ _ _ _ hbinding) fun _ _ _ _ => ?_
  exact keeps_done fun _ _ => trivial

theorem keeps_importWithCredential (registry : BindingRegistry) (gate : AccessGate) (credential : Option Credential)
    (conversion : Conversion) (inputRevision : BindingRevision) (endpointAddress : String)
    (endpointClass : EndpointClass) (endpointScope : TrustedScope) (pointProperty sourceText : String)
    (requested effective : BindingRole) (feedback : Feedback) (paths : CanonicalPaths) (hs : Kept loose s)
    (hdecodable : ¬ loose → ∀ scope expectedUnit expectedClass binding,
      importBinding conversion endpointAddress endpointClass endpointScope pointProperty scope sourceText expectedUnit
        expectedClass requested effective feedback = .ok binding → Decodable binding) :
    Keeps StoreOp.exec (bindingLaw loose) E (Settled loose) (Whenever fun _ _ => True) s
      (registry.importWithCredential gate credential conversion inputRevision endpointAddress endpointClass endpointScope
        pointProperty sourceText requested effective feedback paths).run := by
  unfold BindingRegistry.importWithCredential
  refine keeps_replayed registry hs fun t registry' r hr _ hrt _ => ?_
  refine Keeps.checkBind (fun _ _ _ _ => trivial) fun _ _ => ?_
  refine Keeps.checkBind (fun _ _ _ _ => trivial) fun stored _ => ?_
  refine Keeps.checkBind (fun _ _ _ _ => trivial) fun binding hbinding => ?_
  refine Keeps.tryBind keeps_operationId fun u operation htu _ => ?_
  have hu := ((bindingLaw loose).trans hrt htu hr).1
  refine Keeps.tryBind (keeps_submitProposal registry' gate credential ⟨operation, inputRevision, binding⟩ paths
    hu fun hstrict => hdecodable hstrict _ _ _ _ hbinding) fun _ _ _ _ => ?_
  exact keeps_done fun _ _ => trivial

/-! ### Findings -/

theorem keeps_dispatchFinding {registry : BindingRegistry} {r : Database OutboxTables} (hr : Kept loose r)
    (hrs : (bindingLaw loose).rel r s) (hreplayed : Replayed registry r.tables) (operation : OperationId)
    (revision : BindingRevision) (gate : AccessGate) (binding : ProposedBinding) (credential : Credential)
    (paths : CanonicalPaths) :
    Keeps StoreOp.exec (bindingLaw loose) E (Settled loose) (Whenever fun _ _ => True) s
      (registry.dispatchFinding operation revision gate binding credential paths).run := by
  unfold BindingRegistry.dispatchFinding
  refine Keeps.checkBind (fun _ _ _ _ => trivial) fun _ hrevision => ?_
  refine Keeps.checkBind (fun _ _ _ _ => trivial) fun _ _ => ?_
  refine Keeps.checkBind (fun _ _ _ _ => trivial) fun _ _ => ?_
  refine Keeps.tryBind (keeps_authority gate (some credential) _ _ paths) fun t authority hst hauthority => ?_
  refine Keeps.tryBind (keeps_prepareRow registry operation opFindingText _ _ _) fun u ticket htu hticket => ?_
  have hru := (bindingLaw loose).trans hrs ((bindingLaw loose).trans hst htu)
  have hread := readEntry_finding operation revision binding (hauthority t ((bindingLaw loose).refl t))
  have hsame : revision = (memoryOf (ledgerOf r.tables)).revision := by
    rw [← requireRevision_eq_ok hrevision, hreplayed.memory]
  have hmeaning : Meaning loose (ledgerOf r.tables) opFindingText (descriptor (findingFields operation revision binding
      (Finding.forBinding binding revision (descriptor (actorFields authority.report.actor))) authority.report.actor))
      operation := by
    subst hsame
    exact .of_readEntry hread (by decide) (fun hfinding => nomatch hfinding) trivial
  refine Keeps.tryBind (keeps_submitRow hr hru hreplayed (hticket u ((bindingLaw loose).refl u)) hmeaning)
    fun v _ huv _ => ?_
  have hrv := (bindingLaw loose).trans hru huv
  refine Keeps.tryBind (keeps_refresh registry (hrv hr).1 _) fun w registry' _ _ => ?_
  exact keeps_done fun _ _ => trivial

theorem keeps_emitFindingOperation (registry : BindingRegistry) (operation : OperationId) (revision : BindingRevision)
    (gate : AccessGate) (binding : ProposedBinding) (credential : Credential) (paths : CanonicalPaths)
    (hs : Kept loose s) :
    Keeps StoreOp.exec (bindingLaw loose) E (Settled loose) (Whenever fun _ _ => True) s
      (registry.emitFindingOperation operation revision gate binding credential paths).run := by
  unfold BindingRegistry.emitFindingOperation
  refine keeps_replayed registry hs fun t registry' r hr _ hrt hreplayed => ?_
  refine Keeps.liftBind (P := fun _ _ => True) ?_ fun u outcome htu _ => ?_
  · exact keeps_look (fun _ _ => rfl) (fun _ _ _ => .inl rfl) fun _ _ _ _ _ _ => trivial
  by_cases habsent : absent outcome = true
  · rw [if_pos habsent]
    exact keeps_dispatchFinding hr ((bindingLaw loose).trans hrt htu) hreplayed operation revision gate binding credential
      paths
  rw [if_neg habsent]
  refine Keeps.checkBind (fun _ _ _ _ => trivial) fun rowId _ => ?_
  refine Keeps.tryBind (keeps_silent (committedDescriptor_noSubmit rowId _ _)) fun v map _ _ => ?_
  refine Keeps.checkBind (fun _ _ _ _ => trivial) fun finding _ => ?_
  exact keeps_done fun _ _ => trivial

theorem keeps_emitFinding (registry : BindingRegistry) (gate : AccessGate) (binding : ProposedBinding)
    (credential : Credential) (paths : CanonicalPaths) (hs : Kept loose s) :
    Keeps StoreOp.exec (bindingLaw loose) E (Settled loose) (Whenever fun _ _ => True) s
      (registry.emitFinding gate binding credential paths).run := by
  unfold BindingRegistry.emitFinding
  refine keeps_replayed registry hs fun t registry' r hr _ hrt _ => ?_
  refine Keeps.tryBind keeps_operationId fun u operation htu _ => ?_
  exact keeps_emitFindingOperation registry' operation _ gate binding credential paths
    ((bindingLaw loose).trans hrt htu hr).1

end Calls

end Verdant.Binding
