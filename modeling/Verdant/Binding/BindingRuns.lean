import Verdant.Binding.BindingCalls
import Verdant.Binding.Readback

/-!
# Runs of registries

Every interleaving of calls of any number of registries and of other owners on one database that starts without a binding
row.  The ledger of the rows stays reachable whatever the calls ask for (`kept_after`), and as long as the proposed bindings
read back (`Decodable`) every row reads and every replay succeeds.
-/

namespace Verdant.Binding

open TextCodec Storage Access Prog

/-! ### Requests -/

inductive BindingAnswer where
  | registry (registry : BindingRegistry)
  | commit (registry : BindingRegistry) (commit : ProposalCommit)
  | binding (registry : BindingRegistry) (binding : ProposedBinding)
  | finding (registry : BindingRegistry) (finding : Finding)
  | other (outcome : MutationOutcome)

/-- One call on the database: of a registry handle in whatever state it is, or another owner's submit. -/
inductive BindingRequest where
  | replay (registry : BindingRegistry)
  | equipment (registry : BindingRegistry) (id : String) (kind : EquipmentKind) (scope : TrustedScope)
      (label address : String)
  | space (registry : BindingRegistry) (id : String) (scope : TrustedScope) (label : String)
  | source (registry : BindingRegistry) (id : String) (scope : TrustedScope) (label : String)
  | point (registry : BindingRegistry) (pointEquipment pointProperty : String) (scope : TrustedScope) (unitText : String)
      (endpointClass : EndpointClass)
  | retire (registry : BindingRegistry) (id reason : String)
  | submit (registry : BindingRegistry) (gate : AccessGate) (credential : Option Credential) (pending : PendingProposal)
      (paths : CanonicalPaths)
  | propose (registry : BindingRegistry) (gate : AccessGate) (credential : Option Credential) (endpointAddress : String)
      (endpointClass : EndpointClass) (endpointScope : TrustedScope) (pointEquipment pointProperty sourceText : String)
      (unit : MeasureUnit) (mode : Option OpMode) (requested effective : BindingRole) (feedback : Feedback)
      (paths : CanonicalPaths)
  | convert (registry : BindingRegistry) (gate : AccessGate) (credential : Option Credential) (conversion : Conversion)
      (inputRevision : BindingRevision) (endpointAddress : String) (endpointClass : EndpointClass)
      (endpointScope : TrustedScope) (pointProperty sourceText : String) (requested effective : BindingRole)
      (feedback : Feedback) (paths : CanonicalPaths)
  | finding (registry : BindingRegistry) (operation : OperationId) (revision : BindingRevision) (gate : AccessGate)
      (binding : ProposedBinding) (credential : Credential) (paths : CanonicalPaths)
  | emit (registry : BindingRegistry) (gate : AccessGate) (binding : ProposedBinding) (credential : Credential)
      (paths : CanonicalPaths)
  | other (store : SqliteStore) (pending : PreparedMutation OutboxTables) (own : OtherOwner isBinding pending)

namespace BindingRequest

def call : BindingRequest → Call OutboxTables (Except BindingError BindingAnswer)
  | .replay registry => (do return .registry (← registry.replay) : BindingCall _).run
  | .equipment registry id kind scope label address =>
    (do return .registry (← registry.recordEquipment id kind scope label address) : BindingCall _).run
  | .space registry id scope label => (do return .registry (← registry.recordSpace id scope label) : BindingCall _).run
  | .source registry id scope label => (do return .registry (← registry.recordSource id scope label) : BindingCall _).run
  | .point registry pointEquipment pointProperty scope unitText endpointClass => (do
      return .registry (← registry.recordPoint pointEquipment pointProperty scope unitText endpointClass) :
        BindingCall _).run
  | .retire registry id reason => (do return .registry (← registry.retire id reason) : BindingCall _).run
  | .submit registry gate credential pending paths => (do
      let (registry, commit) ← registry.submitProposal gate credential pending paths
      return .commit registry commit : BindingCall _).run
  | .propose registry gate credential endpointAddress endpointClass endpointScope pointEquipment pointProperty sourceText
      unit mode requested effective feedback paths => (do
      let (registry, binding) ← registry.proposeWithCredential gate credential endpointAddress endpointClass endpointScope
        pointEquipment pointProperty sourceText unit mode requested effective feedback paths
      return .binding registry binding : BindingCall _).run
  | .convert registry gate credential conversion inputRevision endpointAddress endpointClass endpointScope pointProperty
      sourceText requested effective feedback paths => (do
      let (registry, binding) ← registry.importWithCredential gate credential conversion inputRevision endpointAddress
        endpointClass endpointScope pointProperty sourceText requested effective feedback paths
      return .binding registry binding : BindingCall _).run
  | .finding registry operation revision gate binding credential paths => (do
      let (registry, found) ← registry.emitFindingOperation operation revision gate binding credential paths
      return .finding registry found : BindingCall _).run
  | .emit registry gate binding credential paths => (do
      let (registry, found) ← registry.emitFinding gate binding credential paths
      return .finding registry found : BindingCall _).run
  | .other store pending _ => do return .ok (.other (← Call.submit store pending))

/-- What the request may propose reads back. -/
def Decodes : BindingRequest → Prop
  | .submit _ _ _ pending _ => Decodable pending.binding
  | .propose _ _ _ _ endpointClass endpointScope _ _ _ unit mode requested effective feedback _ =>
    ∀ endpoint equipment property scope source expectedUnit expectedClass binding,
      Binding.propose endpoint endpointClass endpointScope equipment property scope source expectedUnit expectedClass unit
        mode requested effective feedback = .ok binding → Decodable binding
  | .convert _ _ _ conversion _ endpointAddress endpointClass endpointScope pointProperty sourceText requested effective
      feedback _ =>
    ∀ scope expectedUnit expectedClass binding, importBinding conversion endpointAddress endpointClass endpointScope
      pointProperty scope sourceText expectedUnit expectedClass requested effective feedback = .ok binding →
        Decodable binding
  | _ => True

variable {loose : Prop} {E : Moment → Prop} {s : Database OutboxTables}

theorem keeps_other (store : SqliteStore) {pending : PreparedMutation OutboxTables} (own : OtherOwner isBinding pending)
    (hs : Kept loose s) :
    Keeps StoreOp.exec (bindingLaw loose) E (Settled loose) (fun _ _ => True) s (Call.submit store pending) := by
  refine keeps_issue fun t hst m _ => ?_
  have ht := (hst hs).1
  obtain ⟨hordered, hgrows, hreceipts, hlog⟩ := own.submit store m.host ht.ordered
  have hlog' : logOf isBinding (StoreOp.exec (.submit store pending) m t).1.tables = logOf isBinding t.tables := hlog
  have hledger : ledgerOf (StoreOp.exec (.submit store pending) m t).1.tables = ledgerOf t.tables :=
    congrArg entriesOf hlog'
  refine ⟨.inl hlog', fun _ => ⟨⟨hordered, ?_, ?_, fun hstrict => ?_, fun e he => ?_⟩, hgrows, hreceipts⟩,
    fun _ _ => trivial⟩
  · rw [hlog']
    exact ht.filed
  · rw [hledger]
    exact ht.reachable
  · rw [hlog']
    exact ht.readable hstrict
  · rw [hledger] at he
    obtain ⟨receipt, hreceipt, hop⟩ := ht.receipts e he
    exact ⟨receipt, hreceipts.subset hreceipt, hop⟩

/-- An answer that is only wrapped. -/
theorem keeps_return {α : Type} {P : Database OutboxTables → α → Prop} {x : BindingCall α} {f : α → BindingAnswer}
    (hx : Keeps StoreOp.exec (bindingLaw loose) E (Settled loose) (Whenever P) s x.run) :
    Keeps StoreOp.exec (bindingLaw loose) E (Settled loose) (fun _ _ => True) s (do return f (← x) : BindingCall _).run := by
  have hwrapped : Keeps StoreOp.exec (bindingLaw loose) E (Settled loose) (Whenever fun _ _ => True) s
      (do return f (← x) : BindingCall _).run := by
    refine Keeps.tryBind hx fun t a _ _ => ?_
    exact keeps_done fun _ _ => trivial
  exact hwrapped.mono fun _ _ _ _ => trivial

theorem keeps_call (r : BindingRequest) (hs : Kept loose s) (hdecodes : ¬ loose → r.Decodes) :
    Keeps StoreOp.exec (bindingLaw loose) E (Settled loose) (fun _ _ => True) s r.call := by
  cases r with
  | replay registry => exact keeps_return (keeps_replay registry hs)
  | equipment registry id kind scope label address =>
    exact keeps_return (keeps_recordEquipment registry id kind scope label address hs)
  | space registry id scope label => exact keeps_return (keeps_recordSpace registry id scope label hs)
  | source registry id scope label => exact keeps_return (keeps_recordSource registry id scope label hs)
  | point registry pointEquipment pointProperty scope unitText endpointClass =>
    exact keeps_return (keeps_recordPoint registry pointEquipment pointProperty scope unitText endpointClass hs)
  | retire registry id reason => exact keeps_return (keeps_retire registry id reason hs)
  | submit registry gate credential pending paths =>
    exact keeps_return (f := fun x => .commit x.1 x.2)
      (keeps_submitProposal registry gate credential pending paths hs hdecodes)
  | propose registry gate credential endpointAddress endpointClass endpointScope pointEquipment pointProperty sourceText
      unit mode requested effective feedback paths =>
    exact keeps_return (f := fun x => .binding x.1 x.2) (keeps_proposeWithCredential registry gate credential
      endpointAddress endpointClass endpointScope pointEquipment pointProperty sourceText unit mode requested effective
      feedback paths hs hdecodes)
  | convert registry gate credential conversion inputRevision endpointAddress endpointClass endpointScope pointProperty
      sourceText requested effective feedback paths =>
    exact keeps_return (f := fun x => .binding x.1 x.2) (keeps_importWithCredential registry gate credential conversion
      inputRevision endpointAddress endpointClass endpointScope pointProperty sourceText requested effective feedback paths
      hs hdecodes)
  | finding registry operation revision gate binding credential paths =>
    exact keeps_return (f := fun x => .finding x.1 x.2)
      (keeps_emitFindingOperation registry operation revision gate binding credential paths hs)
  | emit registry gate binding credential paths =>
    exact keeps_return (f := fun x => .finding x.1 x.2) (keeps_emitFinding registry gate binding credential paths hs)
  | other store pending own => exact Keeps.bind (keeps_other store own hs) fun _ _ _ _ => keeps_done fun _ _ => trivial

end BindingRequest

/-! ### Runs -/

abbrev BindingTurn := Turn BindingRequest Moment

/-- A database without a binding row. -/
structure EmptyHistory where
  db : Database OutboxTables
  ordered : Ordered db.tables
  empty : logOf isBinding db.tables = []

def EmptyHistory.fresh : EmptyHistory where
  db := ⟨OutboxTables.empty, []⟩
  ordered := ordered_empty
  empty := rfl

theorem EmptyHistory.kept (start : EmptyHistory) (loose : Prop) : Kept loose start.db := by
  have hledger : ledgerOf start.db.tables = [] := by
    unfold ledgerOf
    rw [start.empty]
    rfl
  refine ⟨start.ordered, fun i r hr => ?_, ?_, fun _ r hr => ?_, fun e he => ?_⟩
  · rw [start.empty] at hr
    exact nomatch hr
  · rw [hledger]
    exact .empty
  · rw [start.empty] at hr
    exact nomatch hr
  · rw [hledger] at he
    exact nomatch he

def bindingRun (start : EmptyHistory) (turns : List BindingTurn) :
    Pool (StoreOp.Answer (ρ := OutboxTables)) (Database OutboxTables) (Except BindingError BindingAnswer) :=
  (Pool.idle start.db).played StoreOp.exec (fun _ r => r.call) turns

def bindingTrace (start : EmptyHistory) (turns : List BindingTurn) :
    List (Pool.Issued (StoreOp OutboxTables) Moment (Database OutboxTables)) :=
  Pool.issuedBy StoreOp.exec (fun _ (r : BindingRequest) => r.call)
    (Pool.idle start.db : Pool (StoreOp.Answer (ρ := OutboxTables)) _ _) turns

/-- Every proposing request of the turns reads back. -/
def AllDecode (turns : List BindingTurn) : Prop := ∀ r, .ask r ∈ turns → r.Decodes

/-- Every run keeps the law, strictly if its proposals read back, and every operation of it is a commit at most. -/
theorem kept_of_run (start : EmptyHistory) {turns : List BindingTurn} {loose : Prop}
    (hdecode : ¬ loose → AllDecode turns) :
    Kept loose (bindingRun start turns).state ∧
      ∀ x ∈ bindingTrace start turns, Kept loose x.before ∧ Settled loose x.op x.env x.before := by
  have hserve : ∀ s (answers : List (Option (Except BindingError BindingAnswer))) r, .ask r ∈ turns →
      (bindingLaw loose).rel start.db s → (∀ a, some a ∈ answers → True) →
      Keeps StoreOp.exec (bindingLaw loose) (fun _ => True) (Settled loose) (fun _ _ => True) s
        ((fun _ (r : BindingRequest) => r.call) answers r) :=
    fun s answers r hr hs _ => r.keeps_call (hs (start.kept loose)).1 fun hstrict => hdecode hstrict r hr
  obtain ⟨hrel, -, htrace⟩ := Pool.keeps_asked (Pool.lawful_idle start.db) hserve fun _ _ _ _ => trivial
  refine ⟨(hrel (start.kept loose)).1, fun x hx => ?_⟩
  obtain ⟨hsettled, hbefore, -⟩ := htrace x hx
  exact ⟨(hbefore (start.kept loose)).1, hsettled⟩

/-! ### Replays -/

/-- A replay answers with the registry its one read gives. -/
theorem replay_run (registry : BindingRegistry) (m : Moment) (es : List Moment) (db : Database OutboxTables) :
    registry.replay.run.run StoreOp.exec (m :: es) db =
      (db, some ((execScript m selectBindings db).mapError BindingError.store >>= fun rows =>
        decodeRows rows >>= BindingRegistry.ofRows registry.store, es)) := by
  have hrows : (Prog.mapErr BindingError.store (Prog.attempt (Call.read selectBindings)) : BindingCall Rows).run.run
      StoreOp.exec (m :: es) db = (db, some ((execScript m selectBindings db).mapError BindingError.store, es)) := by
    cases es <;> rfl
  unfold BindingRegistry.replay
  rw [Prog.run_try_bind, hrows]
  cases (execScript m selectBindings db).mapError BindingError.store with
  | error e => rfl
  | ok rows => cases es <;> rfl

theorem read_bindings {m : Moment} (hm : m.read = none) (db : Database OutboxTables) :
    execScript m selectBindings db = .ok ((logOf isBinding db.tables).map bindingColumns) := by
  unfold execScript
  rw [hm]
  rfl

/-- With readable rows every replay that reads succeeds, and is the memory of the ledger. -/
theorem replay_of_kept {loose : Prop} {db : Database OutboxTables} (hdb : Kept loose db)
    (hread : Readable (logOf isBinding db.tables)) (registry : BindingRegistry) {m : Moment} (hm : m.read = none) :
    ∃ registry', registry.replay.run.run StoreOp.exec [m] db = (db, some (.ok registry', [])) ∧
      Replayed registry' db.tables := by
  obtain ⟨guard, hrows, hguard⟩ := ofRows_filed hdb.filedAll hread hdb.reachable registry.store
  refine ⟨⟨registry.store, memoryOf (entriesOf (logOf isBinding db.tables)), (logOf isBinding db.tables).length, guard⟩, ?_,
    ⟨rfl, rfl, hread, hguard⟩⟩
  rw [replay_run, read_bindings hm]
  exact congrArg (fun answer => (db, some (answer, []))) hrows

/-! ### Rows that read back -/

theorem decodable_of_modeReads {binding : ProposedBinding} (hparts : FromParts binding) (h : ModeReads binding) :
    Decodable binding := by
  intro operation revision actor hcapgen
  obtain ⟨hsemi, hpercent, hmode⟩ := decodeMode_of_modeReads hparts h
  exact ⟨_, (readEntry_proposal hparts.unit_parse hsemi hpercent hmode operation revision actor).2 hcapgen⟩

/-- The parts of what the request may propose are parsed, and its mode is written as it is read. -/
def BindingRequest.Plain : BindingRequest → Prop
  | .submit _ _ _ pending _ => FromParts pending.binding ∧ ModeReads pending.binding
  | .propose _ _ _ _ _ _ _ _ _ unit mode _ _ _ _ =>
    (∃ raw, MeasureUnit.parse raw = .ok unit) ∧
      ∀ m ∈ mode, (∃ raw, OpMode.parse raw = .ok m) ∧ ModeText m.asStr
  | .convert _ _ _ conversion _ _ _ _ _ _ _ _ _ _ =>
    (∃ raw, MeasureUnit.parse raw = .ok conversion.unit) ∧
      ∀ m ∈ modeOf conversion.value, (∃ raw, OpMode.parse raw = .ok m) ∧ ModeText m.asStr
  | _ => True

theorem BindingRequest.Plain.decodes {r : BindingRequest} (h : r.Plain) : r.Decodes := by
  cases r with
  | submit registry gate credential pending paths => exact decodable_of_modeReads h.1 h.2
  | propose registry gate credential endpointAddress endpointClass endpointScope pointEquipment pointProperty sourceText
      unit mode requested effective feedback paths =>
    intro endpoint equipment property scope source expectedUnit expectedClass binding hbinding
    have hmode : binding.mode = mode := by
      unfold Binding.propose at hbinding
      obtain ⟨_, -, hbinding⟩ := Result.bind_eq_ok.1 hbinding
      cases hbinding
      rfl
    refine decodable_of_modeReads (propose_fromParts h.1 (fun m hm => (h.2 m hm).1) hbinding) fun m hm => ?_
    rw [hmode] at hm
    exact (h.2 m hm).2
  | convert registry gate credential conversion inputRevision endpointAddress endpointClass endpointScope pointProperty
      sourceText requested effective feedback paths =>
    intro scope expectedUnit expectedClass binding hbinding
    refine decodable_of_modeReads (importBinding_fromParts h.1 (fun m hm => (h.2 m hm).1) hbinding) fun m hm => ?_
    rw [(importBinding_eq_ok hbinding).2.2] at hm
    exact (h.2 m hm).2
  | replay | equipment | space | source | point | retire | finding | emit | other => exact trivial

/-- The rows of records, retirements and findings read back as what was recorded. -/
structure RecordsRead : Prop where
  equipment : ∀ id kind scope label address record, EquipmentRecord.parse id kind scope label address = .ok record →
    ∀ operation revision, readEntry opEquipmentText (descriptor (equipmentFields record ++ recordTail operation revision)) =
      .ok ⟨operation.text, revision, .equipment record⟩
  space : ∀ id scope label record, SpaceRecord.parse id scope label = .ok record →
    ∀ operation revision, readEntry opSpaceText (descriptor (spaceFields record ++ recordTail operation revision)) =
      .ok ⟨operation.text, revision, .space record⟩
  source : ∀ id scope label record, SourceRecord.parse id scope label = .ok record →
    ∀ operation revision, readEntry opSourceText (descriptor (sourceFields record ++ recordTail operation revision)) =
      .ok ⟨operation.text, revision, .source record⟩
  point : ∀ equipment property scope unitText endpointClass record,
    PointRecord.parse equipment property scope unitText endpointClass = .ok record →
    ∀ operation revision, readEntry opPointText (descriptor (pointFields record ++ recordTail operation revision)) =
      .ok ⟨operation.text, revision, .point record⟩
  retire : ∀ id address reason operation revision,
    readEntry opRetireText (descriptor (retireFields id address reason ++ recordTail operation revision)) =
      .ok ⟨operation.text, revision, .retire id address⟩
  finding : ∀ operation revision binding (actor : ActorContext), actor.row.capgen ≠ 0 →
    readEntry opFindingText (descriptor (findingFields operation revision binding
        (Finding.forBinding binding revision (descriptor (actorFields actor))) actor)) =
      .ok ⟨operation.text, revision, .finding (Finding.forBinding binding revision (descriptor (actorFields actor)))⟩

theorem recordsRead : RecordsRead where
  equipment _ _ _ _ _ _ h operation revision := readEntry_equipment operation revision (EquipmentRecord.parse_eq_ok h).2
  space _ _ _ _ h operation revision := readEntry_space operation revision (SpaceRecord.parse_eq_ok h).2
  source _ _ _ _ h operation revision := readEntry_source operation revision (SourceRecord.parse_eq_ok h).2
  point _ _ _ _ _ _ h operation revision := readEntry_point operation revision (PointRecord.parse_eq_ok h).2.2
  retire id address reason operation revision := readEntry_retire operation revision id address reason
  finding operation revision binding _ hcapgen := readEntry_finding operation revision binding hcapgen

/-- Every replay of the database that reads its rows succeeds. -/
def Replays (db : Database OutboxTables) : Prop :=
  ∀ (registry : BindingRegistry) (m : Moment), m.read = none → ∃ registry',
    registry.replay.run.run StoreOp.exec [m] db = (db, some (.ok registry', []))

/-- Records, retirements and findings read back; a proposal reads back as its binding exactly when its mode does, and
while the proposals of a run do, every replay after it succeeds. -/
theorem rows_replay (start : EmptyHistory) (turns : List BindingTurn) : RecordsRead ∧
    (∀ binding, FromParts binding → ∀ operation revision actor,
      (splitBinding (proposalText operation revision binding actor) >>= decodePropose) = .ok binding ↔
        ModeReads binding) ∧
    ((∀ r, .ask r ∈ turns → r.Plain) → Replays (bindingRun start turns).state) := by
  refine ⟨recordsRead, fun binding hparts => decodePropose_iff hparts, fun hplain registry m hm => ?_⟩
  have hkept : Kept False (bindingRun start turns).state := (kept_of_run start fun _ r hr => (hplain r hr).decodes).1
  obtain ⟨registry', hrun, -⟩ := replay_of_kept hkept (hkept.readable not_false) registry hm
  exact ⟨registry', hrun⟩

theorem sampleEndpoint_valid : IsId "unit-7" := by decide
theorem sampleScope_valid : IsId "scope-a" := by decide
theorem sampleEquipment_valid : IsId "ahu-1" := by decide
theorem sampleProperty_valid : IsId "supply-temp" := by decide
theorem sampleSource_valid : IsId "source-1" := by decide

/-- A proposal with a mode of the given text. -/
def sampleProposal (mode : Option OpMode) : ProposedBinding where
  endpoint := ⟨"unit-7", sampleEndpoint_valid⟩
  endpointClass := .service
  endpointScope := ⟨"scope-a", sampleScope_valid⟩
  pointEquipment := ⟨"ahu-1", sampleEquipment_valid⟩
  pointProperty := ⟨"supply-temp", sampleProperty_valid⟩
  pointScope := ⟨"scope-a", sampleScope_valid⟩
  source := ⟨"source-1", sampleSource_valid⟩
  unit := .known .degC
  mode := mode
  requested := .sense
  effective := .sense
  feedback := .absent
  status := .valid

theorem sampleProposal_fromParts {raw : String} {mode : OpMode} (h : OpMode.parse raw = .ok mode) :
    FromParts (sampleProposal (some mode)) where
  unit := ⟨"degC", rfl⟩
  mode m hm := by
    cases hm
    exact ⟨raw, h⟩

theorem occupied_reads_back :
    (∀ operation revision actor,
      (splitBinding (proposalText operation revision (sampleProposal (some .occupied)) actor) >>= decodePropose) =
        .ok (sampleProposal (some .occupied))) ∧
      ∀ registry gate operation revision paths, Replays (bindingRun .fresh
        [.ask (.submit registry gate none ⟨operation, revision, sampleProposal (some .occupied)⟩ paths)]).state := by
  have hparts : FromParts (sampleProposal (some .occupied)) :=
    sampleProposal_fromParts (show OpMode.parse "occupied" = .ok .occupied from rfl)
  have hreads : ModeReads (sampleProposal (some .occupied)) := by
    rintro m ⟨⟩
    decide
  refine ⟨fun operation revision actor => ((rows_replay .fresh []).2.1 _ hparts operation revision actor).2 hreads,
    fun registry gate operation revision paths => (rows_replay .fresh _).2.2 ?_⟩
  intro r hr
  rw [List.mem_singleton] at hr
  cases hr
  exact ⟨hparts, hreads⟩

/-- A mode with a semicolon is proposed, and its row does not read back. -/
theorem semicolon_mode_lost :
    OpMode.parse "a;b" = .ok (.unknown "a;b") ∧
      (∃ binding, propose binding.endpoint .service binding.endpointScope binding.pointEquipment binding.pointProperty
        binding.pointScope binding.source (.known .degC) .service (.known .degC) (some (.unknown "a;b")) .sense .sense
        .absent = .ok binding ∧ binding = sampleProposal (some (.unknown "a;b"))) ∧
      ∀ operation revision actor,
        (splitBinding (proposalText operation revision (sampleProposal (some (.unknown "a;b"))) actor) >>= decodePropose) ≠
          .ok (sampleProposal (some (.unknown "a;b"))) := by
  refine ⟨rfl, ⟨sampleProposal (some (.unknown "a;b")), rfl, rfl⟩, fun operation revision actor h => ?_⟩
  have hreads := (decodePropose_iff (sampleProposal_fromParts (show OpMode.parse "a;b" = _ from rfl)) operation revision actor).1 h
  exact absurd (hreads (.unknown "a;b") rfl) (by decide)

end Verdant.Binding
