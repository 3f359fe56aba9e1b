import Verdant.Accept.Staging
import Verdant.Access.Delegation
import Verdant.Binding.BindingRuns

/-!
# Staging a resolved configuration

What a store that takes the row keeps of a resolved configuration: the configuration comes back from its bytes and from its
staged row exactly when every entry and every fact is read as it is written (`roundTrips_iff`).
-/

namespace Verdant.Accept

open TextCodec Storage Access Binding Prog

/-- On a store that takes its row the configuration is staged under the operation, and read back from there. -/
def StagesExactly (config : EffectiveConfig) : Prop :=
  ∀ (accept : AcceptanceStore) (names : List String) (operation drawn : OperationId) (findings : List Seal.RowKey)
    (db : Database OutboxTables) (draw write look : Moment),
    checkEnvironment names = .ok () → isStageOperation operation = true → findings.length ≤ Seal.maxNodes →
    OperationId.parse draw.id = .ok drawn → write.host.Quiet → look.read = none →
    Stageable accept.store operation (stagedJson config findings) db →
    ∃ db', (accept.stage names operation config findings).run.run StoreOp.exec [draw, write] db =
        (db', some (.ok ⟨operation, config, stagedJson config findings⟩, [])) ∧
      (AcceptanceStore.readStaged operation).run.run StoreOp.exec [look] db' =
        (db', some (.ok ⟨operation, config, stagedJson config findings⟩, []))

/-- The bytes of the configuration are read as the configuration, and so is what a stage of it commits. -/
structure RoundTrips (config : EffectiveConfig) : Prop where
  decodes : EffectiveConfig.decode config.canonicalBytes = .ok config
  stages : StagesExactly config

theorem stagesExactly_of_decode {config : EffectiveConfig} (hsmall : config.canonicalBytes.utf8ByteSize ≤ maxConfigBytes)
    (hdecode : EffectiveConfig.decode config.canonicalBytes = .ok config) : StagesExactly config := by
  intro accept names operation drawn findings db draw write look henvironment hnamespace hfew hid hhost hread hstore
  obtain ⟨db', hrun, happended⟩ := AcceptanceStore.stage_runs henvironment hnamespace hsmall hfew hid hhost hstore
  refine ⟨db', hrun, ?_⟩
  have hnone : logOf (isOperation operation) db.tables = [] := by
    have hunstaged := hstore.unstaged
    unfold unstaged present at hunstaged
    unfold logOf
    rw [List.filter_eq_nil_iff]
    simpa using hunstaged
  have hrow : logOf (isOperation operation) db'.tables =
      [(stageRow operation (stagedJson config findings)).record (db.tables.lastId + 1)] := by
    have hmine : isOperation operation ((stageRow operation (stagedJson config findings)).record (db.tables.lastId + 1)) =
        true := decide_eq_true rfl
    rw [happended.logOf_eq, hnone, List.nil_append]
    exact List.filter_cons_of_pos hmine
  rw [AcceptanceStore.readStaged_of_row hread hnamespace hrow, stagedContent_stagedJson hsmall hfew, hdecode]
  rfl

/-- A resolved configuration of bindings built from parts is staged and read back exactly when its labels hold no separator
and no mode is written as the absent one, and its facts are within the limits of the reader. -/
theorem roundTrips_iff {names : List String} {paths : CanonicalPaths} {gate : AccessGate}
    {registry after : BindingRegistry} {scope : TrustedScope} {domain intent : List Entry} {config : EffectiveConfig}
    {E : Moment → Prop} {db db' : Database OutboxTables} (hparts : ∀ e ∈ domain ++ intent, FromParts e.binding)
    (h : Runs StoreOp.exec E (EffectiveConfig.resolve names paths gate registry scope domain intent).run db db'
      (some (.ok (after, config)))) :
    RoundTrips config ↔ config.ReadsBack := by
  obtain ⟨reason, hassemble⟩ := EffectiveConfig.assemble_of_resolve h
  have hadmitted := EffectiveConfig.admitted_of_assemble hparts hassemble
  constructor
  · exact fun hround => (EffectiveConfig.decode_canonicalBytes_iff hadmitted).1 hround.decodes
  · intro hreads
    have hdecode := (EffectiveConfig.decode_canonicalBytes_iff hadmitted).2 hreads
    exact ⟨hdecode, stagesExactly_of_decode hadmitted.small hdecode⟩

/-! ### Resolved configurations -/

/-- Without a binding row the configuration of a gate is assembled from its reason and an empty memory. -/
theorem EffectiveConfig.resolve_runs {names : List String} {paths : CanonicalPaths} {gate : AccessGate}
    (registry : BindingRegistry) {scope : TrustedScope} {domain intent : List Entry} {config : EffectiveConfig}
    {db : Database OutboxTables} (henvironment : checkEnvironment names = .ok ())
    (hpaths : sameStores paths "source stores differ" = .ok ()) (hdb : Access.Kept db)
    (hbound : (admissions db.tables).length ≤ gate.store.bounds.maxReplayRows) {marker : BootstrapRow}
    (hmarker : bootstrapsOf (admissions db.tables) = [marker]) (hnone : logOf isBinding db.tables = []) {m m' : Moment}
    (hread : m.read = none) (hread' : m'.read = none)
    (hassemble : assemble scope .empty marker.reason domain intent = .ok config) :
    (resolve names paths gate registry scope domain intent).run.run StoreOp.exec [m, m'] db =
      (db, some (.ok (⟨registry.store, .empty, 0, countBindings 0⟩, config), [])) := by
  have hrows : execScript m selectBindings db = .ok [] := by
    unfold execScript selectBindings selectLog
    rw [hread]
    simp only [hnone]
    rfl
  have hreplay : registry.replay.run.run StoreOp.exec [m, m'] db =
      (db, some (.ok ⟨registry.store, .empty, 0, countBindings 0⟩, [m'])) := by
    have hrun : (mapErr BindingError.store (attempt (Call.read selectBindings))).run.run StoreOp.exec [m, m'] db =
        (db, some ((execScript m selectBindings db).mapError BindingError.store, [m'])) := rfl
    unfold BindingRegistry.replay
    rw [run_try_bind, hrun, hrows]
    rfl
  unfold resolve
  rw [henvironment, check_bind_ok, hpaths, check_bind_ok]
  refine run_try_ok.2 ⟨_, db, [m'], run_mapErr_ok hreplay _, ?_⟩
  refine run_try_ok.2 ⟨_, db, [], run_mapErr_ok (run_bootstrapReason hdb hbound hmarker hread' []) _, ?_⟩
  rw [hassemble, check_bind_ok]
  rfl

namespace DashMode

/-- The only entry of a configuration. -/
def entry (mode : Option OpMode) : Entry := ⟨⟨"point-1", by decide⟩, "Supply", by decide, sampleProposal mode, .domain⟩

theorem scope_valid : IsId "scope-a" := by decide

def scope : TrustedScope := ⟨"scope-a", scope_valid⟩

def config (mode : Option OpMode) : EffectiveConfig where
  scope := scope
  bindingRevision := Memory.empty.revision
  bootstrapReason := ReviewerRotation.reason.text
  entries := ⟨[entry mode], List.pairwise_singleton _ _⟩
  facts := []

theorem config_assembled (mode : Option OpMode)
    (hsmall : (config mode).canonicalBytes.utf8ByteSize ≤ maxConfigBytes) :
    EffectiveConfig.assemble scope .empty ReviewerRotation.reason.text [entry mode] [] = .ok (config mode) := by
  have hfirst : EffectiveConfig.addEntries .domain scope .empty [entry mode] =
      .ok ⟨[entry mode], List.pairwise_singleton _ _⟩ := rfl
  have hsecond : EffectiveConfig.addEntries .temporaryIntent scope ⟨[entry mode], List.pairwise_singleton _ _⟩ [] =
      .ok ⟨[entry mode], List.pairwise_singleton _ _⟩ := rfl
  unfold EffectiveConfig.assemble
  rw [hfirst, Result.ok_bind, hsecond, Result.ok_bind, if_neg (List.cons_ne_nil _ _)]
  exact if_neg (Nat.not_lt.2 hsmall)

/-- The configuration is resolved on a bootstrapped database. -/
theorem config_resolved (mode : Option OpMode) (hsmall : (config mode).canonicalBytes.utf8ByteSize ≤ maxConfigBytes)
    (registry : BindingRegistry) : ∃ after db, Runs StoreOp.exec (fun _ => True)
      (EffectiveConfig.resolve [] ⟨.ok "main", .ok "main"⟩ ReviewerRotation.gate registry scope [entry mode] []).run db db
        (some (.ok (after, config mode))) := by
  obtain ⟨rows, hrows⟩ := ReviewerRotation.rows_made ReviewerRotation.gate
  obtain ⟨scopeA, label, label', policy, -, -, hshape⟩ := bootstrapRows_eq_ok hrows
  have hlength : rows.length = 3 := by
    rw [hshape]
    rfl
  have hmarker : bootstrapsOf rows = [ReviewerRotation.gate.bootstrapMarker ReviewerRotation.reason] := by
    rw [hshape]
    rfl
  have hcommit : Commit 0 [] none rows := .bootstrap ReviewerRotation.gate rfl rfl rfl hrows
  obtain ⟨hkept, hlog⟩ := kept_tablesOf hcommit (by rw [hlength]; decide)
  have hnone : logOf isBinding (tablesOf rows) = [] := by
    have hall : ∀ operation ∈ [opBootstrapText, opIssueText, opRevokeText], likePrefix "binding-" operation = false := by
      decide
    exact logOf_tablesOf rows fun r hr => hall r.operation hr
  have hpaths : sameStores ⟨.ok "main", .ok "main"⟩ "source stores differ" = .ok () := by rfl
  have hbound : (admissions (tablesOf rows)).length ≤ ReviewerRotation.gate.store.bounds.maxReplayRows := by
    have hreplay : ReviewerRotation.gate.store.bounds.maxReplayRows = 64 := rfl
    rw [hlog, hlength, hreplay]
    decide
  rw [← hlog] at hmarker
  have hrun := EffectiveConfig.resolve_runs registry (show checkEnvironment [] = .ok () from rfl) hpaths hkept
    hbound hmarker hnone (show (Moment.quiet "op-1" 1000).read = none from rfl)
    (show (Moment.quiet "op-1" 1000).read = none from rfl) (config_assembled mode hsmall)
  refine ⟨⟨registry.store, .empty, 0, countBindings 0⟩, ⟨tablesOf rows, []⟩,
    [Moment.quiet "op-1" 1000, Moment.quiet "op-1" 1000], fun _ _ => trivial, ?_, ?_⟩
  · rw [hrun]
  · rw [hrun]
    rfl

theorem parts (mode : Option OpMode) (h : ∀ m ∈ mode, ∃ raw, OpMode.parse raw = .ok m) :
    ∀ e ∈ [entry mode] ++ [], FromParts e.binding := by
  intro e he
  rw [List.append_nil, List.mem_singleton] at he
  rw [he]
  exact ⟨⟨"degC", rfl⟩, h⟩

theorem config_small (mode : Option OpMode) (h : mode ∈ [none, some .occupied, some (.unknown "-")]) :
    (config mode).canonicalBytes.utf8ByteSize ≤ maxConfigBytes := by
  revert mode
  decide +kernel

end DashMode

/-- A configuration with a mode that reads is staged and read back. -/
theorem occupied_roundTrips : RoundTrips (DashMode.config (some .occupied)) := by
  obtain ⟨after, db, hrun⟩ := DashMode.config_resolved (some .occupied) (DashMode.config_small _ (by simp))
    ⟨⟨"main", .tiny⟩, .empty, 0, countBindings 0⟩
  have hparts := DashMode.parts (some .occupied) (by rintro m ⟨⟩; exact ⟨"occupied", rfl⟩)
  refine (roundTrips_iff hparts hrun).2 ⟨fun e he => ?_, by decide, fun fact hfact => absurd hfact List.not_mem_nil⟩
  rw [List.mem_singleton.1 he]
  have hreads : LabelsRead (sampleProposal (some .occupied)) := by decide
  exact hreads

/-- A resolved configuration with a mode written as the absent one is not read back. -/
theorem dash_mode_lost : ¬ ∀ (names : List String) (paths : CanonicalPaths) (gate : AccessGate)
    (registry after : BindingRegistry) (scope : TrustedScope) (domain intent : List Entry) (config : EffectiveConfig)
    (db : Database OutboxTables), (∀ e ∈ domain ++ intent, FromParts e.binding) →
      Runs StoreOp.exec (fun _ => True) (EffectiveConfig.resolve names paths gate registry scope domain intent).run db db
        (some (.ok (after, config))) → RoundTrips config := by
  intro h
  obtain ⟨after, db, hrun⟩ := DashMode.config_resolved (some (.unknown "-")) (DashMode.config_small _ (by simp))
    ⟨⟨"main", .tiny⟩, .empty, 0, countBindings 0⟩
  have hparts := DashMode.parts (some (.unknown "-")) (by rintro m ⟨⟩; exact ⟨"-", rfl⟩)
  have hround := h _ _ _ _ _ _ _ _ _ _ hparts hrun
  obtain ⟨reason, hassemble⟩ := EffectiveConfig.assemble_of_resolve hrun
  have hreads := (EffectiveConfig.decode_canonicalBytes_iff (EffectiveConfig.admitted_of_assemble hparts hassemble)).1
    hround.decodes
  have hmode := (hreads.labels (DashMode.entry (some (.unknown "-"))) List.mem_cons_self).marked (.unknown "-") rfl
  exact absurd hmode (by decide)

end Verdant.Accept
