import Verdant.Domain.Fixture
import Verdant.Library.Result
import Verdant.Library.Sorting
import Verdant.Semantics.Sources

/-!
# Native plans

The statements that put the tiny site into the native store: one node or edge under a key each, with the read that finds
it, the read that finds it exactly, and the write.  The map of a plan is sorted, and its keys put the nodes before the edges.
-/

namespace Verdant.Semantics

inductive MaterializeError where
  | unsupportedMeaning (iri : String)
  | sourceEvidence (iri : String)
  | outsideFixture
  | crossScope
  | conflict
  | statementLimit
  | execution (code detail : String)
  | unexpectedOutcome
  deriving DecidableEq, Repr

/-! ### Statements -/

abbrev Props := List (String × String)

def properties (props : Props) : String := ", ".intercalate (props.map fun (key, value) => key ++ ": " ++ json value)

def predicates (name : String) (props : Props) : String :=
  " AND ".intercalate (props.map fun (key, value) => name ++ "." ++ key ++ " = " ++ json value)

inductive Statement where
  | matchNode (key : String)
  | exactNode (props : Props)
  | insertNode (props : Props)
  | matchEdge (key : String)
  | exactEdge (a b : String) (props : Props)
  | insertEdge (a b : String) (props : Props)
  deriving DecidableEq, Repr

def endpoints (a b : String) : String := "a.key = " ++ json a ++ " AND b.key = " ++ json b

def Statement.text : Statement → String
  | .matchNode key => "MATCH (n:S02Node) WHERE n.key = " ++ json key ++ " RETURN n"
  | .exactNode props => "MATCH (n:S02Node) WHERE " ++ predicates "n" props ++ " RETURN n"
  | .insertNode props => "INSERT (:S02Node \x7b" ++ properties props ++ "\x7d)"
  | .matchEdge key => "MATCH ()-[e:S02Relation]->() WHERE e.key = " ++ json key ++ " RETURN e"
  | .exactEdge a b props =>
    "MATCH (a:S02Node)-[e:S02Relation]->(b:S02Node) WHERE " ++ endpoints a b ++ " AND " ++ predicates "e" props ++
      " RETURN e"
  | .insertEdge a b props =>
    "MATCH (a:S02Node), (b:S02Node) WHERE " ++ endpoints a b ++ " INSERT (a)-[:S02Relation \x7b" ++ properties props ++
      "\x7d]->(b)"

structure Step where
  identity : Statement
  exact : Statement
  insert : Statement
  deriving DecidableEq, Repr

def Step.texts (step : Step) : String × String × String := (step.identity.text, step.exact.text, step.insert.text)

def Step.node (key : String) (props : Props) : Step := ⟨.matchNode key, .exactNode props, .insertNode props⟩

def Step.edge (a b key : String) (props : Props) : Step := ⟨.matchEdge key, .exactEdge a b props, .insertEdge a b props⟩

/-! ### Evidence -/

def required (source : Report) (artifact iri : String) : Except MaterializeError Row :=
  match source.rows.find? fun r => r.artifact = artifact ∧ r.iri = iri with
  | some row => .ok row
  | none => .error (.unsupportedMeaning iri)

def validateRow (source : Report) (row : Row) : Except MaterializeError Unit := do
  let canonical ← (supported row.artifact row.iri).mapError fun _ => .unsupportedMeaning row.iri
  if row ≠ canonical ∨ row ∉ source.rows then .error (.unsupportedMeaning row.iri) else .ok ()

def declaredType (row : Row) : Option String :=
  let rec' := recNamespace.toList.isPrefixOf row.iri.toList
  if row.artifact = brick ∧ row.kind = "class" then
    if rec' then some "http://www.w3.org/2000/01/rdf-schema#Class" else some "http://www.w3.org/2002/07/owl#Class"
  else if row.artifact = s223 ∧ row.kind = "class" then some "http://data.ashrae.org/standard223#Class"
  else if row.artifact = brick ∧ row.kind = "relation" then some "http://www.w3.org/2002/07/owl#ObjectProperty"
  else if row.artifact = s223 ∧ row.kind = "relation" then some "http://www.w3.org/1999/02/22-rdf-syntax-ns#Property"
  else none

def typeIri : String := "http://www.w3.org/1999/02/22-rdf-syntax-ns#type"

def ancestryPathIri : String := "urn:verdant:s01:ancestry-path"

def evidence (source : Report) (row : Row) : Except MaterializeError Props := do
  validateRow source row
  let pin ← (artifact row.artifact).mapError fun _ => .sourceEvidence row.iri
  let facts := source.ledger.filter fun f =>
    f.artifact = row.artifact ∧ f.subject = row.iri ∧ f.predicate ≠ ancestryPathIri
  match declaredType row with
  | none => .error (.unsupportedMeaning row.iri)
  | some declared =>
    if (facts.any fun f => f.sha256 ≠ pin.sha256 ∨ f.provenance ≠ pin.provenance) ||
        !(facts.any fun f => f.kind = .original ∧ f.predicate = typeIri ∧ f.object = .iri declared) then
      .error (.sourceEvidence row.iri)
    else
      let encoded := (sortBy id (facts.map Fact.toJson)).dedup
      .ok [("artifact", pin.name), ("sha256", pin.sha256), ("facts_json", "[" ++ ",".intercalate encoded ++ "]"),
        ("evidence", "synthetic-native; not observed-qualified")]

/-! ### Plans -/

/-- The map of steps, in the order of its keys. -/
structure Plan where
  steps : List (String × Step)

def Plan.keys (plan : Plan) : List String := plan.steps.map Prod.fst

/-- A step enters under a new key; under one that is there it must be the same. -/
def Plan.add (plan : Plan) (key : String) (step : Step) : Except MaterializeError Plan :=
  match plan.steps.lookup key with
  | some prior => if prior.texts ≠ step.texts then .error .conflict else .ok plan
  | none => .ok ⟨plan.steps.orderedInsert (fun a b => a.1 ≤ b.1) (key, step)⟩

def nodeKey (scope : TrustedScope) (role installed : String) : String := scope.text ++ "|" ++ role ++ "|" ++ installed

def Plan.node (plan : Plan) (source : Report) (scope : TrustedScope) (role installed : String) (row : Row)
    (label values : String) : Except MaterializeError Plan := do
  let key := nodeKey scope role installed
  let props ← evidence source row
  plan.add ("0:" ++ key) (.node key (props ++
    [("key", key), ("scope", scope.text), ("role", role), ("installed_id", installed), ("type_iri", row.iri),
      ("label", label), ("values_json", values)]))

def Plan.edge (plan : Plan) (source : Report) (scope : TrustedScope) (start target targetRole : String) (row : Row) :
    Except MaterializeError Plan := do
  let a := nodeKey scope "installed" start
  let b := nodeKey scope targetRole target
  let key := a ++ "|" ++ row.iri ++ "|" ++ b
  let props ← evidence source row
  plan.add ("1:" ++ key) (.edge a b key (props ++
    [("key", key), ("scope", scope.text), ("iri", row.iri), ("direction", row.direction)]))

/-! ### The tiny site -/

def scopeOf (site : TinySite) (id : InstalledId) : Except MaterializeError TrustedScope :=
  if id = site.sharedSensor then
    match site.readings.head? with
    | some reading => .ok reading.scope
    | none => .error .outsideFixture
  else
    let located : Relationship → Option TrustedScope
      | .locatedIn entity scope => if entity = id then some scope else none
      | .servedBy _ _ => none
      | .observedBy _ _ => none
    match site.relationships.findSome? located with
    | some scope => .ok scope
    | none => .error .outsideFixture

def sameScope (site : TinySite) (a b : InstalledId) : Except MaterializeError TrustedScope := do
  let scope ← scopeOf site a
  let other ← scopeOf site b
  if scope ≠ other then .error .crossScope else .ok scope

/-- Where the edge of a relation starts and ends, the role of its target, and its scope. -/
def relationEnds (site : TinySite) (relation : Relationship) (row : Row) :
    Except MaterializeError (String × String × String × TrustedScope) :=
  match relation with
  | .locatedIn entity scope => do
    let own ← scopeOf site entity
    if own ≠ scope then .error .crossScope
    else if row.iri ≠ "https://brickschema.org/schema/Brick#hasLocation" ∧ row.iri ≠ "https://w3id.org/rec#locatedIn" then
      .error (.unsupportedMeaning row.iri)
    else .ok (entity.text, "", "location", scope)
  | .servedBy vav ahu => do
    let scope ← sameScope site ahu vav
    if row.iri ≠ "https://brickschema.org/schema/Brick#feeds" then .error (.unsupportedMeaning row.iri)
    else .ok (ahu.text, vav.text, "installed", scope)
  | .observedBy entity sensor => do
    let scope ← sameScope site entity sensor
    if row.iri = "https://brickschema.org/schema/Brick#hasPoint" then .ok (entity.text, sensor.text, "installed", scope)
    else if row.iri = "https://brickschema.org/schema/Brick#isPointOf" then
      .ok (sensor.text, entity.text, "installed", scope)
    else .error (.unsupportedMeaning row.iri)

def Plan.relate (source : Report) (site : TinySite) (plan : Plan) (wanted : Relationship × Row) :
    Except MaterializeError Plan := do
  validateRow source wanted.2
  let (start, target, targetRole, scope) ← relationEnds site wanted.1 wanted.2
  if wanted.1 ∉ site.relationships then .error .outsideFixture
  else plan.edge source scope start target targetRole wanted.2

def Plan.observe (source : Report) (site : TinySite) (plan : Plan) (row : Row) : Except MaterializeError Plan := do
  validateRow source row
  if row.iri ≠ "http://data.ashrae.org/standard223#observes" then .error (.unsupportedMeaning row.iri)
  else
    let scope ← scopeOf site site.sharedSensor
    plan.edge source scope site.sharedSensor.text site.sharedSensor.text "property" row

/-- The installed nodes of the site with the term each maps to. -/
def installedTerms (site : TinySite) : List (InstalledId × String) :=
  [(site.ahu, "https://brickschema.org/schema/Brick#AHU"), (site.vavs.1, "https://brickschema.org/schema/Brick#VAV"),
    (site.vavs.2, "https://brickschema.org/schema/Brick#VAV"),
    (site.sharedSensor, "https://brickschema.org/schema/Brick#Supply_Air_Temperature_Sensor")]

def Plan.install (source : Report) (site : TinySite) (plan : Plan) (term : InstalledId × String) :
    Except MaterializeError Plan := do
  let scope ← scopeOf site term.1
  let values := (site.readings.filter fun r => r.entity = term.1 ∧ r.scope = scope).map fun r => r.value.toJson
  let row ← required source brick term.2
  match site.labelOf term.1 with
  | none => .error .outsideFixture
  | some label => plan.node source scope "installed" term.1.text row label ("[" ++ ",".intercalate values ++ "]")

def Plan.locate (source : Report) (plan : Plan) (scope : TrustedScope) : Except MaterializeError Plan := do
  let row ← required source brick "https://w3id.org/rec#Room"
  plan.node source scope "location" "" row scope.text "[]"

/-- Only the relations asked for are written. -/
def Plan.assemble (source : Report) (relations : List (Relationship × Row)) (observes : Option Row) :
    Except MaterializeError Plan := do
  let site := Verdant.tinySite
  let plan ← (installedTerms site).foldlM (Plan.install source site) ⟨[]⟩
  let plan ← site.scopes.foldlM (Plan.locate source) plan
  let scope ← scopeOf site site.sharedSensor
  let row ← required source s223 "http://data.ashrae.org/standard223#QuantifiableObservableProperty"
  let plan ← plan.node source scope "property" site.sharedSensor.text row "shared supply air temperature" "[]"
  let plan ← relations.foldlM (Plan.relate source site) plan
  observes.elim (.ok plan) (plan.observe source site)

/-- Some statement is longer than the limit. -/
def Plan.tooLong (plan : Plan) (maxStatementBytes : Nat) : Bool :=
  plan.steps.any fun entry => [entry.2.identity, entry.2.exact, entry.2.insert].any fun s =>
    maxStatementBytes < s.text.utf8ByteSize

def Plan.tinySite (source : Report) (relations : List (Relationship × Row)) (observes : Option Row)
    (maxStatementBytes : Nat) : Except MaterializeError Plan := do
  let plan ← Plan.assemble source relations observes
  if plan.tooLong maxStatementBytes then .error .statementLimit else .ok plan

/-! ### Wellformed plans -/

/-- Properties that name their key and no name twice. -/
structure Recorded (key : String) (props : Props) : Prop where
  key : props.lookup "key" = some key
  once : (props.map Prod.fst).Nodup

/-- The entries of a plan; an edge runs between nodes of the plan. -/
inductive Entry (keys : List String) : String × Step → Prop where
  | node {key : String} {props : Props} (h : Recorded key props) : Entry keys ("0:" ++ key, .node key props)
  | edge {a b key : String} {props : Props} (h : Recorded key props) (ha : "0:" ++ a ∈ keys) (hb : "0:" ++ b ∈ keys) :
    Entry keys ("1:" ++ key, .edge a b key props)

structure Plan.Wellformed (plan : Plan) : Prop where
  entries : ∀ entry ∈ plan.steps, Entry plan.keys entry
  sorted : plan.keys.Pairwise (· < ·)

theorem Entry.mono {keys keys' : List String} {entry : String × Step} (h : Entry keys entry) (hkeys : keys ⊆ keys') :
    Entry keys' entry := by
  cases h with
  | node h => exact .node h
  | edge h ha hb => exact .edge h (hkeys ha) (hkeys hb)

theorem mem_keys_of_lookup {plan : Plan} {key : String} {step : Step} (h : plan.steps.lookup key = some step) :
    key ∈ plan.keys := by
  obtain ⟨before, after, hsteps, -⟩ := List.lookup_eq_some_iff.1 h
  rw [Plan.keys, hsteps]
  simp

theorem lookup_none_keys {plan : Plan} {key : String} (h : plan.steps.lookup key = none) : key ∉ plan.keys := by
  intro hmem
  obtain ⟨⟨_, step⟩, hentry, rfl⟩ := List.mem_map.1 hmem
  have hne := List.lookup_eq_none_iff.1 h _ hentry
  simp at hne

/-- What building a plan has come to: it is wellformed, and these keys are in it. -/
structure Plan.Holds (plan : Plan) (keys : List String) : Prop where
  wellformed : plan.Wellformed
  keys : keys ⊆ plan.keys

theorem Plan.Holds.add {plan plan' : Plan} {keys : List String} {key : String} {step : Step} (hplan : plan.Holds keys)
    (hentry : Entry plan.keys (key, step)) (h : plan.add key step = .ok plan') : plan'.Holds (key :: keys) := by
  unfold Plan.add at h
  rcases hlookup : plan.steps.lookup key with _ | prior
  · simp only [hlookup] at h
    obtain rfl := Except.ok.inj h
    have hperm := List.perm_orderedInsert (fun a b : String × Step => a.1 ≤ b.1) (key, step) plan.steps
    have hnew : (plan.steps.orderedInsert (fun a b => a.1 ≤ b.1) (key, step)).map Prod.fst =
        plan.keys.orderedInsert (· ≤ ·) key := by
      exact List.map_orderedInsert _ (· ≤ ·) Prod.fst _ _ (fun _ _ => Iff.rfl) (fun _ _ => Iff.rfl)
    have hmem : ∀ k, k = key ∨ k ∈ plan.keys → k ∈ plan.keys.orderedInsert (· ≤ ·) key :=
      fun k hk => (List.mem_orderedInsert _).2 hk
    refine ⟨⟨?_, ?_⟩, ?_⟩
    · intro entry hin
      have hsub : plan.keys ⊆ (Plan.mk (plan.steps.orderedInsert (fun a b => a.1 ≤ b.1) (key, step))).keys := by
        intro k hk
        rw [Plan.keys, hnew]
        exact hmem k (.inr hk)
      rcases List.mem_cons.1 (hperm.mem_iff.1 hin) with rfl | hold
      · exact hentry.mono hsub
      · exact (hplan.wellformed.entries entry hold).mono hsub
    · rw [Plan.keys, hnew]
      exact pairwise_lt_orderedInsert hplan.wellformed.sorted (lookup_none_keys hlookup)
    · intro k hk
      rw [Plan.keys, hnew]
      rcases List.mem_cons.1 hk with rfl | hold
      · exact hmem k (.inl rfl)
      · exact hmem k (.inr (hplan.keys hold))
  · simp only [hlookup] at h
    rw [Result.ite_error_eq_ok] at h
    obtain rfl := Except.ok.inj h.2
    exact ⟨hplan.wellformed, List.cons_subset.2 ⟨mem_keys_of_lookup hlookup, hplan.keys⟩⟩

theorem evidence_names {source : Report} {row : Row} {props : Props} (h : evidence source row = .ok props) :
    props.map Prod.fst = ["artifact", "sha256", "facts_json", "evidence"] := by
  unfold evidence at h
  obtain ⟨-, -, h⟩ := Result.bind_eq_ok.1 h
  obtain ⟨pin, -, h⟩ := Result.bind_eq_ok.1 h
  rcases hdeclared : declaredType row with _ | declared
  · rw [hdeclared] at h
    exact nomatch h
  · rw [hdeclared] at h
    dsimp only at h
    split at h
    · exact nomatch h
    · obtain rfl := Except.ok.inj h
      rfl

theorem lookup_append_of_notMem {front back : Props} {name : String} (h : name ∉ front.map Prod.fst) :
    (front ++ back).lookup name = back.lookup name := by
  induction front with
  | nil => rfl
  | cons field front ih =>
    rw [List.map_cons, List.mem_cons, not_or] at h
    have hne : (name == field.1) = false := beq_eq_false_iff_ne.2 h.1
    rw [List.cons_append, List.lookup_cons, hne]
    exact ih h.2

theorem Plan.Holds.node {source : Report} {plan plan' : Plan} {keys : List String} {scope : TrustedScope}
    {role installed : String} {row : Row} {label values : String} (hplan : plan.Holds keys)
    (h : plan.node source scope role installed row label values = .ok plan') :
    plan'.Holds (("0:" ++ nodeKey scope role installed) :: keys) := by
  unfold Plan.node at h
  obtain ⟨props, hprops, h⟩ := Result.bind_eq_ok.1 h
  have hnames := evidence_names hprops
  refine hplan.add (.node ⟨?_, ?_⟩) h
  · rw [lookup_append_of_notMem (by rw [hnames]; decide)]
    rfl
  · rw [List.map_append, hnames]
    exact (by decide : ["artifact", "sha256", "facts_json", "evidence", "key", "scope", "role", "installed_id", "type_iri",
      "label", "values_json"].Nodup)

theorem Plan.Holds.edge {source : Report} {plan plan' : Plan} {keys : List String} {scope : TrustedScope}
    {start target targetRole : String} {row : Row} (hplan : plan.Holds keys)
    (hstart : "0:" ++ nodeKey scope "installed" start ∈ keys) (htarget : "0:" ++ nodeKey scope targetRole target ∈ keys)
    (h : plan.edge source scope start target targetRole row = .ok plan') : plan'.Holds keys := by
  unfold Plan.edge at h
  obtain ⟨props, hprops, h⟩ := Result.bind_eq_ok.1 h
  have hnames := evidence_names hprops
  have hadd := hplan.add (.edge ⟨?_, ?_⟩ (hplan.keys hstart) (hplan.keys htarget)) h
  · exact ⟨hadd.wellformed, fun k hk => hadd.keys (List.mem_cons_of_mem _ hk)⟩
  · rw [lookup_append_of_notMem (by rw [hnames]; decide)]
    rfl
  · rw [List.map_append, hnames]
    exact (by decide : ["artifact", "sha256", "facts_json", "evidence", "key", "scope", "iri", "direction"].Nodup)

/-- The nodes of the site under their keys. -/
def siteKeys : List String :=
  ["0:scope-a|property|sensor-sat-1", "0:scope-b|location|", "0:scope-a|location|", "0:scope-a|installed|sensor-sat-1",
    "0:scope-b|installed|vav-102", "0:scope-a|installed|vav-101", "0:scope-a|installed|ahu-1"]

theorem Plan.Holds.install {source : Report} {plan plan' : Plan} {keys : List String} {term : InstalledId × String}
    {scope : TrustedScope} (hscope : scopeOf Verdant.tinySite term.1 = .ok scope) (hplan : plan.Holds keys)
    (h : plan.install source Verdant.tinySite term = .ok plan') :
    plan'.Holds (("0:" ++ nodeKey scope "installed" term.1.text) :: keys) := by
  unfold Plan.install at h
  obtain ⟨scope', hscope', h⟩ := Result.bind_eq_ok.1 h
  obtain rfl := Except.ok.inj (hscope.symm.trans hscope')
  obtain ⟨row, -, h⟩ := Result.bind_eq_ok.1 h
  rcases hlabel : Verdant.tinySite.labelOf term.1 with _ | label
  · rw [hlabel] at h
    exact nomatch h
  · rw [hlabel] at h
    exact hplan.node h

theorem Plan.Holds.locate {source : Report} {plan plan' : Plan} {keys : List String} {scope : TrustedScope}
    (hplan : plan.Holds keys) (h : plan.locate source scope = .ok plan') :
    plan'.Holds (("0:" ++ nodeKey scope "location" "") :: keys) := by
  unfold Plan.locate at h
  obtain ⟨row, -, h⟩ := Result.bind_eq_ok.1 h
  exact hplan.node h

theorem scopeOf_ahu1 : scopeOf Verdant.tinySite TinySite.ahu1 = .ok TinySite.scopeA := rfl

theorem scopeOf_vav101 : scopeOf Verdant.tinySite TinySite.vav101 = .ok TinySite.scopeA := rfl

theorem scopeOf_vav102 : scopeOf Verdant.tinySite TinySite.vav102 = .ok TinySite.scopeB := rfl

theorem scopeOf_sensorSat1 : scopeOf Verdant.tinySite TinySite.sensorSat1 = .ok TinySite.scopeA := rfl

/-- The two ends in one scope are the ones asked for. -/
theorem sameScope_ok {site : TinySite} {a b : InstalledId} {scope : TrustedScope}
    (h : sameScope site a b = .ok scope) : scopeOf site a = .ok scope ∧ scopeOf site b = .ok scope := by
  unfold sameScope at h
  obtain ⟨own, hown, h⟩ := Result.bind_eq_ok.1 h
  obtain ⟨other, hother, h⟩ := Result.bind_eq_ok.1 h
  rw [Result.ite_error_eq_ok, not_not] at h
  obtain ⟨rfl, h⟩ := h
  obtain rfl := Except.ok.inj h
  exact ⟨hown, hother⟩

/-- The installed nodes have their keys among those of the site. -/
theorem installed_siteKeys {id : InstalledId} {scope : TrustedScope}
    (hid : id ∈ [TinySite.ahu1, TinySite.vav101, TinySite.vav102, TinySite.sensorSat1])
    (h : scopeOf Verdant.tinySite id = .ok scope) : "0:" ++ nodeKey scope "installed" id.text ∈ siteKeys := by
  simp only [List.mem_cons, List.not_mem_nil, or_false] at hid
  rcases hid with rfl | rfl | rfl | rfl
  · obtain rfl := Except.ok.inj (scopeOf_ahu1.symm.trans h)
    decide
  · obtain rfl := Except.ok.inj (scopeOf_vav101.symm.trans h)
    decide
  · obtain rfl := Except.ok.inj (scopeOf_vav102.symm.trans h)
    decide
  · obtain rfl := Except.ok.inj (scopeOf_sensorSat1.symm.trans h)
    decide

/-- Whom a relation is about, for the relations of the site. -/
theorem relation_members :
    ∀ relation ∈ Verdant.tinySite.relationships, match relation with
      | .locatedIn entity scope => entity ∈ [TinySite.ahu1, TinySite.vav101, TinySite.vav102, TinySite.sensorSat1] ∧
          "0:" ++ nodeKey scope "location" "" ∈ siteKeys
      | .servedBy vav ahu => vav ∈ [TinySite.ahu1, TinySite.vav101, TinySite.vav102, TinySite.sensorSat1] ∧
          ahu ∈ [TinySite.ahu1, TinySite.vav101, TinySite.vav102, TinySite.sensorSat1]
      | .observedBy entity sensor => entity ∈ [TinySite.ahu1, TinySite.vav101, TinySite.vav102, TinySite.sensorSat1] ∧
          sensor ∈ [TinySite.ahu1, TinySite.vav101, TinySite.vav102, TinySite.sensorSat1] := by
  intro relation hrelation
  simp only [Verdant.tinySite, List.mem_cons, List.not_mem_nil, or_false] at hrelation
  rcases hrelation with rfl | rfl | rfl | rfl | rfl | rfl | rfl | rfl <;> exact ⟨by decide, by decide⟩

/-- A relation of the site runs between nodes of the site. -/
theorem relationEnds_site {relation : Relationship} {row : Row} {start target targetRole : String} {scope : TrustedScope}
    (hrelation : relation ∈ Verdant.tinySite.relationships)
    (h : relationEnds Verdant.tinySite relation row = .ok (start, target, targetRole, scope)) :
    "0:" ++ nodeKey scope "installed" start ∈ siteKeys ∧ "0:" ++ nodeKey scope targetRole target ∈ siteKeys := by
  have hmembers := relation_members relation hrelation
  cases relation with
  | locatedIn entity own =>
    obtain ⟨scope', hscope, h⟩ := Result.bind_eq_ok.1 h
    rw [Result.ite_error_eq_ok, Result.ite_error_eq_ok, not_not] at h
    obtain ⟨rfl, -, h⟩ := h
    cases h
    exact ⟨installed_siteKeys hmembers.1 hscope, hmembers.2⟩
  | servedBy vav ahu =>
    obtain ⟨scope', hscope, h⟩ := Result.bind_eq_ok.1 h
    rw [Result.ite_error_eq_ok] at h
    obtain ⟨hahu, hvav⟩ := sameScope_ok hscope
    cases h.2
    exact ⟨installed_siteKeys hmembers.2 hahu, installed_siteKeys hmembers.1 hvav⟩
  | observedBy entity sensor =>
    obtain ⟨scope', hscope, h⟩ := Result.bind_eq_ok.1 h
    obtain ⟨hentity, hsensor⟩ := sameScope_ok hscope
    by_cases hpoint : row.iri = "https://brickschema.org/schema/Brick#hasPoint"
    · rw [if_pos hpoint] at h
      cases h
      exact ⟨installed_siteKeys hmembers.1 hentity, installed_siteKeys hmembers.2 hsensor⟩
    · rw [if_neg hpoint] at h
      by_cases howner : row.iri = "https://brickschema.org/schema/Brick#isPointOf"
      · rw [if_pos howner] at h
        cases h
        exact ⟨installed_siteKeys hmembers.2 hsensor, installed_siteKeys hmembers.1 hentity⟩
      · rw [if_neg howner] at h
        exact nomatch h

theorem Plan.Holds.relate {source : Report} {plan plan' : Plan} {wanted : Relationship × Row} (hplan : plan.Holds siteKeys)
    (h : plan.relate source Verdant.tinySite wanted = .ok plan') : plan'.Holds siteKeys := by
  unfold Plan.relate at h
  obtain ⟨-, -, h⟩ := Result.bind_eq_ok.1 h
  obtain ⟨⟨start, target, targetRole, scope⟩, hends, h⟩ := Result.bind_eq_ok.1 h
  rw [Result.ite_error_eq_ok, not_not] at h
  obtain ⟨hstart, htarget⟩ := relationEnds_site h.1 hends
  exact hplan.edge hstart htarget h.2

theorem Plan.Holds.relates {source : Report} {relations : List (Relationship × Row)} {plan plan' : Plan}
    (hplan : plan.Holds siteKeys) (h : relations.foldlM (Plan.relate source Verdant.tinySite) plan = .ok plan') :
    plan'.Holds siteKeys := by
  induction relations generalizing plan with
  | nil =>
    obtain rfl := Except.ok.inj h
    exact hplan
  | cons wanted relations ih =>
    rw [List.foldlM_cons] at h
    obtain ⟨next, hnext, h⟩ := Result.bind_eq_ok.1 h
    exact ih (hplan.relate hnext) h

theorem Plan.Holds.observe {source : Report} {plan plan' : Plan} {row : Row} (hplan : plan.Holds siteKeys)
    (h : plan.observe source Verdant.tinySite row = .ok plan') : plan'.Holds siteKeys := by
  unfold Plan.observe at h
  obtain ⟨-, -, h⟩ := Result.bind_eq_ok.1 h
  rw [Result.ite_error_eq_ok] at h
  obtain ⟨scope, hscope, h⟩ := Result.bind_eq_ok.1 h.2
  obtain rfl := Except.ok.inj (scopeOf_sensorSat1.symm.trans hscope)
  exact hplan.edge (by decide) (by decide) h

theorem Plan.holds_nil : (Plan.mk []).Holds [] :=
  ⟨⟨fun _ h => (List.not_mem_nil h).elim, List.Pairwise.nil⟩, List.nil_subset _⟩

/-- The nodes of the site are in the plan before any of its edges. -/
theorem Plan.holds_installed {source : Report} {plan plan' : Plan} (hplan : plan.Holds [])
    (h : (installedTerms Verdant.tinySite).foldlM (Plan.install source Verdant.tinySite) plan = .ok plan') :
    plan'.Holds (siteKeys.drop 3) := by
  unfold installedTerms at h
  simp only [List.foldlM_cons, List.foldlM_nil] at h
  obtain ⟨plan₁, h₁, h⟩ := Result.bind_eq_ok.1 h
  obtain ⟨plan₂, h₂, h⟩ := Result.bind_eq_ok.1 h
  obtain ⟨plan₃, h₃, h⟩ := Result.bind_eq_ok.1 h
  obtain ⟨plan₄, h₄, h⟩ := Result.bind_eq_ok.1 h
  obtain rfl := Except.ok.inj h
  have hplan₁ := hplan.install scopeOf_ahu1 h₁
  have hplan₂ := hplan₁.install scopeOf_vav101 h₂
  have hplan₃ := hplan₂.install scopeOf_vav102 h₃
  exact hplan₃.install scopeOf_sensorSat1 h₄

theorem Plan.holds_located {source : Report} {plan plan' : Plan} (hplan : plan.Holds (siteKeys.drop 3))
    (h : Verdant.tinySite.scopes.foldlM (Plan.locate source) plan = .ok plan') : plan'.Holds (siteKeys.drop 1) := by
  simp only [Verdant.tinySite, List.foldlM_cons, List.foldlM_nil] at h
  obtain ⟨plan₁, h₁, h⟩ := Result.bind_eq_ok.1 h
  obtain ⟨plan₂, h₂, h⟩ := Result.bind_eq_ok.1 h
  obtain rfl := Except.ok.inj h
  exact (hplan.locate h₁).locate h₂

/-- Every plan of the tiny site is wellformed. -/
theorem Plan.tinySite_wellformed {source : Report} {relations : List (Relationship × Row)} {observes : Option Row}
    {maxStatementBytes : Nat} {plan : Plan} (h : Plan.tinySite source relations observes maxStatementBytes = .ok plan) :
    plan.Wellformed := by
  obtain ⟨plan', hassemble, h⟩ := Result.bind_eq_ok.1 h
  rw [Result.ite_error_eq_ok] at h
  obtain rfl := Except.ok.inj h.2
  obtain ⟨plan₁, hinstalled, h⟩ := Result.bind_eq_ok.1 hassemble
  obtain ⟨plan₂, hlocated, h⟩ := Result.bind_eq_ok.1 h
  obtain ⟨scope, hscope, h⟩ := Result.bind_eq_ok.1 h
  obtain rfl := Except.ok.inj (scopeOf_sensorSat1.symm.trans hscope)
  obtain ⟨row, -, h⟩ := Result.bind_eq_ok.1 h
  obtain ⟨plan₃, hproperty, h⟩ := Result.bind_eq_ok.1 h
  obtain ⟨plan₄, hrelations, hobserves⟩ := Result.bind_eq_ok.1 h
  have hplan₃ : plan₃.Holds siteKeys :=
    (Plan.holds_located (Plan.holds_installed Plan.holds_nil hinstalled) hlocated).node hproperty
  have hplan₄ := hplan₃.relates hrelations
  cases observes with
  | none =>
    obtain rfl := Except.ok.inj hobserves
    exact hplan₄.wellformed
  | some row => exact (hplan₄.observe hobserves).wellformed

end Verdant.Semantics
