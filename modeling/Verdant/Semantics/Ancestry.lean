import Verdant.Library.Acyclic
import Verdant.Library.Result

/-!
# Ancestry and import cycles

Two depth-first walks over the pinned artifacts: from a subject up its explicit `subClassOf` edges, and over the import
edges between artifacts.  Each decides its question exactly (`walks_exact`): a refusal for a cycle comes from a reachable
cycle, and an answer from there being none.
-/

namespace Verdant.Semantics

open Relation

def maxDepth : Nat := 32

def maxAncestors : Nat := 256

def subclassIri : String := "http://www.w3.org/2000/01/rdf-schema#subClassOf"

inductive ParseError where
  | limit (what : String)
  | missing (name : String)
  | remote (name : String)
  | cycle (name : String)
  | unsupported (name : String)
  | hashTool
  deriving DecidableEq, Repr

/-- Objects retain their kind. -/
inductive Object where
  | iri (value : String)
  | literal (lexical : String)
  deriving DecidableEq, Repr

def Object.iri? : Object → Option String
  | .iri value => some value
  | .literal _ => none

/-- The facts of a document by subject and predicate, the objects of each in their order. -/
structure Document where
  facts : List ((String × String) × List Object)

def Document.objects (doc : Document) (subject predicate : String) : List Object :=
  (doc.facts.lookup (subject, predicate)).getD []

def Document.parents (doc : Document) (subject : String) : List String :=
  (doc.objects subject subclassIri).filterMap Object.iri?

/-- Paths by ancestor, in the order the walk met them. -/
abbrev AncestorPaths := List (String × List String)

/-- The loop of `walk` over the parents that remain of the last subject of the path. -/
def Document.walkParents (doc : Document) :
    List String → List String → AncestorPaths → Except ParseError AncestorPaths
  | [], _, paths => .ok paths
  | parent :: rest, path, paths =>
    if parent ∈ path then .error (.cycle parent)
    else if maxDepth ≤ path.length then .error (.limit "ancestry depth")
    else if parent ∈ paths.map Prod.fst then doc.walkParents rest path paths
    else if maxAncestors ≤ paths.length then .error (.limit "ancestors")
    else do
      let paths ← doc.walkParents (doc.parents parent) (path ++ [parent]) (paths ++ [(parent, path ++ [parent])])
      doc.walkParents rest path paths
termination_by parents path _ => (maxDepth - path.length, parents.length)

def Document.walk (doc : Document) (subject : String) (path : List String) (paths : AncestorPaths) :
    Except ParseError AncestorPaths :=
  doc.walkParents (doc.parents subject) path paths

def Document.ancestry (doc : Document) (subject : String) : Except ParseError AncestorPaths :=
  doc.walk subject [subject] []

/-- Import targets by artifact. -/
abbrev ImportEdges := List (String × List String)

/-- The loop of `visit` over the nodes that remain, below the active ones. -/
def visits (edges : ImportEdges) : List String → List String → List String → Except ParseError (List String)
  | [], _, done => .ok done
  | node :: rest, active, done =>
    if node ∈ active then .error (.cycle node)
    else if node ∈ done then visits edges rest active done
    else if 32 ≤ active.length then .error (.limit "import depth")
    else match edges.lookup node with
      | none => .error (.missing node)
      | some targets =>
        if 32 < targets.length then .error (.limit "import edges")
        else do
          let done ← visits edges targets (node :: active) done
          visits edges rest active (node :: done)
termination_by nodes active _ => (32 - active.length, nodes.length)

/-- Import expansion rejects cycles. -/
def checkCycles (edges : ImportEdges) : Except ParseError Unit :=
  if 32 < edges.length then .error (.limit "import nodes")
  else do
    let _ ← visits edges (edges.map Prod.fst) [] []
    .ok ()

/-! ### The ancestry walk -/

/-- An explicit edge from a class to its parent. -/
def Document.SubClassOf (doc : Document) (child parent : String) : Prop :=
  .iri parent ∈ doc.objects child subclassIri

theorem Document.mem_parents {doc : Document} {child parent : String} :
    parent ∈ doc.parents child ↔ doc.SubClassOf child parent := by
  unfold Document.parents Document.SubClassOf
  rw [List.mem_filterMap]
  constructor
  · rintro ⟨object, hmem, hiri⟩
    cases object with
    | iri value =>
      obtain rfl := Option.some.inj hiri
      exact hmem
    | literal lexical => exact nomatch hiri
  · intro hmem
    exact ⟨_, hmem, rfl⟩

/-- Every path kept is a chain of explicit edges to its ancestor, inside the depth, under an ancestor of its own. -/
structure Genuine (doc : Document) (subject : String) (paths : AncestorPaths) : Prop where
  path : ∀ entry ∈ paths, EdgePath doc.SubClassOf subject entry.2 entry.1
  proper : ∀ entry ∈ paths, 1 < entry.2.length
  bounded : ∀ entry ∈ paths, entry.2.length ≤ maxDepth
  once : (paths.map Prod.fst).Nodup

theorem Genuine.nil (doc : Document) (subject : String) : Genuine doc subject [] :=
  ⟨fun _ h => (List.not_mem_nil h).elim, fun _ h => (List.not_mem_nil h).elim, fun _ h => (List.not_mem_nil h).elim,
    List.nodup_nil⟩

theorem Genuine.insert {doc : Document} {subject child parent : String} {path : List String} {paths : AncestorPaths}
    (h : Genuine doc subject paths) (hpath : EdgePath doc.SubClassOf subject path child) (hedge : doc.SubClassOf child parent)
    (hroom : path.length < maxDepth) (hfresh : parent ∉ paths.map Prod.fst) :
    Genuine doc subject (paths ++ [(parent, path ++ [parent])]) := by
  have hsome : 0 < path.length := List.length_pos_of_mem hpath.first_mem
  refine ⟨?_, ?_, ?_, ?_⟩
  · intro entry hentry
    rcases List.mem_append.1 hentry with hold | hnew
    · exact h.path entry hold
    · obtain rfl := List.mem_singleton.1 hnew
      exact hpath.step hedge
  · intro entry hentry
    rcases List.mem_append.1 hentry with hold | hnew
    · exact h.proper entry hold
    · obtain rfl := List.mem_singleton.1 hnew
      simp only [List.length_append, List.length_singleton]
      omega
  · intro entry hentry
    rcases List.mem_append.1 hentry with hold | hnew
    · exact h.bounded entry hold
    · obtain rfl := List.mem_singleton.1 hnew
      simp only [List.length_append, List.length_singleton]
      omega
  · rw [List.map_append]
    exact h.once.append (List.nodup_singleton _) (by simpa [List.disjoint_singleton] using hfresh)

/-- The ancestors the walk is through with: kept, and no longer on the path. -/
def through (path : List String) (paths : AncestorPaths) : Set String :=
  {name | name ∈ paths.map Prod.fst ∧ name ∉ path}

/-- An ancestor enters the path and the map at once, so nothing is finished with it yet. -/
theorem through_enter {path : List String} {paths : AncestorPaths} {parent : String}
    (hfresh : parent ∉ paths.map Prod.fst) :
    through (path ++ [parent]) (paths ++ [(parent, path ++ [parent])]) = through path paths := by
  ext name
  simp only [through, Set.mem_ofPred_eq, List.map_append, List.map_singleton, List.mem_append, List.mem_singleton, not_or]
  constructor
  · rintro ⟨hkept | rfl, hoff, hother⟩
    · exact ⟨hkept, hoff⟩
    · exact absurd rfl hother
  · rintro ⟨hkept, hoff⟩
    refine ⟨.inl hkept, hoff, ?_⟩
    rintro rfl
    exact hfresh hkept

/-- It leaves the path as one more that is finished. -/
theorem through_leave {path : List String} {paths : AncestorPaths} {parent : String}
    (hkept : parent ∈ paths.map Prod.fst) (hoff : parent ∉ path) :
    through path paths = insert parent (through (path ++ [parent]) paths) := by
  ext name
  simp only [through, Set.mem_ofPred_eq, Set.mem_insert_iff, List.mem_append, List.mem_singleton, not_or]
  constructor
  · rintro ⟨hname, hnot⟩
    by_cases hsame : name = parent
    · exact .inl hsame
    · exact .inr ⟨hname, hnot, hsame⟩
  · rintro (rfl | ⟨hname, hnot, -⟩)
    · exact ⟨hkept, hoff⟩
    · exact ⟨hname, hnot⟩

/-- What the loop leaves behind: it is through with each of the parents, and everything it kept before is kept. -/
structure Walked (doc : Document) (subject : String) (parents path : List String) (paths paths' : AncestorPaths) :
    Prop where
  keeps : paths.map Prod.fst ⊆ paths'.map Prod.fst
  genuine : Genuine doc subject paths'
  finished : Finished doc.SubClassOf (through path paths')
  visited : ∀ parent ∈ parents, parent ∈ through path paths'

/-- A cycle the loop refuses is one below the first subject. -/
def WalkAnswer (doc : Document) (subject : String) (parents path : List String) (paths : AncestorPaths) :
    Except ParseError AncestorPaths → Prop
  | .ok paths' => Walked doc subject parents path paths paths'
  | .error (.cycle _) => ReachesCycle doc.SubClassOf subject
  | .error _ => True

/-- A parent that is through already leaves the rest to do. -/
theorem WalkAnswer.cons {doc : Document} {subject parent : String} {rest path : List String}
    {paths paths₁ : AncestorPaths} {answer : Except ParseError AncestorPaths}
    (hkeeps : paths.map Prod.fst ⊆ paths₁.map Prod.fst) (hthrough : parent ∈ through path paths₁)
    (h : WalkAnswer doc subject rest path paths₁ answer) : WalkAnswer doc subject (parent :: rest) path paths answer := by
  rcases answer with e | paths'
  · cases e <;> exact h
  · refine ⟨fun name hname => h.keeps (hkeeps hname), h.genuine, h.finished, ?_⟩
    intro name hname
    rcases List.mem_cons.1 hname with rfl | hrest
    · exact ⟨h.keeps hthrough.1, hthrough.2⟩
    · exact h.visited name hrest

/-- The loop over the parents of the last subject of a path. -/
theorem walkParents_answer {doc : Document} {subject child : String} {parents path : List String} {paths : AncestorPaths}
    (hpath : EdgePath doc.SubClassOf subject path child) (hparents : ∀ parent ∈ parents, doc.SubClassOf child parent)
    (hgenuine : Genuine doc subject paths) (hfinished : Finished doc.SubClassOf (through path paths)) :
    WalkAnswer doc subject parents path paths (doc.walkParents parents path paths) := by
  fun_induction doc.walkParents parents path paths generalizing child with
  | case1 path paths => exact ⟨List.Subset.refl _, hgenuine, hfinished, fun _ h => (List.not_mem_nil h).elim⟩
  | case2 parent rest path paths hcycle => exact hpath.reachesCycle hcycle (hparents parent List.mem_cons_self)
  | case3 => trivial
  | case4 parent rest path paths hoff _ hkept ih =>
    have hthrough : parent ∈ through path paths := ⟨hkept, hoff⟩
    refine WalkAnswer.cons (List.Subset.refl _) hthrough (ih hpath ?_ hgenuine hfinished)
    exact fun name hname => hparents name (List.mem_cons_of_mem _ hname)
  | case5 => trivial
  | case6 parent rest path paths hoff hroom hfresh _ ihdeep ihrest =>
    have hedge : doc.SubClassOf child parent := hparents parent List.mem_cons_self
    have hdeep := ihdeep (hpath.step hedge) (fun name hname => Document.mem_parents.1 hname)
      (hgenuine.insert hpath hedge (not_le.1 hroom) hfresh) (by rw [through_enter hfresh]; exact hfinished)
    rcases hresult : doc.walkParents (doc.parents parent) (path ++ [parent])
        (paths ++ [(parent, path ++ [parent])]) with e | paths₁
    · rw [hresult] at hdeep
      cases e <;> exact hdeep
    · rw [hresult] at hdeep
      have hkept : parent ∈ paths₁.map Prod.fst := hdeep.keeps (by simp)
      have hleave := through_leave hkept hoff
      -- the parent is on no cycle: the walk below it came back without one
      have hdone : Finished doc.SubClassOf (through path paths₁) := by
        rw [hleave]
        refine hdeep.finished.insert (fun h => h.2 (by simp)) ?_
        exact fun name hname => hdeep.visited name (Document.mem_parents.2 hname)
      refine WalkAnswer.cons (fun name hname => hdeep.keeps ?_) ⟨hkept, hoff⟩
        (ihrest paths₁ hpath (fun name hname => hparents name (List.mem_cons_of_mem _ hname)) hdeep.genuine hdone)
      rw [List.map_append]
      exact List.mem_append_left _ hname

/-- What an answer of `ancestry` says. -/
structure ExactAncestry (doc : Document) (subject : String) (paths : AncestorPaths) : Prop where
  acyclic : ¬ ReachesCycle doc.SubClassOf subject
  ancestors : ∀ name, name ∈ paths.map Prod.fst ↔ TransGen doc.SubClassOf subject name
  genuine : Genuine doc subject paths

theorem through_nil (path : List String) : through path [] = ∅ := by
  ext name
  simp [through]

theorem ancestry_answer (doc : Document) (subject : String) :
    WalkAnswer doc subject (doc.parents subject) [subject] [] (doc.ancestry subject) :=
  walkParents_answer .start (fun _ h => Document.mem_parents.1 h) (Genuine.nil _ _) (by rw [through_nil]; exact .empty)

theorem ancestry_exact {doc : Document} {subject : String} {paths : AncestorPaths} (h : doc.ancestry subject = .ok paths) :
    ExactAncestry doc subject paths := by
  have hwalked := ancestry_answer doc subject
  rw [h] at hwalked
  have hsucc : ∀ name, doc.SubClassOf subject name → name ∈ through [subject] paths :=
    fun name hname => hwalked.visited name (Document.mem_parents.2 hname)
  have hall : Finished doc.SubClassOf (insert subject (through [subject] paths)) :=
    hwalked.finished.insert (fun h => h.2 (List.mem_singleton_self _)) hsucc
  refine ⟨hall.not_reachesCycle (Set.mem_insert _ _), ?_, hwalked.genuine⟩
  intro name
  constructor
  · intro hname
    obtain ⟨⟨_, path⟩, hentry, rfl⟩ := List.mem_map.1 hname
    exact (hwalked.genuine.path _ hentry).transGen (hwalked.genuine.proper _ hentry)
  · intro hreach
    obtain ⟨parent, hedge, hrest⟩ := TransGen.head'_iff.1 hreach
    exact (hwalked.finished.reach (hsucc parent hedge) hrest).1

theorem ancestry_cycle {doc : Document} {subject name : String} (h : doc.ancestry subject = .error (.cycle name)) :
    ReachesCycle doc.SubClassOf subject := by
  have hwalked := ancestry_answer doc subject
  rw [h] at hwalked
  exact hwalked

/-! ### Import cycles -/

/-- An import edge between two artifacts. -/
def Imports (edges : ImportEdges) (node target : String) : Prop :=
  ∃ targets, edges.lookup node = some targets ∧ target ∈ targets

theorem lookup_isSome {edges : ImportEdges} {node : String} :
    (edges.lookup node).isSome ↔ node ∈ edges.map Prod.fst := by
  induction edges with
  | nil => simp
  | cons edge edges ih =>
    obtain ⟨key, targets⟩ := edge
    by_cases hkey : node = key
    · simp [hkey]
    · have hne : (node == key) = false := beq_eq_false_iff_ne.2 hkey
      rw [List.lookup_cons, hne]
      simp [ih, hkey]

/-- The nodes the visits are through with, each with targets inside the bound. -/
structure Visited (edges : ImportEdges) (nodes active done done' : List String) : Prop where
  keeps : done ⊆ done'
  finished : Finished (Imports edges) {node | node ∈ done'}
  bounded : ∀ node ∈ done', ∃ targets, edges.lookup node = some targets ∧ targets.length ≤ 32
  apart : ∀ node ∈ done', node ∉ active
  visited : nodes ⊆ done'

theorem visits_ok {edges : ImportEdges} {nodes active done done' : List String}
    (hfinished : Finished (Imports edges) {node | node ∈ done})
    (hbounded : ∀ node ∈ done, ∃ targets, edges.lookup node = some targets ∧ targets.length ≤ 32)
    (hapart : ∀ node ∈ done, node ∉ active) (h : visits edges nodes active done = .ok done') :
    Visited edges nodes active done done' := by
  fun_induction visits edges nodes active done generalizing done' with
  | case1 active done =>
    obtain rfl := Except.ok.inj h
    exact ⟨List.Subset.refl _, hfinished, hbounded, hapart, List.nil_subset _⟩
  | case2 => exact nomatch h
  | case3 node rest active done hoff hdone ih =>
    have hrest := ih hfinished hbounded hapart h
    exact { hrest with visited := List.cons_subset.2 ⟨hrest.keeps hdone, hrest.visited⟩ }
  | case4 => exact nomatch h
  | case5 => exact nomatch h
  | case6 => exact nomatch h
  | case7 node rest active done hoff hfresh _ targets hlookup hfew ihdeep ihrest =>
    obtain ⟨done₁, hdeep, hrest⟩ := Result.bind_eq_ok.1 h
    have hapart₁ : ∀ name ∈ done, name ∉ node :: active := by
      intro name hname hmem
      rcases List.mem_cons.1 hmem with rfl | hactive
      · exact hfresh hname
      · exact hapart name hname hactive
    have hbelow := ihdeep hfinished hbounded hapart₁ hdeep
    have hnew : node ∉ done₁ := fun hmem => hbelow.apart node hmem List.mem_cons_self
    have hset : {name | name ∈ node :: done₁} = insert node {name | name ∈ done₁} := by
      ext name
      exact List.mem_cons
    have hdone : Finished (Imports edges) {name | name ∈ node :: done₁} := by
      rw [hset]
      refine hbelow.finished.insert hnew ?_
      rintro target ⟨targets', hlookup', htarget⟩
      obtain rfl := Option.some.inj (hlookup.symm.trans hlookup')
      exact hbelow.visited htarget
    have hafter := ihrest done₁ hdone ?_ ?_ hrest
    · refine { hafter with keeps := ?_, visited := ?_ }
      · exact fun name hname => hafter.keeps (List.mem_cons_of_mem _ (hbelow.keeps hname))
      · exact List.cons_subset.2 ⟨hafter.keeps List.mem_cons_self, hafter.visited⟩
    · intro name hname
      rcases List.mem_cons.1 hname with rfl | hold
      · exact ⟨targets, hlookup, not_lt.1 hfew⟩
      · exact hbelow.bounded name hold
    · intro name hname
      rcases List.mem_cons.1 hname with rfl | hold
      · exact hoff
      · exact fun hactive => hbelow.apart name hold (List.mem_cons_of_mem _ hactive)

/-- What the import edges must be like. -/
structure ImportsResolve (edges : ImportEdges) : Prop where
  nodes : edges.length ≤ 32
  targets : ∀ node targets, edges.lookup node = some targets → targets.length ≤ 32
  acyclic : ∀ node, ¬ TransGen (Imports edges) node node
  known : ∀ node target, Imports edges node target → target ∈ edges.map Prod.fst

/-- Without a cycle a visit meets no active node again, and the active nodes leave room for one more. -/
theorem visits_resolved {edges : ImportEdges} {nodes active done : List String} (hresolve : ImportsResolve edges)
    (hnodes : ∀ node ∈ nodes, node ∈ edges.map Prod.fst) (hactive : active ⊆ edges.map Prod.fst) (honce : active.Nodup)
    (hbelow : ∀ node ∈ nodes, ∀ name ∈ active, TransGen (Imports edges) name node) :
    ∃ done', visits edges nodes active done = .ok done' := by
  fun_induction visits edges nodes active done with
  | case1 active done => exact ⟨done, rfl⟩
  | case2 node rest active done hcycle =>
    exact absurd (hbelow node List.mem_cons_self node hcycle) (hresolve.acyclic node)
  | case3 node rest active done hoff hdone ih =>
    refine ih (fun name hname => hnodes name (List.mem_cons_of_mem _ hname)) hactive honce ?_
    exact fun name hname => hbelow name (List.mem_cons_of_mem _ hname)
  | case4 node rest active done hoff hfresh hfull =>
    have hsub : node :: active ⊆ edges.map Prod.fst := List.cons_subset.2 ⟨hnodes node List.mem_cons_self, hactive⟩
    have hlength := ((List.nodup_cons.2 ⟨hoff, honce⟩).subperm hsub).length_le
    have hbound := hresolve.nodes
    simp only [List.length_cons, List.length_map] at hlength
    omega
  | case5 node rest active done hoff hfresh hroom hnone =>
    have hsome := lookup_isSome.2 (hnodes node List.mem_cons_self)
    rw [hnone] at hsome
    exact nomatch hsome
  | case6 node rest active done hoff hfresh hroom targets hlookup hmany =>
    exact absurd (hresolve.targets node targets hlookup) (not_le.2 hmany)
  | case7 node rest active done hoff hfresh hroom targets hlookup hfew ihdeep ihrest =>
    have hedge : ∀ target ∈ targets, Imports edges node target := fun target htarget => ⟨targets, hlookup, htarget⟩
    have hsub : node :: active ⊆ edges.map Prod.fst := List.cons_subset.2 ⟨hnodes node List.mem_cons_self, hactive⟩
    obtain ⟨done₁, hdeep⟩ := ihdeep (fun target htarget => hresolve.known node target (hedge target htarget)) hsub
      (List.nodup_cons.2 ⟨hoff, honce⟩) (by
        intro target htarget name hname
        rcases List.mem_cons.1 hname with rfl | hold
        · exact .single (hedge target htarget)
        · exact (hbelow node List.mem_cons_self name hold).tail (hedge target htarget))
    rw [hdeep, Result.ok_bind]
    refine ihrest done₁ (fun name hname => hnodes name (List.mem_cons_of_mem _ hname)) hactive honce ?_
    exact fun name hname => hbelow name (List.mem_cons_of_mem _ hname)

theorem checkCycles_eq_ok {edges : ImportEdges} : checkCycles edges = .ok () ↔ ImportsResolve edges := by
  unfold checkCycles
  rw [Result.ite_error_eq_ok, not_lt]
  constructor
  · rintro ⟨hnodes, h⟩
    obtain ⟨done, hvisits, -⟩ := Result.bind_eq_ok.1 h
    have hempty : {node : String | node ∈ ([] : List String)} = ∅ := by
      ext node
      exact ⟨fun h => (List.not_mem_nil h).elim, fun h => h.elim⟩
    have hvisited := visits_ok (by rw [hempty]; exact .empty) (fun _ h => (List.not_mem_nil h).elim)
      (fun _ h => (List.not_mem_nil h).elim) hvisits
    have hkey : ∀ {node targets}, edges.lookup node = some targets → node ∈ done := by
      intro node targets hlookup
      exact hvisited.visited (lookup_isSome.1 (by rw [hlookup]; rfl))
    refine ⟨hnodes, ?_, ?_, ?_⟩
    · intro node targets hlookup
      obtain ⟨targets', hlookup', hfew⟩ := hvisited.bounded node (hkey hlookup)
      obtain rfl := Option.some.inj (hlookup.symm.trans hlookup')
      exact hfew
    · intro node hcycle
      obtain ⟨_, ⟨targets, hlookup, _⟩, _⟩ := TransGen.head'_iff.1 hcycle
      exact hvisited.finished.acyclic node (hkey hlookup) hcycle
    · rintro node target ⟨targets, hlookup, htarget⟩
      have hdone := hvisited.finished.closed node (hkey hlookup) target ⟨targets, hlookup, htarget⟩
      obtain ⟨targets', hlookup', -⟩ := hvisited.bounded target hdone
      exact lookup_isSome.1 (by rw [hlookup']; rfl)
  · intro hresolve
    obtain ⟨done, hvisits⟩ : ∃ done, visits edges (edges.map Prod.fst) [] [] = .ok done :=
      visits_resolved hresolve (fun _ h => h) (List.nil_subset _) List.nodup_nil
        fun _ _ _ h => (List.not_mem_nil h).elim
    exact ⟨hresolve.nodes, by rw [hvisits]; rfl⟩

/-- Both walks are exact: the ancestry of a subject is refused for a cycle only below it and answered only without one,
by its proper ancestors with a chain to each; the import check accepts the acyclic maps whose targets are all nodes. -/
theorem walks_exact :
    (∀ (doc : Document) (subject : String),
      (∀ name, doc.ancestry subject = .error (.cycle name) → ReachesCycle doc.SubClassOf subject) ∧
      ∀ paths, doc.ancestry subject = .ok paths → ¬ ReachesCycle doc.SubClassOf subject ∧
        (paths.map Prod.fst).Nodup ∧ (∀ name, name ∈ paths.map Prod.fst ↔ TransGen doc.SubClassOf subject name) ∧
        ∀ name path, (name, path) ∈ paths → EdgePath doc.SubClassOf subject path name ∧ path.length ≤ 32) ∧
    ∀ edges : ImportEdges, edges.length ≤ 32 → (∀ node targets, (node, targets) ∈ edges → targets.length ≤ 32) →
      (checkCycles edges = .ok () ↔ (∀ node, ¬ TransGen (Imports edges) node node) ∧
        ∀ node target, Imports edges node target → target ∈ edges.map Prod.fst) := by
  refine ⟨fun doc subject => ⟨fun name h => ancestry_cycle h, fun paths h => ?_⟩, fun edges hnodes htargets => ?_⟩
  · have hexact := ancestry_exact h
    refine ⟨hexact.acyclic, hexact.genuine.once, hexact.ancestors, ?_⟩
    exact fun name path hentry => ⟨hexact.genuine.path _ hentry, hexact.genuine.bounded _ hentry⟩
  · rw [checkCycles_eq_ok]
    constructor
    · intro hresolve
      exact ⟨hresolve.acyclic, hresolve.known⟩
    · rintro ⟨hacyclic, hknown⟩
      refine ⟨hnodes, ?_, hacyclic, hknown⟩
      intro node targets hlookup
      obtain ⟨before, after, rfl, -⟩ := List.lookup_eq_some_iff.1 hlookup
      exact htargets node targets (by simp)

end Verdant.Semantics
