import Verdant.Library.Backfill
import Verdant.Library.Serve
import Verdant.Semantics.Plan

/-!
# Reconciling a plan with the native store

`reconcile` reads every step before it writes one, and reads each write back.  Every insert is a commit of its own, so a
run may stop between any two; whatever a run of a plan leaves behind, the next one fills what is missing and nothing else
(`reconcile_resumes`).
-/

namespace Verdant.Semantics

open Prog

/-! ### The native store -/

/-- A relation between the nodes under two keys. -/
structure Link where
  source : String
  target : String
  props : Props
  deriving DecidableEq, Repr

/-- The store, and the inserts it has committed. -/
structure Native where
  nodes : List Props
  edges : List Link
  inserted : List Statement
  deriving DecidableEq, Repr

def keyed (key : String) (props : Props) : Bool := props.lookup "key" = some key

def holds (wanted props : Props) : Bool := wanted.all fun (name, value) => props.lookup name = some value

/-- The rows a read returns; a write returns none. -/
def Statement.count (s : Native) : Statement → Option Nat
  | .matchNode key => some (s.nodes.countP (keyed key))
  | .exactNode props => some (s.nodes.countP (holds props))
  | .insertNode _ => none
  | .matchEdge key => some (s.edges.countP fun e => keyed key e.props)
  | .exactEdge a b props => some (s.edges.countP fun e => e.source = a ∧ e.target = b ∧ holds props e.props)
  | .insertEdge _ _ _ => none

/-- An edge is inserted once for every two nodes its ends match. -/
def Native.commit (s : Native) : Statement → Native
  | .insertNode props => { s with nodes := s.nodes ++ [props], inserted := s.inserted ++ [.insertNode props] }
  | .insertEdge a b props =>
    let ends := s.nodes.countP (keyed a) * s.nodes.countP (keyed b)
    { s with edges := s.edges ++ List.replicate ends ⟨a, b, props⟩, inserted := s.inserted ++ [.insertEdge a b props] }
  | .matchNode _ => s
  | .exactNode _ => s
  | .matchEdge _ => s
  | .exactEdge _ _ _ => s

abbrev NativeAnswer : Statement → Type := fun _ => Except MaterializeError (Option Nat)

def Native.serve (st : Statement) (s : Native) : Native × NativeAnswer st := (s.commit st, .ok (st.count s))

/-- What becomes of one statement: it is served, refused, or committed with its answer lost. -/
inductive Fault where
  | served
  | refused (error : MaterializeError)
  | lost (error : MaterializeError)

def Native.execute (st : Statement) (fault : Fault) (s : Native) : Native × NativeAnswer st :=
  match fault with
  | .served => s.serve st
  | .refused error => (s, .error error)
  | .lost error => (s.commit st, .error error)

/-! ### Reconciliation -/

def execute (st : Statement) : Try NativeAnswer MaterializeError (Option Nat) := attempt (issue st)

/-- The first phase: which steps are missing. -/
def readSteps : List Step → List Step → Try NativeAnswer MaterializeError (List Step)
  | [], missing => check (.ok missing)
  | step :: rest, missing => do
    match ← execute step.identity with
    | some 0 => readSteps rest (missing ++ [step])
    | some 1 => do
      let exact ← execute step.exact
      if exact ≠ some 1 then check (.error .conflict) else readSteps rest missing
    | some _ => check (.error .conflict)
    | none => check (.error .unexpectedOutcome)

/-- The second phase: each missing step is inserted and read back. -/
def writeSteps : List Step → Try NativeAnswer MaterializeError Unit
  | [] => check (.ok ())
  | step :: rest => do
    let answer ← execute step.insert
    if answer.isSome then check (.error .unexpectedOutcome)
    else do
      let found ← execute step.identity
      if found ≠ some 1 then check (.error .conflict)
      else do
        let exact ← execute step.exact
        if exact ≠ some 1 then check (.error .conflict) else writeSteps rest

def Plan.items (plan : Plan) : List Step := plan.steps.map Prod.snd

def Plan.reconcile (plan : Plan) : Try NativeAnswer MaterializeError Nat := do
  let missing ← readSteps plan.items []
  writeSteps missing
  check (.ok missing.length)

/-! ### Steps as records -/

def Step.found (step : Step) (s : Native) : Nat := (step.identity.count s).getD 0

def Step.exactly (step : Step) (s : Native) : Nat := (step.exact.count s).getD 0

/-- An edge needs the nodes of the plan under the keys of its ends. -/
def Plan.Needs (plan : Plan) (step other : Step) : Prop :=
  other ∈ plan.items ∧
    ∃ a b props, step.insert = .insertEdge a b props ∧ (other.identity = .matchNode a ∨ other.identity = .matchNode b)

def Plan.catalogue (plan : Plan) : Catalogue Step Native where
  found := Step.found
  exact := Step.exactly
  commit := fun step s => s.commit step.insert
  needs := plan.Needs

/-- The steps whose record is not there. -/
def Plan.missing (plan : Plan) (s : Native) : List Step := plan.catalogue.missing plan.items s

/-- A record that shares the identity of the step and is not exactly its own, or shares it with another. -/
def Step.Conflicts (step : Step) (s : Native) : Prop := 2 ≤ step.found s ∨ (step.found s = 1 ∧ step.exactly s ≠ 1)

/-! ### What a commit does to the records -/

theorem keyed_recorded {key k : String} {props : Props} (h : Recorded key props) : keyed k props = true ↔ key = k := by
  unfold keyed
  rw [h.key, decide_eq_true_iff]
  exact ⟨Option.some.inj, congrArg some⟩

theorem holds_self {key : String} {props : Props} (h : Recorded key props) : holds props props = true := by
  have honce := h.once
  unfold holds
  rw [List.all_eq_true]
  rintro ⟨name, value⟩ hfield
  rw [decide_eq_true_iff, List.lookup_eq_some_iff]
  obtain ⟨before, after, rfl⟩ := List.append_of_mem hfield
  refine ⟨before, after, rfl, ?_⟩
  intro field hbefore
  rw [List.map_append, List.map_cons] at honce
  rw [bne_iff_ne]
  exact fun hsame => (List.nodup_append'.1 honce).2.2 (List.mem_map_of_mem hbefore) (by simp [← hsame])

/-- Exactly the record is more than under its key. -/
theorem keyed_of_holds {key : String} {wanted props : Props} (h : Recorded key wanted) (hholds : holds wanted props = true) :
    keyed key props = true := by
  obtain ⟨before, after, rfl, -⟩ := List.lookup_eq_some_iff.1 h.key
  exact List.all_eq_true.1 hholds ("key", key) (by simp)

theorem not_holds {key k : String} {wanted props : Props} (hwanted : Recorded key wanted) (hprops : Recorded k props)
    (hne : key ≠ k) : holds wanted props = false := by
  by_contra hholds
  have hkeyed := keyed_of_holds hwanted (Bool.not_eq_false _ ▸ hholds)
  exact hne ((keyed_recorded hprops).1 hkeyed).symm

theorem not_keyed {key k : String} {props : Props} (hprops : Recorded k props) (hne : key ≠ k) : keyed key props = false := by
  by_contra hkeyed
  exact hne ((keyed_recorded hprops).1 (Bool.not_eq_false _ ▸ hkeyed)).symm

namespace Step

variable {s : Native} {key a b : String} {props : Props}

theorem found_node : (node key props).found s = s.nodes.countP (keyed key) := rfl

theorem exactly_node : (node key props).exactly s = s.nodes.countP (holds props) := rfl

theorem found_edge : (edge a b key props).found s = s.edges.countP fun e => keyed key e.props := rfl

theorem exactly_edge : (edge a b key props).exactly s =
    s.edges.countP fun e => e.source = a ∧ e.target = b ∧ holds props e.props := rfl

theorem commit_node : s.commit (node key props).insert =
    { s with nodes := s.nodes ++ [props], inserted := s.inserted ++ [.insertNode props] } := rfl

theorem commit_edge : s.commit (edge a b key props).insert =
    { s with edges := s.edges ++ List.replicate (s.nodes.countP (keyed a) * s.nodes.countP (keyed b)) ⟨a, b, props⟩
             inserted := s.inserted ++ [.insertEdge a b props] } := rfl

/-- The key a step has in the map of its plan. -/
def planKey (step : Step) : String :=
  match step.identity with
  | .matchNode key => "0:" ++ key
  | .matchEdge key => "1:" ++ key
  | _ => ""

end Step

theorem node_before_edge (a b : String) : "0:" ++ a < "1:" ++ b := by
  rw [String.lt_iff_toList_lt, String.toList_append, String.toList_append]
  exact List.cons_lt_cons_iff.2 (.inl (by decide))

/-- The steps of a plan; the nodes of an edge are among them. -/
inductive Shape (items : List Step) : Step → Prop where
  | node {key : String} {props : Props} (h : Recorded key props) : Shape items (.node key props)
  | edge {a b key : String} {props propsA propsB : Props} (h : Recorded key props) (ha : .node a propsA ∈ items)
    (hb : .node b propsB ∈ items) : Shape items (.edge a b key props)

namespace Plan.Wellformed

variable {plan : Plan}

theorem planKey_eq (h : plan.Wellformed) {entry : String × Step} (hentry : entry ∈ plan.steps) :
    entry.2.planKey = entry.1 := by
  cases h.entries entry hentry with
  | node h => rfl
  | edge h ha hb => rfl

/-- A node key of the plan is the key of a node. -/
theorem exists_node (h : plan.Wellformed) {key : String} (hkey : "0:" ++ key ∈ plan.keys) :
    ∃ props, Step.node key props ∈ plan.items := by
  obtain ⟨entry, hentry, hsame⟩ := List.mem_map.1 hkey
  have hshape := h.entries entry hentry
  cases hshape with
  | node h =>
    obtain rfl := (String.append_right_inj _).1 hsame
    exact ⟨_, List.mem_map_of_mem hentry⟩
  | edge h ha hb =>
    exact absurd hsame.symm (ne_of_lt (node_before_edge _ _))

theorem shape (h : plan.Wellformed) {step : Step} (hstep : step ∈ plan.items) : Shape plan.items step := by
  obtain ⟨entry, hentry, rfl⟩ := List.mem_map.1 hstep
  cases h.entries entry hentry with
  | node hrecorded => exact .node hrecorded
  | edge hrecorded ha hb =>
    obtain ⟨propsA, hnodeA⟩ := h.exists_node ha
    obtain ⟨propsB, hnodeB⟩ := h.exists_node hb
    exact .edge hrecorded hnodeA hnodeB

theorem items_sorted (h : plan.Wellformed) : plan.items.Pairwise fun i j => i.planKey < j.planKey := by
  have hsteps := List.pairwise_map.1 h.sorted
  unfold Plan.items
  rw [List.pairwise_map]
  refine hsteps.imp_of_mem ?_
  intro i j hi hj hlt
  rw [h.planKey_eq hi, h.planKey_eq hj]
  exact hlt

theorem planKey_ne (h : plan.Wellformed) {i j : Step} (hi : i ∈ plan.items) (hj : j ∈ plan.items) (hne : j ≠ i) :
    j.planKey ≠ i.planKey := by
  have hdistinct : (plan.items.map Step.planKey).Nodup := List.pairwise_map.2 (h.items_sorted.imp fun hlt => ne_of_lt hlt)
  exact fun hsame => hne (List.inj_on_of_nodup_map hdistinct hj hi hsame)

/-- A node under the key of an end is before the edge. -/
theorem needs_before (h : plan.Wellformed) {i j : Step} (hi : i ∈ plan.items) (hneeds : plan.Needs i j) :
    j.planKey < i.planKey := by
  obtain ⟨hj, a, b, props, hinsert, hidentity⟩ := hneeds
  cases h.shape hi with
  | node hrecorded => exact nomatch hinsert
  | edge hrecorded ha hb =>
    cases h.shape hj with
    | node hother => exact node_before_edge _ _
    | edge hother hc hd => exact hidentity.elim (fun h => nomatch h) (fun h => nomatch h)

theorem earlier (h : plan.Wellformed) {front back : List Step} {i j : Step} (hitems : plan.items = front ++ i :: back)
    (hneeds : plan.Needs i j) : j ∈ front := by
  have hi : i ∈ plan.items := by
    rw [hitems]
    exact List.mem_append_right _ List.mem_cons_self
  have hlt := h.needs_before hi hneeds
  have hsorted := h.items_sorted
  rw [hitems] at hsorted
  have hj : j ∈ front ++ i :: back := by
    rw [← hitems]
    exact hneeds.1
  rcases List.mem_append.1 hj with hfront | hback
  · exact hfront
  · rcases List.mem_cons.1 hback with rfl | hafter
    · exact absurd hlt (lt_irrefl _)
    · have hgt := (List.pairwise_cons.1 (List.pairwise_append.1 hsorted).2.1).1 j hafter
      exact absurd hlt (lt_asymm hgt)

theorem settles (h : plan.Wellformed) {i : Step} (hi : i ∈ plan.items) {s : Native} (hzero : i.found s = 0)
    (hneeds : ∀ j, plan.Needs i j → j.found s = 1) :
    i.found (s.commit i.insert) = 1 ∧ i.exactly (s.commit i.insert) = 1 := by
  cases h.shape hi with
  | @node key props hrecorded =>
    rw [Step.found_node] at hzero
    have hexact : s.nodes.countP (holds props) = 0 := by
      refine Nat.le_zero.1 (le_of_le_of_eq (List.countP_mono_left fun other _ hholds => ?_) hzero)
      exact keyed_of_holds hrecorded hholds
    rw [Step.commit_node, Step.found_node, Step.exactly_node]
    simp only [List.countP_append, hzero, hexact, List.countP_singleton, (keyed_recorded hrecorded).2 rfl,
      holds_self hrecorded, if_true, and_self]
  | @edge a b key props propsA propsB hrecorded ha hb =>
    have hendA : s.nodes.countP (keyed a) = 1 := hneeds _ ⟨ha, a, b, props, rfl, .inl rfl⟩
    have hendB : s.nodes.countP (keyed b) = 1 := hneeds _ ⟨hb, a, b, props, rfl, .inr rfl⟩
    rw [Step.found_edge] at hzero
    have hexact : (s.edges.countP fun e => e.source = a ∧ e.target = b ∧ holds props e.props) = 0 := by
      refine Nat.le_zero.1 (le_of_le_of_eq (List.countP_mono_left fun other _ hholds => ?_) hzero)
      exact keyed_of_holds hrecorded (of_decide_eq_true hholds).2.2
    rw [Step.commit_edge, Step.found_edge, Step.exactly_edge, hendA, hendB]
    simp only [List.countP_append, hzero, hexact, Nat.mul_one, List.replicate_one, List.countP_singleton,
      (keyed_recorded hrecorded).2 rfl, holds_self hrecorded, and_self, decide_true, if_true]

theorem apart (h : plan.Wellformed) {i j : Step} (hi : i ∈ plan.items) (hj : j ∈ plan.items) (hne : j ≠ i) (s : Native) :
    j.found (s.commit i.insert) = j.found s ∧ j.exactly (s.commit i.insert) = j.exactly s := by
  have hkeys := h.planKey_ne hi hj hne
  cases h.shape hi with
  | @node key props hrecorded =>
    rw [Step.commit_node]
    cases h.shape hj with
    | @node key' props' hother =>
      have hdiffer : key' ≠ key := fun heq => hkeys (congrArg ("0:" ++ ·) heq)
      simp only [Step.found_node, Step.exactly_node, List.countP_append, List.countP_singleton,
        not_keyed hrecorded hdiffer, not_holds hother hrecorded hdiffer, Bool.false_eq_true, if_false, Nat.add_zero,
        and_self]
    | edge hother hc hd => exact ⟨rfl, rfl⟩
  | @edge a b key props propsA propsB hrecorded ha hb =>
    rw [Step.commit_edge]
    cases h.shape hj with
    | node hother => exact ⟨rfl, rfl⟩
    | @edge a' b' key' props' _ _ hother hc hd =>
      have hdiffer : key' ≠ key := fun heq => hkeys (congrArg ("1:" ++ ·) heq)
      simp only [Step.found_edge, Step.exactly_edge, List.countP_append, List.countP_replicate,
        not_keyed hrecorded hdiffer, not_holds hother hrecorded hdiffer, Bool.false_eq_true, and_false, decide_false,
        if_false, Nat.add_zero, and_self]

theorem lawful (h : plan.Wellformed) : plan.catalogue.Lawful plan.items where
  nodup := h.items_sorted.imp fun hlt heq => by
    rw [heq] at hlt
    exact lt_irrefl _ hlt
  earlier := fun _ _ _ hitems _ hneeds => h.earlier hitems hneeds
  settles := fun _ hi _ hzero hneeds => h.settles hi hzero hneeds
  apart := fun _ hi _ hj hne s => h.apart hi hj hne s

end Plan.Wellformed

/-! ### What is committed -/

/-- The node the step inserts. -/
def Step.nodeRecord (step : Step) : Option Props :=
  match step.insert with
  | .insertNode props => some props
  | _ => none

/-- The edge the step inserts. -/
def Step.link (step : Step) : Option Link :=
  match step.insert with
  | .insertEdge a b props => some ⟨a, b, props⟩
  | _ => none

/-- The store with the records of the steps added, one for each. -/
structure Filled (s t : Native) (steps : List Step) : Prop where
  nodes : t.nodes = s.nodes ++ steps.filterMap Step.nodeRecord
  edges : t.edges = s.edges ++ steps.filterMap Step.link
  inserted : t.inserted = s.inserted ++ steps.map Step.insert

theorem Filled.nil (s : Native) : Filled s s [] := by
  constructor <;> simp

namespace Plan.Wellformed

variable {plan : Plan} {s : Native} {done rest : List Step}

theorem filled (h : plan.Wellformed) (hs : plan.catalogue.Consistent plan.items s)
    (hmissing : plan.missing s = done ++ rest) : Filled s (plan.catalogue.commitAll done s) done := by
  induction done using List.reverseRecOn generalizing rest with
  | nil => exact Filled.nil s
  | append_singleton done i ih =>
    rw [List.append_assoc] at hmissing
    have before := ih hmissing
    obtain ⟨hi, -, -⟩ := h.lawful.fresh hmissing
    obtain ⟨-, hneeds⟩ := h.lawful.ready hs hmissing
    rw [Catalogue.commitAll_concat]
    show Filled s ((plan.catalogue.commitAll done s).commit i.insert) (done ++ [i])
    cases h.shape hi with
    | node hrecorded =>
      rw [Step.commit_node]
      refine ⟨?_, ?_, ?_⟩
      · rw [before.nodes, List.append_assoc, List.filterMap_append]
        rfl
      · rw [before.edges, List.filterMap_append]
        exact (congrArg _ (List.append_nil _)).symm
      · rw [before.inserted, List.append_assoc, List.map_append]
        rfl
    | @edge a b key props propsA propsB hrecorded ha hb =>
      have hendA : (plan.catalogue.commitAll done s).nodes.countP (keyed a) = 1 :=
        hneeds _ ⟨ha, a, b, props, rfl, .inl rfl⟩
      have hendB : (plan.catalogue.commitAll done s).nodes.countP (keyed b) = 1 :=
        hneeds _ ⟨hb, a, b, props, rfl, .inr rfl⟩
      rw [Step.commit_edge, hendA, hendB]
      refine ⟨?_, ?_, ?_⟩
      · rw [before.nodes, List.filterMap_append]
        exact (congrArg _ (List.append_nil _)).symm
      · rw [before.edges, List.append_assoc, List.filterMap_append]
        rfl
      · rw [before.inserted, List.append_assoc, List.map_append]
        rfl

end Plan.Wellformed

/-! ### Runs without a fault -/

namespace Shape

variable {items : List Step} {step : Step}

theorem serve_identity (h : Shape items step) (s : Native) :
    (execute step.identity).run.serve Native.serve s = (s, .ok (some (step.found s))) := by
  cases h <;> rfl

theorem serve_exact (h : Shape items step) (s : Native) :
    (execute step.exact).run.serve Native.serve s = (s, .ok (some (step.exactly s))) := by
  cases h <;> rfl

theorem serve_insert (h : Shape items step) (s : Native) :
    (execute step.insert).run.serve Native.serve s = (s.commit step.insert, .ok none) := by
  cases h <;> rfl

/-- A step that is missing or exact is read past. -/
theorem serve_read (h : Shape items step) {rest missing : List Step} {s : Native}
    (hstep : step.found s = 0 ∨ step.found s = 1 ∧ step.exactly s = 1) :
    (readSteps (step :: rest) missing).run.serve Native.serve s =
      (readSteps rest (if step.found s = 0 then missing ++ [step] else missing)).run.serve Native.serve s := by
  refine (serve_try_ok (h.serve_identity s)).trans ?_
  rcases hstep with hzero | ⟨hone, hexact⟩
  · simp only [hzero, if_true]
  · simp only [hone, Nat.one_ne_zero, if_false]
    refine (serve_try_ok (h.serve_exact s)).trans ?_
    simp only [hexact, ne_eq, not_true_eq_false, if_false]

theorem serve_conflict (h : Shape items step) {rest missing : List Step} {s : Native} (hstep : step.Conflicts s) :
    (readSteps (step :: rest) missing).run.serve Native.serve s = (s, .error .conflict) := by
  refine (serve_try_ok (h.serve_identity s)).trans ?_
  rcases hstep with hmany | ⟨hone, hexact⟩
  · obtain ⟨n, hn⟩ := Nat.exists_eq_add_of_le' hmany
    rw [hn]
    rfl
  · simp only [hone]
    refine (serve_try_ok (h.serve_exact s)).trans ?_
    simp only [ne_eq, Option.some.injEq, hexact, not_false_eq_true, if_true]
    rfl

end Shape

section Reads

variable {items steps missing : List Step} {s : Native}

theorem serve_readSteps (hshape : ∀ step ∈ steps, Shape items step)
    (hs : ∀ step ∈ steps, step.found s = 0 ∨ step.found s = 1 ∧ step.exactly s = 1) :
    (readSteps steps missing).run.serve Native.serve s =
      (s, .ok (missing ++ steps.filter fun step => step.found s = 0)) := by
  induction steps generalizing missing with
  | nil =>
    rw [List.filter_nil, List.append_nil]
    rfl
  | cons step steps ih =>
    rw [(hshape step List.mem_cons_self).serve_read (hs step List.mem_cons_self),
      ih (fun i hi => hshape i (List.mem_cons_of_mem _ hi)) (fun i hi => hs i (List.mem_cons_of_mem _ hi))]
    by_cases hzero : step.found s = 0
    · simp [hzero]
    · simp [hzero]

/-- One record that conflicts refuses the plan. -/
theorem serve_readSteps_conflict (hshape : ∀ step ∈ steps, Shape items step) (hs : ∃ step ∈ steps, step.Conflicts s) :
    (readSteps steps missing).run.serve Native.serve s = (s, .error .conflict) := by
  induction steps generalizing missing with
  | nil =>
    obtain ⟨_, hmem, _⟩ := hs
    exact (List.not_mem_nil hmem).elim
  | cons step steps ih =>
    by_cases hstep : step.Conflicts s
    · exact (hshape step List.mem_cons_self).serve_conflict hstep
    · have hfine : step.found s = 0 ∨ step.found s = 1 ∧ step.exactly s = 1 := by
        unfold Step.Conflicts at hstep
        omega
      rw [(hshape step List.mem_cons_self).serve_read hfine]
      refine ih (fun i hi => hshape i (List.mem_cons_of_mem _ hi)) ?_
      obtain ⟨i, hi, hconflict⟩ := hs
      rcases List.mem_cons.1 hi with rfl | hrest
      · exact absurd hconflict hstep
      · exact ⟨i, hrest, hconflict⟩

end Reads

namespace Plan.Wellformed

variable {plan : Plan} {s : Native} {done rest : List Step}

/-- From any stage the rest of the missing steps is written and read back. -/
theorem serve_writeSteps (h : plan.Wellformed) (hs : plan.catalogue.Consistent plan.items s)
    (hmissing : plan.missing s = done ++ rest) :
    (writeSteps rest).run.serve Native.serve (plan.catalogue.commitAll done s) =
      (plan.catalogue.commitAll (done ++ rest) s, .ok ()) := by
  induction rest generalizing done with
  | nil =>
    rw [List.append_nil]
    rfl
  | cons i rest ih =>
    have hshape := h.shape (h.lawful.fresh hmissing).1
    have hsettled : i.found ((plan.catalogue.commitAll done s).commit i.insert) = 1 ∧
        i.exactly ((plan.catalogue.commitAll done s).commit i.insert) = 1 := h.lawful.settled_next hs hmissing
    refine (serve_try_ok (hshape.serve_insert _)).trans ?_
    refine (serve_try_ok (hshape.serve_identity _)).trans ?_
    rw [hsettled.1, if_neg (not_not.2 rfl)]
    refine (serve_try_ok (hshape.serve_exact _)).trans ?_
    rw [hsettled.2, if_neg (not_not.2 rfl)]
    have hnext : plan.missing s = (done ++ [i]) ++ rest := by rw [hmissing, List.append_assoc, List.singleton_append]
    have hrest := ih hnext
    rw [Catalogue.commitAll_concat, List.append_assoc, List.singleton_append] at hrest
    exact hrest

/-- A run that meets no fault fills everything that is missing. -/
theorem serve_reconcile (h : plan.Wellformed) (hs : plan.catalogue.Consistent plan.items s) :
    plan.reconcile.run.serve Native.serve s =
      (plan.catalogue.commitAll (plan.missing s) s, .ok (plan.missing s).length) := by
  have hreads : (readSteps plan.items []).run.serve Native.serve s = _ :=
    serve_readSteps (fun step hstep => h.shape hstep) hs
  refine (serve_try_ok hreads).trans ?_
  exact (serve_try_ok (h.serve_writeSteps hs (List.nil_append _).symm)).trans rfl

theorem serve_reconcile_conflict (h : plan.Wellformed) (hs : ∃ step ∈ plan.items, step.Conflicts s) :
    plan.reconcile.run.serve Native.serve s = (s, .error .conflict) :=
  serve_try_error (serve_readSteps_conflict (fun _ hstep => h.shape hstep) hs)

end Plan.Wellformed

/-! ### Runs with faults -/

/-- One statement of a run: the run stops at it, is told an error, or goes on with the answer. -/
theorem runs_execute {α : Type} {E : Fault → Prop} {st : Statement} {f : Option Nat → Try NativeAnswer MaterializeError α}
    {s t : Native} {result : Option (Except MaterializeError α)}
    (h : Runs Native.execute E (execute st >>= f).run s t result) :
    ((t = s ∨ t = s.commit st) ∧ ∀ a, result ≠ some (.ok a)) ∨
      Runs Native.execute E (f (st.count s)).run (s.commit st) t result := by
  rcases runs_call.1 h with ⟨rfl, rfl⟩ | ⟨fault, -, hrun⟩
  · exact .inl ⟨.inl rfl, fun a h => nomatch h⟩
  · cases fault with
    | served => exact .inr hrun
    | refused error =>
      obtain ⟨rfl, rfl⟩ := runs_done.1 hrun
      exact .inl ⟨.inl rfl, fun a h => nomatch h⟩
    | lost error =>
      obtain ⟨rfl, rfl⟩ := runs_done.1 hrun
      exact .inl ⟨.inr rfl, fun a h => nomatch h⟩

theorem runs_refused {α : Type} {E : Fault → Prop} {e : MaterializeError} {s t : Native}
    {result : Option (Except MaterializeError α)}
    (h : Runs Native.execute E (check (.error e) : Try NativeAnswer MaterializeError α).run s t result) :
    t = s ∧ ∀ a, result ≠ some (.ok a) := by
  obtain ⟨rfl, rfl⟩ := runs_check.1 h
  exact ⟨rfl, fun a h => nomatch h⟩

section Faults

variable {items steps missing : List Step} {E : Fault → Prop} {s t : Native}

/-- The first phase changes nothing, and what it answers is what is missing. -/
theorem runs_readSteps (hshape : ∀ step ∈ steps, Shape items step) {result : Option (Except MaterializeError (List Step))}
    (h : Runs Native.execute E (readSteps steps missing).run s t result) :
    t = s ∧ ∀ found, result = some (.ok found) → found = missing ++ steps.filter fun step => step.found s = 0 := by
  induction steps generalizing missing with
  | nil =>
    obtain ⟨rfl, rfl⟩ := runs_check.1 h
    refine ⟨rfl, fun found hfound => ?_⟩
    obtain rfl := Except.ok.inj (Option.some.inj hfound)
    rw [List.filter_nil, List.append_nil]
  | cons step steps ih =>
    have hstep := hshape step List.mem_cons_self
    have hrest := fun i hi => hshape i (List.mem_cons_of_mem _ hi)
    have hidentity : s.commit step.identity = s := by cases hstep <;> rfl
    have hexact : s.commit step.exact = s := by cases hstep <;> rfl
    have hcount : step.identity.count s = some (step.found s) := by cases hstep <;> rfl
    rcases runs_execute h with ⟨ht, hno⟩ | hrun
    · rw [hidentity, or_self] at ht
      exact ⟨ht, fun found hfound => absurd hfound (hno found)⟩
    · rw [hidentity, hcount] at hrun
      rcases hfound : step.found s with _ | _ | n
      · rw [hfound] at hrun
        obtain ⟨ht, hanswer⟩ := ih hrest hrun
        refine ⟨ht, fun found hresult => ?_⟩
        rw [hanswer found hresult]
        simp [hfound]
      · rw [hfound] at hrun
        rcases runs_execute hrun with ⟨ht, hno⟩ | hrun
        · rw [hexact, or_self] at ht
          exact ⟨ht, fun found hresult => absurd hresult (hno found)⟩
        · rw [hexact] at hrun
          by_cases hone : step.exact.count s = some 1
          · rw [if_neg (not_not.2 hone)] at hrun
            obtain ⟨ht, hanswer⟩ := ih hrest hrun
            refine ⟨ht, fun found hresult => ?_⟩
            rw [hanswer found hresult]
            simp [hfound]
          · rw [if_pos hone] at hrun
            obtain ⟨ht, hno⟩ := runs_refused hrun
            exact ⟨ht, fun found hresult => absurd hresult (hno found)⟩
      · rw [hfound] at hrun
        obtain ⟨ht, hno⟩ := runs_refused hrun
        exact ⟨ht, fun found hresult => absurd hresult (hno found)⟩

/-- The second phase commits the first so many of its steps, wherever it ends. -/
theorem runs_writeSteps {plan : Plan} (hshape : ∀ step ∈ steps, Shape items step)
    {result : Option (Except MaterializeError Unit)} (h : Runs Native.execute E (writeSteps steps).run s t result) :
    ∃ done rest, steps = done ++ rest ∧ t = plan.catalogue.commitAll done s := by
  induction steps generalizing s with
  | nil => exact ⟨[], [], rfl, (runs_check.1 h).1⟩
  | cons step steps ih =>
    have hstep := hshape step List.mem_cons_self
    have hrest := fun i hi => hshape i (List.mem_cons_of_mem _ hi)
    have hidentity : ∀ u : Native, u.commit step.identity = u := by cases hstep <;> exact fun _ => rfl
    have hexact : ∀ u : Native, u.commit step.exact = u := by cases hstep <;> exact fun _ => rfl
    have hcount : step.insert.count s = none := by cases hstep <;> rfl
    have honly : ∃ done rest, step :: steps = done ++ rest ∧ s.commit step.insert = plan.catalogue.commitAll done s :=
      ⟨[step], steps, rfl, rfl⟩
    rcases runs_execute h with ⟨rfl | rfl, -⟩ | hrun
    · exact ⟨[], step :: steps, rfl, rfl⟩
    · exact honly
    · rw [hcount] at hrun
      rcases runs_execute hrun with ⟨ht, -⟩ | hrun
      · rw [hidentity, or_self] at ht
        rw [ht]
        exact honly
      · rw [hidentity] at hrun
        by_cases hfound : step.identity.count (s.commit step.insert) = some 1
        · rw [if_neg (not_not.2 hfound)] at hrun
          rcases runs_execute hrun with ⟨ht, -⟩ | hrun
          · rw [hexact, or_self] at ht
            rw [ht]
            exact honly
          · rw [hexact] at hrun
            by_cases hone : step.exact.count (s.commit step.insert) = some 1
            · rw [if_neg (not_not.2 hone)] at hrun
              obtain ⟨done, rest, rfl, rfl⟩ := ih hrest hrun
              exact ⟨step :: done, rest, rfl, rfl⟩
            · rw [if_pos hone] at hrun
              rw [(runs_refused hrun).1]
              exact honly
        · rw [if_pos hfound] at hrun
          rw [(runs_refused hrun).1]
          exact honly

end Faults

/-- Whatever becomes of a run, it has committed the first so many of the missing steps. -/
theorem Plan.Wellformed.runs_reconcile {plan : Plan} (h : plan.Wellformed) {E : Fault → Prop} {s t : Native}
    {result : Option (Except MaterializeError Nat)} (hrun : Runs Native.execute E plan.reconcile.run s t result) :
    ∃ done rest, plan.missing s = done ++ rest ∧ t = plan.catalogue.commitAll done s := by
  have hstill : ∃ done rest, plan.missing s = done ++ rest ∧ s = plan.catalogue.commitAll done s :=
    ⟨[], plan.missing s, rfl, rfl⟩
  have hshape : ∀ step ∈ plan.items, Shape plan.items step := fun _ hstep => h.shape hstep
  rcases runs_try_stop hrun with ⟨hreads, -⟩ | ⟨e, hreads, -⟩ | ⟨missing, u, hreads, hwrites⟩
  · rw [(runs_readSteps hshape hreads).1]
    exact hstill
  · rw [(runs_readSteps hshape hreads).1]
    exact hstill
  · obtain ⟨rfl, hanswer⟩ := runs_readSteps hshape hreads
    have hmissing : missing = plan.missing u := hanswer missing rfl
    have hshape' : ∀ step ∈ missing, Shape plan.items step := by
      intro step hstep
      rw [hmissing] at hstep
      exact hshape step (Catalogue.mem_missing.1 hstep).1
    rw [← hmissing]
    rcases runs_try_stop hwrites with ⟨hwrite, -⟩ | ⟨e, hwrite, -⟩ | ⟨_, v, hwrite, hdone⟩
    · exact runs_writeSteps hshape' hwrite
    · exact runs_writeSteps hshape' hwrite
    · obtain ⟨rfl, -⟩ := runs_check.1 hdone
      exact runs_writeSteps hshape' hwrite

/-! ### Resuming -/

/-- One run of the plan, with any faults, ending anywhere. -/
def Plan.Attempt (plan : Plan) (s t : Native) : Prop :=
  ∃ result, Runs Native.execute (fun _ => True) plan.reconcile.run s t result

theorem Plan.Wellformed.consistent_attempts {plan : Plan} (h : plan.Wellformed) {start s : Native}
    (hstart : ∀ step ∈ plan.items, step.found start = 0) (hruns : Relation.ReflTransGen plan.Attempt start s) :
    plan.catalogue.Consistent plan.items s := by
  induction hruns with
  | refl => exact fun step hstep => .inl (hstart step hstep)
  | tail _ hattempt ih =>
    obtain ⟨result, hrun⟩ := hattempt
    obtain ⟨done, rest, hmissing, rfl⟩ := h.runs_reconcile hrun
    exact h.lawful.consistent_commitAll ih hmissing

/-- From every store that runs of the plan left behind, a run inserts what is missing, each record once and after those
it needs, and the next inserts nothing; a store that conflicts with the plan is refused as it is. -/
theorem reconcile_resumes (source : Report) (relations : List (Relationship × Row)) (observes : Option Row)
    (maxStatementBytes : Nat) (plan : Plan) (h : Plan.tinySite source relations observes maxStatementBytes = .ok plan) :
    (∀ start s, (∀ step ∈ plan.items, step.found start = 0) → Relation.ReflTransGen plan.Attempt start s →
      ∃ t, plan.reconcile.run.serve Native.serve s = (t, .ok (plan.missing s).length) ∧
        Filled s t (plan.missing s) ∧ (plan.missing s).Nodup ∧
        (∀ before step after, plan.missing s = before ++ step :: after →
          ∀ needed, plan.Needs step needed → needed.found s = 1 ∨ needed ∈ before) ∧
        (∀ step ∈ plan.items, step.found t = 1 ∧ step.exactly t = 1) ∧
        plan.reconcile.run.serve Native.serve t = (t, .ok 0)) ∧
    ∀ s, (∃ step ∈ plan.items, step.Conflicts s) → plan.reconcile.run.serve Native.serve s = (s, .error .conflict) := by
  have hplan := Plan.tinySite_wellformed h
  refine ⟨fun start s hstart hruns => ?_, fun s hs => hplan.serve_reconcile_conflict hs⟩
  have hs := hplan.consistent_attempts hstart hruns
  have hsettled : ∀ step ∈ plan.items, plan.catalogue.Settled step (plan.catalogue.commitAll (plan.missing s) s) :=
    hplan.lawful.settled_commitAll hs
  refine ⟨_, hplan.serve_reconcile hs, hplan.filled hs (List.append_nil _).symm, hplan.lawful.nodup.filter _, ?_,
    hsettled, ?_⟩
  · intro before step after hmissing needed hneeds
    exact (hplan.lawful.needed hs hmissing hneeds).2
  · have hnone : plan.missing (plan.catalogue.commitAll (plan.missing s) s) = [] :=
      Catalogue.missing_eq_nil fun step hstep => (hsettled step hstep).1
    have hagain := hplan.serve_reconcile (fun step hstep => .inr (hsettled step hstep))
    rw [hnone] at hagain
    exact hagain

/-- A term of the site with the fact that declares it. -/
def declared (artifact iri declaredIri : String) : Row × Fact :=
  let pin := artifacts.find? (·.name = artifact)
  (⟨artifact, iri, "class", ""⟩,
    { artifact := artifact
      sha256 := (pin.map (·.sha256)).getD ""
      subject := iri
      predicate := typeIri
      object := .iri declaredIri
      kind := .original
      rule := ""
      reason := ""
      provenance := (pin.map (·.provenance)).getD "" })

/-- A report of the terms the nodes of the site need. -/
def siteReport : Report :=
  let terms :=
    [declared brick "https://brickschema.org/schema/Brick#AHU" "http://www.w3.org/2002/07/owl#Class",
      declared brick "https://brickschema.org/schema/Brick#VAV" "http://www.w3.org/2002/07/owl#Class",
      declared brick "https://brickschema.org/schema/Brick#Supply_Air_Temperature_Sensor"
        "http://www.w3.org/2002/07/owl#Class",
      declared brick "https://w3id.org/rec#Room" "http://www.w3.org/2000/01/rdf-schema#Class",
      declared s223 "http://data.ashrae.org/standard223#QuantifiableObservableProperty"
        "http://data.ashrae.org/standard223#Class"]
  ⟨terms.map Prod.fst, terms.map Prod.snd⟩

/-- Some limit lets a plan through. -/
theorem Plan.exists_limit (plan : Plan) : ∃ limit, plan.tooLong limit = false := by
  refine ⟨(plan.steps.map fun entry => entry.2.identity.text.utf8ByteSize + entry.2.exact.text.utf8ByteSize +
    entry.2.insert.text.utf8ByteSize).sum, ?_⟩
  rw [Plan.tooLong, List.any_eq_false]
  intro entry hentry
  have hle := List.single_le_sum (fun _ _ => Nat.zero_le _) _ (List.mem_map_of_mem (f := fun entry : String × Step =>
    entry.2.identity.text.utf8ByteSize + entry.2.exact.text.utf8ByteSize + entry.2.insert.text.utf8ByteSize) hentry)
  simp only [List.any_cons, List.any_nil, Bool.or_false, Bool.or_eq_true, decide_eq_true_eq]
  omega

theorem reconcile_resumes_site : ∃ limit plan, Plan.tinySite siteReport [] none limit = .ok plan ∧
    ∃ t, plan.reconcile.run.serve Native.serve ⟨[], [], []⟩ = (t, .ok (plan.missing ⟨[], [], []⟩).length) ∧
      plan.reconcile.run.serve Native.serve t = (t, .ok 0) := by
  have hassembled : (Plan.assemble siteReport [] none).toOption.isSome = true := by decide +kernel
  rcases hplan : Plan.assemble siteReport [] none with e | plan
  · rw [hplan] at hassembled
    exact nomatch hassembled
  · obtain ⟨limit, hlimit⟩ := plan.exists_limit
    have hsite : Plan.tinySite siteReport [] none limit = .ok plan := by
      unfold Plan.tinySite
      rw [hplan, Result.ok_bind, hlimit]
      rfl
    have hempty : ∀ step ∈ plan.items, step.found ⟨[], [], []⟩ = 0 := by
      intro step hstep
      cases (Plan.tinySite_wellformed hsite).shape hstep <;> rfl
    obtain ⟨t, hfirst, -, -, -, -, hsecond⟩ :=
      (reconcile_resumes siteReport [] none limit plan hsite).1 _ _ hempty .refl
    exact ⟨limit, plan, hsite, t, hfirst, hsecond⟩

end Verdant.Semantics
