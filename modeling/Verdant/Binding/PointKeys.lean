import Verdant.Binding.BindingRuns
import Verdant.Library.Yields

/-!
# Point keys

A point is stored under its equipment and its property joined by a colon, and both may contain colons.  The points of a
reached history are looked up by the exact pair when no recorded pair can be cut in another place (`OneCut`); where one
can, the pair on the other side of the cut is refused as recorded.
-/

namespace Verdant.Binding

open TextCodec Storage Access Prog

/-! ### Cuts of a key -/

/-- Every other colon of the pair leaves an empty part or a part that is too long. -/
structure OneCut (equipment property : String) : Prop where
  inProperty : ∀ a b, property = a ++ ":" ++ b → b = "" ∨ maxTokenLen < (equipment ++ ":" ++ a).utf8ByteSize
  inEquipment : ∀ a b, equipment = a ++ ":" ++ b → a = "" ∨ maxTokenLen < (b ++ ":" ++ property).utf8ByteSize

theorem isId_join {a b : String} (ha : a.toList.all idChar = true) (hb : b.toList.all idChar = true)
    (hsize : (a ++ ":" ++ b).utf8ByteSize ≤ maxTokenLen) : IsId (a ++ ":" ++ b) := by
  have hcolon : (":" : String).toList.all idChar = true := by decide
  refine ⟨?_, hsize, ?_⟩
  · intro hempty
    have hlen := congrArg String.utf8ByteSize hempty
    have hone : (":" : String).utf8ByteSize = 1 := by decide
    have hzero : ("" : String).utf8ByteSize = 0 := rfl
    rw [String.utf8ByteSize_append, String.utf8ByteSize_append, hone, hzero] at hlen
    omega
  · rw [String.toList_append, String.toList_append, List.all_append, List.all_append, ha, hcolon, hb]
    rfl

theorem toList_pointKey (equipment property : String) :
    (pointKey equipment property).toList = equipment.toList ++ ':' :: property.toList := by
  unfold pointKey
  rw [String.toList_append, String.toList_append, List.append_assoc]
  rfl

/-- A text whose characters are cut at a colon. -/
theorem eq_pointKey_of_toList {a : String} {b c : List Char} (h : a.toList = b ++ ':' :: c) :
    a = pointKey (String.ofList b) (String.ofList c) := by
  apply String.toList_inj.1
  rw [h, toList_pointKey, String.toList_ofList, String.toList_ofList]

theorem pointKey_join (a b c : String) : pointKey (a ++ ":" ++ b) c = pointKey a (b ++ ":" ++ c) := by
  unfold pointKey
  simp only [String.append_assoc]

/-- A pair has its key for itself exactly when the key has one cut. -/
theorem oneCut_iff {equipment property : String} (hequipment : IsId equipment) (hproperty : IsId property) :
    OneCut equipment property ↔ ∀ other name, IsId other → IsId name →
      pointKey other name = pointKey equipment property → other = equipment ∧ name = property := by
  constructor
  · intro h other name hother hname hkey
    have hlist := congrArg String.toList hkey
    rw [toList_pointKey, toList_pointKey, List.append_eq_append_iff] at hlist
    rcases hlist with ⟨c, hlong, hrest⟩ | ⟨c, hlong, hrest⟩
    · -- the other pair is cut at a colon of the equipment
      cases c with
      | nil =>
        rw [List.append_nil] at hlong
        rw [List.nil_append, List.cons.injEq] at hrest
        exact ⟨(String.toList_inj.1 hlong).symm, String.toList_inj.1 hrest.2⟩
      | cons d c =>
        rw [List.cons_append, List.cons.injEq] at hrest
        obtain ⟨rfl, hname'⟩ := hrest
        have hname'' := eq_pointKey_of_toList hname'
        have hcut := eq_pointKey_of_toList hlong
        rw [String.ofList_toList] at hname'' hcut
        rcases h.inEquipment _ _ hcut with hempty | hsize
        · exact absurd hempty hother.1
        · unfold pointKey at hname''
          rw [← hname''] at hsize
          exact absurd hname.2.1 (Nat.not_le.2 hsize)
    · -- the other pair is cut at a colon of the property
      cases c with
      | nil =>
        rw [List.append_nil] at hlong
        rw [List.nil_append, List.cons.injEq] at hrest
        exact ⟨String.toList_inj.1 hlong, (String.toList_inj.1 hrest.2).symm⟩
      | cons d c =>
        rw [List.cons_append, List.cons.injEq] at hrest
        obtain ⟨rfl, hproperty'⟩ := hrest
        have hcut := eq_pointKey_of_toList hproperty'
        have hother' := eq_pointKey_of_toList hlong
        rw [String.ofList_toList] at hcut hother'
        rcases h.inProperty _ _ hcut with hempty | hsize
        · exact absurd hempty hname.1
        · unfold pointKey at hother'
          rw [← hother'] at hsize
          exact absurd hother.2.1 (Nat.not_le.2 hsize)
  · intro h
    have hchars : ∀ {a b : String}, (a ++ ":" ++ b).toList.all idChar = true →
        a.toList.all idChar = true ∧ b.toList.all idChar = true := by
      intro a b hall
      rw [String.toList_append, String.toList_append, List.all_append, List.all_append, Bool.and_eq_true,
        Bool.and_eq_true] at hall
      exact ⟨hall.1.1, hall.2⟩
    have hlonger : ∀ a b : String, a ++ ":" ++ b ≠ a ∧ a ++ ":" ++ b ≠ b := by
      intro a b
      have hone : (":" : String).utf8ByteSize = 1 := by decide
      constructor
      · intro heq
        have hlen := congrArg String.utf8ByteSize heq
        rw [String.utf8ByteSize_append, String.utf8ByteSize_append, hone] at hlen
        omega
      · intro heq
        have hlen := congrArg String.utf8ByteSize heq
        rw [String.utf8ByteSize_append, String.utf8ByteSize_append, hone] at hlen
        omega
    refine ⟨fun a b hcut => ?_, fun a b hcut => ?_⟩
    · by_contra hbad
      rw [not_or] at hbad
      obtain ⟨hne, hsize⟩ := hbad
      obtain ⟨ha, hb⟩ := hchars (hcut ▸ hproperty.2.2)
      have hother := isId_join hequipment.2.2 ha (Nat.le_of_not_lt hsize)
      have hsizeb : b.utf8ByteSize ≤ maxIdLen := by
        have hle := hproperty.2.1
        rw [hcut, String.utf8ByteSize_append] at hle
        omega
      obtain ⟨hsame, -⟩ := h _ b hother ⟨hne, hsizeb, hb⟩ (by rw [pointKey_join, ← hcut])
      exact (hlonger equipment a).1 hsame
    · by_contra hbad
      rw [not_or] at hbad
      obtain ⟨hne, hsize⟩ := hbad
      obtain ⟨ha, hb⟩ := hchars (hcut ▸ hequipment.2.2)
      have hname := isId_join hb hproperty.2.2 (Nat.le_of_not_lt hsize)
      have hsizea : a.utf8ByteSize ≤ maxIdLen := by
        have hle := hequipment.2.1
        rw [hcut, String.utf8ByteSize_append, String.utf8ByteSize_append] at hle
        omega
      obtain ⟨-, hsame⟩ := h a _ ⟨hne, hsizea, ha⟩ hname (by rw [← pointKey_join, ← hcut])
      exact (hlonger b property).2 hsame

/-! ### Lookups -/

/-- The pair was recorded as a point. -/
def RecordedPair (log : List Entry) (equipment : InstalledId) (property : PropertyName) : Prop :=
  ∃ point ∈ pointsOf log, point.equipment = equipment ∧ point.property = property

/-- What a registry does with the stored points: it takes only the point of the pair asked for, and refuses only a pair
that was recorded. -/
structure ExactPoints (registry : BindingRegistry) (db : Database OutboxTables) : Prop where
  truth : ∀ doing (equipment : InstalledId) (property : PropertyName) fallback point,
    registry.pointTruth doing equipment.text property.text fallback = .ok point →
      point ∈ pointsOf (ledgerOf db.tables) ∧ point.equipment = equipment ∧ point.property = property
  resolve : ∀ binding, registry.resolve binding = .ok () → ∃ point ∈ pointsOf (ledgerOf db.tables),
    point.equipment = binding.pointEquipment ∧ point.property = binding.pointProperty ∧
      binding.pointScope = point.scope ∧ binding.unit.asStr = point.unit.asStr ∧
      binding.endpointClass = point.endpointClass
  duplicate : ∀ (equipment : InstalledId) (property : PropertyName) scope unitText endpointClass es t id detail rest,
    (registry.recordPoint equipment.text property.text scope unitText endpointClass).run.run StoreOp.exec es db =
      (t, some (.error (.duplicateIdentity id detail), rest)) →
        RecordedPair (ledgerOf db.tables) equipment property

/-- No recorded pair can be cut in another place. -/
def KeysCutOnce (log : List Entry) : Prop :=
  ∀ point ∈ pointsOf log, OneCut point.equipment.text point.property.text

theorem InstalledId.text_injective {a b : InstalledId} (h : a.text = b.text) : a = b := by
  cases a
  cases b
  cases h
  rfl

theorem PropertyName.text_injective {a b : PropertyName} (h : a.text = b.text) : a = b := by
  cases a
  cases b
  cases h
  rfl

theorem points_exact {log : List Entry} (hcut : KeysCutOnce log) {equipment : InstalledId} {property : PropertyName}
    {point : PointRecord} (h : (memoryOf log).points (pointKey equipment.text property.text) = some point) :
    point ∈ pointsOf log ∧ point.equipment = equipment ∧ point.property = property := by
  obtain ⟨hmem, hkey⟩ := points_eq_some log h
  obtain ⟨hequipment, hproperty⟩ := (oneCut_iff point.equipment.valid point.property.valid).1 (hcut point hmem) _ _
    equipment.valid property.valid hkey.symm
  exact ⟨hmem, (InstalledId.text_injective hequipment).symm, (PropertyName.text_injective hproperty).symm⟩

theorem pointTruth_eq_ok {registry : BindingRegistry} {doing equipment property fallback : String} {point : PointRecord}
    (h : registry.pointTruth doing equipment property fallback = .ok point) :
    registry.memory.points (pointKey equipment property) = some point := by
  unfold BindingRegistry.pointTruth at h
  split at h
  · exact nomatch h
  rename_i found hfound
  split at h
  · exact nomatch h
  · cases h
    exact hfound

/-! ### Duplicates -/

/-- The error does not say that something is recorded already. -/
def NoDuplicate : BindingError → Prop
  | .duplicateIdentity _ _ => False
  | _ => True

theorem submitted_noDuplicate (outcome : MutationOutcome) : Result.Fails NoDuplicate (submitted outcome) := by
  unfold submitted
  split
  · split
    · exact .ok
    · exact .error trivial
  · split
    · exact .error trivial
    split
    · exact .error trivial
    · exact .error trivial
  · exact .error trivial
  · exact .error trivial
  · exact .error trivial

theorem mapError_noDuplicate {ε α : Type} {f : ε → BindingError} (hf : ∀ e, NoDuplicate (f e)) (x : Except ε α) :
    Result.Fails NoDuplicate (x.mapError f) := by
  cases x with
  | error e => exact .error (hf e)
  | ok a => exact .ok

theorem operationId_noDuplicate : Refuses NoDuplicate operationId := by
  refine Refuses.tryBind refuses_issue fun id => refuses_check ?_
  exact mapError_noDuplicate (by exact fun _ => trivial) _

theorem prepareRow_noDuplicate (registry : BindingRegistry) (operation : OperationId) (kind : String)
    (entity : InstalledId) (text : String) (authority : Option Authority) :
    Refuses NoDuplicate (registry.prepareRow operation kind entity text authority) := by
  unfold BindingRegistry.prepareRow
  refine Refuses.tryBind (refuses_check ?_) fun seq => ?_
  · unfold nextSequence
    split
    · exact .error trivial
    split
    · exact .error trivial
    · exact .ok
  refine Refuses.tryBind refuses_issue fun id => ?_
  refine Refuses.tryBind (refuses_check ?_) fun pending => refuses_pure _
  exact mapError_noDuplicate (by exact fun _ => trivial) _

theorem writeRecord_noDuplicate (registry : BindingRegistry) (kind : String) (entity : InstalledId) (fields : Fields) :
    Refuses NoDuplicate (registry.writeRecord kind entity fields) := by
  unfold BindingRegistry.writeRecord
  refine Refuses.tryBind operationId_noDuplicate fun operation => ?_
  refine Refuses.tryBind (prepareRow_noDuplicate registry operation kind entity _ none) fun pending => ?_
  refine Refuses.tryBind ?_ fun _ => refuses_pure _
  exact Refuses.tryBind refuses_issue fun outcome => refuses_check (submitted_noDuplicate outcome)

theorem parsePoint_noDuplicate (equipment property : String) (scope : TrustedScope) (unitText : String)
    (endpointClass : EndpointClass) :
    Result.Fails NoDuplicate (PointRecord.parse equipment property scope unitText endpointClass) := by
  have htoken : Result.Fails NoDuplicate (PropertyName.parse property) := by
    intro e he
    unfold PropertyName.parse parseToken at he
    split at he
    · rename_i e' he'
      cases he
      unfold validateToken at he'
      split at he'
      · cases he'
        exact trivial
      split at he'
      · cases he'
        exact trivial
      split at he'
      · exact nomatch he'
      · cases he'
        exact trivial
    · exact nomatch he
  unfold PointRecord.parse parseInstalled
  refine Result.Fails.bind ?_ fun _ => htoken.bind fun _ => Result.Fails.bind ?_ fun _ => .ok
  · exact mapError_noDuplicate (by exact fun _ => trivial) _
  · exact mapError_noDuplicate (by exact fun _ => trivial) _

/-- A registry as its replay of the database gives it. -/
def ReplaysTo (registry : BindingRegistry) (db : Database OutboxTables) : Prop :=
  (decodeRows ((logOf isBinding db.tables).map bindingColumns) >>= BindingRegistry.ofRows registry.store) = .ok registry

/-- What a record of a point does in a database whose rows the registry was read from: the store refuses its read, or the
pair is refused as recorded, or it goes on to write. -/
theorem recordPoint_duplicate {registry : BindingRegistry} {db t : Database OutboxTables}
    (hreplays : ReplaysTo registry db) {equipment property : String} {scope : TrustedScope} {unitText : String}
    {endpointClass : EndpointClass} {es rest : List Moment} {id detail : String}
    (h : (registry.recordPoint equipment property scope unitText endpointClass).run.run StoreOp.exec es db =
      (t, some (.error (.duplicateIdentity id detail), rest))) :
    (registry.memory.points (pointKey equipment property)).isSome = true := by
  cases es with
  | nil => exact nomatch h
  | cons m es =>
    unfold BindingRegistry.recordPoint at h
    rw [Prog.run_try_bind, replay_run] at h
    cases hread : execScript m selectBindings db with
    | error e =>
      rw [hread] at h
      cases h
    | ok rows =>
      have hrows : rows = (logOf isBinding db.tables).map bindingColumns := by
        unfold execScript at hread
        split at hread
        · exact nomatch hread
        · exact (Except.ok.inj hread).symm
      rw [hread, hrows] at h
      have hanswer : ((Except.ok ((logOf isBinding db.tables).map bindingColumns) : Except StorageError Rows).mapError
          BindingError.store >>= fun rows => decodeRows rows >>= BindingRegistry.ofRows registry.store) = .ok registry :=
        hreplays
      rw [hanswer] at h
      by_contra hnone
      simp only [if_neg hnone] at h
      -- from here on no error says that the point is recorded
      have hyields : Refuses NoDuplicate (do
          let record ← Prog.check (PointRecord.parse equipment property scope unitText endpointClass)
          let registry ← registry.writeRecord opPointText record.equipment (pointFields record)
          return { registry with memory := registry.memory.recordPoint (pointKey equipment property) record } :
            BindingCall BindingRegistry) :=
        Refuses.tryBind (refuses_check (parsePoint_noDuplicate _ _ _ _ _)) fun record =>
          Refuses.tryBind (writeRecord_noDuplicate registry _ _ _) fun _ => refuses_pure _
      exact hyields.run h _ rfl

/-- A record of a pair whose key is taken is refused as recorded. -/
theorem recordPoint_taken {registry : BindingRegistry} {db : Database OutboxTables} (hreplays : ReplaysTo registry db)
    {equipment property : String} (scope : TrustedScope) (unitText : String) (endpointClass : EndpointClass)
    {m : Moment} (hm : m.read = none)
    (htaken : (registry.memory.points (pointKey equipment property)).isSome = true) :
    (registry.recordPoint equipment property scope unitText endpointClass).run.run StoreOp.exec [m] db =
      (db, some (.error (BindingRegistry.duplicate (pointKey equipment property)
        "point already recorded for this equipment and property"), [])) := by
  unfold BindingRegistry.recordPoint
  have hanswer : ((Except.ok ((logOf isBinding db.tables).map bindingColumns) : Except StorageError Rows).mapError
      BindingError.store >>= fun rows => decodeRows rows >>= BindingRegistry.ofRows registry.store) = .ok registry :=
    hreplays
  rw [Prog.run_try_bind, replay_run, read_bindings hm, hanswer]
  simp only [if_pos htaken]
  rfl

/-! ### Exactness -/

/-- In every state that is reached, a registry read from it looks points up by the exact pair exactly when no recorded pair
can be cut in another place. -/
theorem exactPoints_iff {loose : Prop} {db : Database OutboxTables} (hdb : Kept loose db) {registry : BindingRegistry}
    (hreplays : ReplaysTo registry db) : ExactPoints registry db ↔ KeysCutOnce (ledgerOf db.tables) := by
  have hmemory : registry.memory = memoryOf (ledgerOf db.tables) := by
    have hread := readable_of_ofRows hdb.filedAll hreplays
    obtain ⟨guard, hrows, -⟩ := ofRows_filed hdb.filedAll hread hdb.reachable registry.store
    exact congrArg BindingRegistry.memory (Except.ok.inj (Eq.trans (Eq.symm hreplays) hrows))
  constructor
  · intro hexact point hpoint
    rw [oneCut_iff point.equipment.valid point.property.valid]
    intro other name hother hname hkey
    -- the key of the pair is taken by the point
    have htaken : (registry.memory.points (pointKey other name)).isSome = true := by
      rw [hkey, hmemory]
      exact points_isSome (ledgerOf db.tables) hpoint
    have hrun := recordPoint_taken hreplays point.scope "" point.endpointClass
      (show (Moment.quiet "" 0).read = none from rfl) htaken
    obtain ⟨recorded, hrecorded, hequipment, hproperty⟩ := hexact.duplicate ⟨other, hother⟩ ⟨name, hname⟩ _ _ _ _ _ _ _ _
      hrun
    have hsame : recorded = point := by
      refine List.inj_on_of_nodup_map hdb.reachable.sound.points hrecorded hpoint ?_
      unfold PointRecord.key
      rw [hequipment, hproperty]
      exact hkey
    rw [← hsame, hequipment, hproperty]
    exact ⟨rfl, rfl⟩
  · intro hcut
    refine ⟨fun doing equipment property fallback point h => ?_, fun binding h => ?_, ?_⟩
    · have hpoint := pointTruth_eq_ok h
      rw [hmemory] at hpoint
      exact points_exact hcut hpoint
    · have hresolves := resolve_eq_ok h
      rw [hmemory] at hresolves
      obtain ⟨point, hpoint, hscope, hunit, hclass⟩ := hresolves.point
      obtain ⟨hmem, hequipment, hproperty⟩ := points_exact hcut hpoint
      exact ⟨point, hmem, hequipment, hproperty, hscope, hunit, hclass⟩
    · intro equipment property scope unitText endpointClass es t id detail rest h
      have htaken := recordPoint_duplicate hreplays h
      rw [hmemory] at htaken
      obtain ⟨point, hpoint⟩ := Option.isSome_iff_exists.1 htaken
      obtain ⟨hmem, hpair⟩ := points_exact hcut hpoint
      exact ⟨point, hmem, hpair⟩

/-- The registries read from the states of a run look points up by the exact pair exactly while no recorded pair can be
cut in another place. -/
theorem point_lookups_iff (start : EmptyHistory) (turns : List BindingTurn) (registry : BindingRegistry)
    (hreplays : ReplaysTo registry (bindingRun start turns).state) :
    ExactPoints registry (bindingRun start turns).state ↔
      KeysCutOnce (ledgerOf (bindingRun start turns).state.tables) :=
  have hkept : Kept True (bindingRun start turns).state := (kept_of_run start fun h => absurd trivial h).1
  exactPoints_iff hkept hreplays

/-! ### Two pairs of one key -/

namespace SharedKey

def store : SqliteStore := ⟨"main", { StoreBounds.tiny with maxValueBytes := 2 ^ 20 }⟩
def handle : BindingRegistry := ⟨store, .empty, 0, countBindings 0⟩
theorem scope_valid : IsId "scope-a" := by decide

def scope : TrustedScope := ⟨"scope-a", scope_valid⟩

/-- A point of the equipment `a:b` is recorded, and then one of the equipment `a`. -/
def turns : List BindingTurn :=
  .ask (.point handle "a:b" "c" scope "degC" .service) ::
    (List.replicate 4 (Moment.quiet "op-1" 1000)).map (Turn.step 0) ++
  .ask (.point handle "a" "b:c" scope "degC" .service) :: [Turn.step 1 (Moment.quiet "op-2" 2000)]

def isDuplicate : Option (Except BindingError BindingAnswer) → Bool
  | some (.error (.duplicateIdentity _ _)) => true
  | _ => false

def pairsOf (tables : OutboxTables) : List (String × String) :=
  (pointsOf (ledgerOf tables)).map fun p => (p.equipment.text, p.property.text)

theorem run_eq : ((bindingRun .fresh turns).answers.map isDuplicate, pairsOf (bindingRun .fresh turns).state.tables) =
    ([false, true], [("a:b", "c")]) := by decide +kernel

end SharedKey

/-- The second pair is refused as recorded, and only the first was recorded. -/
theorem colon_pair_refused :
    (bindingRun .fresh SharedKey.turns).answers.map SharedKey.isDuplicate = [false, true] ∧
      ¬ RecordedPair (ledgerOf (bindingRun .fresh SharedKey.turns).state.tables) ⟨"a", by decide⟩ ⟨"b:c", by decide⟩ := by
  obtain ⟨hanswers, hpairs⟩ := Prod.mk.inj SharedKey.run_eq
  refine ⟨hanswers, ?_⟩
  rintro ⟨point, hpoint, hequipment, hproperty⟩
  have hmem : (point.equipment.text, point.property.text) ∈
      SharedKey.pairsOf (bindingRun .fresh SharedKey.turns).state.tables := List.mem_map_of_mem hpoint
  rw [hpairs, hequipment, hproperty] at hmem
  exact absurd hmem (by decide)

/-- A registry read from that state does not look its point up by the exact pair. -/
theorem colon_pair_inexact : ∃ registry, ReplaysTo registry (bindingRun .fresh SharedKey.turns).state ∧
    ¬ ExactPoints registry (bindingRun .fresh SharedKey.turns).state := by
  have hdecode : AllDecode SharedKey.turns := by
    intro r hr
    simp only [SharedKey.turns, List.cons_append, List.mem_append, List.mem_cons, List.mem_map, Turn.ask.injEq,
      reduceCtorEq, and_false, exists_false, false_or, List.not_mem_nil, or_false] at hr
    rcases hr with rfl | rfl
    · exact trivial
    · exact trivial
  have hkept : Kept False (bindingRun .fresh SharedKey.turns).state := (kept_of_run .fresh fun _ => hdecode).1
  obtain ⟨guard, hrows, -⟩ := ofRows_filed hkept.filedAll (hkept.readable not_false) hkept.reachable SharedKey.store
  have hreplays : ReplaysTo ⟨SharedKey.store, memoryOf (ledgerOf (bindingRun .fresh SharedKey.turns).state.tables),
    (logOf isBinding (bindingRun .fresh SharedKey.turns).state.tables).length, guard⟩
    (bindingRun .fresh SharedKey.turns).state := hrows
  refine ⟨_, hreplays, fun hexact => ?_⟩
  have hcut := (point_lookups_iff .fresh SharedKey.turns _ hreplays).1 hexact
  obtain ⟨-, hpairs⟩ := Prod.mk.inj SharedKey.run_eq
  have hmem : ("a:b", "c") ∈ SharedKey.pairsOf (bindingRun .fresh SharedKey.turns).state.tables := by
    rw [hpairs]
    exact List.mem_singleton_self _
  obtain ⟨point, hpoint, hpair⟩ := List.mem_map.1 hmem
  have hone := hcut point hpoint
  obtain ⟨hequipment, hproperty⟩ := Prod.mk.inj hpair
  rw [hequipment, hproperty] at hone
  exact absurd (hone.inEquipment "a" "b" (by decide)) (by decide)

end Verdant.Binding
