import Verdant.Cov.Subscription

/-!
# Attribution of read replies

A reply to a multiple read is rows of objects with items of properties, in any shape the peer likes.  The items are counted
over all rows; each requested property takes its outcome from the one item about it, if there is one
(`attribution_exact`).
-/

namespace Verdant.Bacnet

open Cov

inductive PropertyOutcome where
  | value (bytes : List UInt8)
  | remoteError (class' code : Nat)
  | reject (reason : UInt8)
  | abort (reason : UInt8)
  | timeout
  | invalidReply
  | oversized
  | transportFailure
  deriving DecidableEq, Repr

structure PropertyResult where
  property : Property
  outcome : PropertyOutcome
  deriving DecidableEq, Repr

structure ReadBatch where
  target : List UInt8
  properties : List PropertyResult
  deriving DecidableEq, Repr

inductive RawOutcome where
  | bacnet (batch : ReadBatch)
  | quarantined
  | discoveryRefused
  deriving DecidableEq, Repr

/-! ### Requests -/

/-- A multiple read has one to eight properties, all different. -/
structure Multiple where
  properties : List Property
  counted : 0 < properties.length ∧ properties.length ≤ maxProperties
  distinct : properties.Nodup
  deriving DecidableEq

inductive Request where
  | single (property : Property)
  | multiple (request : Multiple)
  | discover (inst : Nat)
  deriving DecidableEq

def Request.readPropertyMultiple (properties : List Property) : Except BacnetError Request :=
  if counted : 0 < properties.length ∧ properties.length ≤ maxProperties then
    if distinct : properties.Nodup then .ok (.multiple ⟨properties, counted, distinct⟩)
    else .error (.invalid "duplicate property")
  else .error (.invalid "property count")

/-! ### The client -/

inductive WireError where
  | protocol (class' code : Nat)
  | reject (reason : UInt8)
  | abort (reason : UInt8)
  | timeout
  | transport
  | encoding
  | decoding
  | segmentation
  | bufferTooShort
  | invalidTag
  | outOfRange
  | routedPathTooLong
  | routedPathCapacityExceeded
  deriving DecidableEq, Repr

structure ReadAck where
  objectIdentifier : Nat
  propertyIdentifier : Nat
  propertyArrayIndex : Option Nat
  propertyValue : List UInt8

structure Item where
  propertyIdentifier : Nat
  propertyArrayIndex : Option Nat
  propertyValue : Option (List UInt8)
  error : Option (Nat × Nat)
  deriving DecidableEq, Repr

structure Row where
  objectIdentifier : Nat
  listOfResults : List Item
  deriving DecidableEq, Repr

/-- What the upstream client answers to each service. -/
structure Client where
  readProperty : List UInt8 → Property → Except WireError ReadAck
  readPropertyMultiple : List UInt8 → List Property → Except WireError (List Row)
  whoIsDirected : List UInt8 → Nat → Except WireError Unit

def value (bytes : List UInt8) : PropertyOutcome :=
  if maxValueBytes < bytes.length then .oversized else .value bytes

def repeated (properties : List Property) (outcome : PropertyOutcome) : List PropertyResult :=
  properties.map fun property => ⟨property, outcome⟩

def wireError : WireError → PropertyOutcome
  | .protocol class' code => .remoteError class' code
  | .reject reason => .reject reason
  | .abort reason => .abort reason
  | .timeout => .timeout
  | .transport => .transportFailure
  | .encoding | .decoding | .segmentation | .bufferTooShort | .invalidTag | .outOfRange | .routedPathTooLong
  | .routedPathCapacityExceeded => .invalidReply

def itemMatches (property : Property) (item : Item) : Bool :=
  item.propertyIdentifier = property.identifier ∧ item.propertyArrayIndex = property.arrayIndex

def matching (rows : List Row) (property : Property) : List Item :=
  ((rows.filter fun row => row.objectIdentifier = property.object).flatMap Row.listOfResults).filter (itemMatches property)

def itemOutcome (item : Item) : PropertyOutcome :=
  match item.propertyValue, item.error with
  | some bytes, none => value bytes
  | none, some (class', code) => .remoteError class' code
  | none, none | some _, some _ => .invalidReply

def attributed (rows : List Row) (property : Property) : PropertyOutcome :=
  match matching rows property with
  | [item] => itemOutcome item
  | _ => .invalidReply

def itemCount (rows : List Row) : Nat := (rows.map fun row => row.listOfResults.length).sum

def ackResults (properties : List Property) (rows : List Row) : List PropertyResult :=
  if maxProperties < itemCount rows then repeated properties .oversized
  else properties.map fun property => ⟨property, attributed rows property⟩

def Client.read (client : Client) (target : List UInt8) : Request → RawOutcome
  | .single property =>
    let outcome := match client.readProperty target property with
      | .ok ack =>
        if ack.objectIdentifier = property.object ∧ ack.propertyIdentifier = property.identifier ∧
            ack.propertyArrayIndex = property.arrayIndex then value ack.propertyValue
        else .invalidReply
      | .error error => wireError error
    .bacnet ⟨target, [⟨property, outcome⟩]⟩
  | .multiple request =>
    let results := match client.readPropertyMultiple target request.properties with
      | .error error => repeated request.properties (wireError error)
      | .ok rows => ackResults request.properties rows
    .bacnet ⟨target, results⟩
  | .discover inst =>
    match client.whoIsDirected target inst with
    | .ok () => .quarantined
    | .error _ => .discoveryRefused

/-! ### The items of a reply -/

/-- Every item with the object of its row. -/
def held (rows : List Row) : List (Nat × Item) :=
  rows.flatMap fun row => row.listOfResults.map fun item => (row.objectIdentifier, item)

/-- An item is about a property. -/
def About (property : Property) (item : Nat × Item) : Prop :=
  item.1 = property.object ∧ item.2.propertyIdentifier = property.identifier ∧
    item.2.propertyArrayIndex = property.arrayIndex

instance (property : Property) : DecidablePred (About property) := by
  intro item
  unfold About
  infer_instance

theorem length_held (rows : List Row) : (held rows).length = itemCount rows := by
  unfold held itemCount
  rw [List.length_flatMap]
  simp only [List.length_map]

theorem matching_eq (rows : List Row) (property : Property) :
    matching rows property = ((held rows).filter fun item => About property item).map Prod.snd := by
  unfold matching held
  induction rows with
  | nil => rfl
  | cons row rows ih =>
    rw [List.flatMap_cons, List.filter_append, List.map_append, ← ih]
    by_cases hobject : row.objectIdentifier = property.object
    · rw [List.filter_cons_of_pos (by simp [hobject]), List.flatMap_cons, List.filter_append]
      congr 1
      rw [List.filter_map, List.map_map]
      have hitem : ((fun item => decide (About property item)) ∘ fun item => (row.objectIdentifier, item)) =
          itemMatches property := by
        funext item
        simp [About, itemMatches, hobject]
      rw [hitem]
      exact (List.map_id _).symm
    · rw [List.filter_cons_of_neg (by simp [hobject])]
      have hnone : ((row.listOfResults.map fun item => (row.objectIdentifier, item)).filter
          fun item => decide (About property item)) = [] := by
        rw [List.filter_eq_nil_iff]
        intro item hitem
        obtain ⟨_, -, rfl⟩ := List.mem_map.1 hitem
        simp [About, hobject]
      rw [hnone]
      rfl

/-- Exactly one item is about the property. -/
def Sole (rows : List Row) (property : Property) (item : Item) : Prop :=
  (held rows).countP (fun other => About property other) = 1 ∧ (property.object, item) ∈ held rows ∧
    About property (property.object, item)

theorem matching_eq_singleton {rows : List Row} {property : Property} {item : Item} :
    matching rows property = [item] ↔ Sole rows property item := by
  rw [matching_eq, Sole, List.countP_eq_length_filter]
  constructor
  · intro h
    obtain ⟨⟨object, other⟩, hfilter, rfl⟩ := List.map_eq_singleton_iff.1 h
    have hmem : (object, other) ∈ (held rows).filter fun item => About property item := by
      rw [hfilter]
      exact List.mem_singleton_self _
    obtain ⟨hheld, habout⟩ := List.mem_filter.1 hmem
    rw [decide_eq_true_eq] at habout
    obtain rfl := habout.1
    exact ⟨by rw [hfilter]; rfl, hheld, habout⟩
  · rintro ⟨hone, hheld, habout⟩
    obtain ⟨sole, hsole⟩ := List.length_eq_one_iff.1 hone
    have hmem : (property.object, item) ∈ (held rows).filter fun item => About property item :=
      List.mem_filter.2 ⟨hheld, decide_eq_true habout⟩
    rw [hsole, List.mem_singleton] at hmem
    rw [hsole, ← hmem]
    rfl

/-- What the outcome of a property says about the reply. -/
structure Attributed (rows : List Row) (property : Property) (outcome : PropertyOutcome) : Prop where
  value : ∀ bytes, outcome = .value bytes ↔ ∃ item, Sole rows property item ∧ item.propertyValue = some bytes ∧
    item.error = none ∧ bytes.length ≤ maxValueBytes
  remote : ∀ class' code, outcome = .remoteError class' code ↔ ∃ item, Sole rows property item ∧
    item.propertyValue = none ∧ item.error = some (class', code)
  oversized : outcome = .oversized ↔ ∃ item bytes, Sole rows property item ∧ item.propertyValue = some bytes ∧
    item.error = none ∧ maxValueBytes < bytes.length
  invalid : outcome = .invalidReply ↔ ∀ item, Sole rows property item → (item.propertyValue.isSome ↔ item.error.isSome)

theorem Sole.unique {rows : List Row} {property : Property} {item item' : Item} (h : Sole rows property item)
    (h' : Sole rows property item') : item = item' := by
  have hsame := (matching_eq_singleton.2 h).symm.trans (matching_eq_singleton.2 h')
  exact List.singleton_inj.1 hsame

theorem value_eq (bytes : List UInt8) :
    value bytes = if maxValueBytes < bytes.length then .oversized else .value bytes := rfl

/-- An item is attributed by what it carries. -/
theorem attributed_of_sole {rows : List Row} {property : Property} {item : Item} (h : Sole rows property item) :
    Attributed rows property (itemOutcome item) := by
  have hexists : ∀ P : Item → Prop, (∃ other, Sole rows property other ∧ P other) ↔ P item := by
    intro P
    constructor
    · rintro ⟨other, hother, hP⟩
      rwa [h.unique hother]
    · exact fun hP => ⟨item, h, hP⟩
  have hforall : ∀ P : Item → Prop, (∀ other, Sole rows property other → P other) ↔ P item := by
    intro P
    constructor
    · exact fun hP => hP item h
    · intro hP other hother
      rwa [← h.unique hother]
  have htwo : (∃ other bytes, Sole rows property other ∧ other.propertyValue = some bytes ∧ other.error = none ∧
      maxValueBytes < bytes.length) ↔
      ∃ bytes, item.propertyValue = some bytes ∧ item.error = none ∧ maxValueBytes < bytes.length := by
    constructor
    · rintro ⟨other, bytes, hother, hrest⟩
      obtain rfl := h.unique hother
      exact ⟨bytes, hrest⟩
    · rintro ⟨bytes, hrest⟩
      exact ⟨item, bytes, h, hrest⟩
  obtain ⟨identifier, arrayIndex, bytes?, error?⟩ := item
  constructor
  · intro bytes
    rw [hexists]
    rcases bytes? with _ | held <;> rcases error? with _ | ⟨class', code⟩ <;> simp only [itemOutcome, value_eq]
    · simp
    · simp
    · by_cases hlong : maxValueBytes < held.length
      · rw [if_pos hlong]
        simp only [reduceCtorEq, Option.some.injEq, true_and, false_iff, not_and, not_le]
        rintro rfl
        exact hlong
      · rw [if_neg hlong]
        simp only [PropertyOutcome.value.injEq, Option.some.injEq, true_and]
        constructor
        · rintro rfl
          exact ⟨rfl, Nat.le_of_not_lt hlong⟩
        · exact fun h => h.1
    · simp
  · intro class' code
    rw [hexists]
    rcases bytes? with _ | held <;> rcases error? with _ | ⟨kind, number⟩ <;> simp only [itemOutcome, value_eq]
    · simp
    · simp
    · split <;> simp
    · simp
  · rw [htwo]
    rcases bytes? with _ | held <;> rcases error? with _ | ⟨kind, number⟩ <;> simp only [itemOutcome, value_eq]
    · simp
    · simp
    · by_cases hlong : maxValueBytes < held.length
      · rw [if_pos hlong]
        exact ⟨fun _ => ⟨held, rfl, trivial, hlong⟩, fun _ => rfl⟩
      · rw [if_neg hlong]
        simp only [reduceCtorEq, Option.some.injEq, true_and, false_iff, not_exists, not_and]
        rintro bytes rfl
        exact hlong
    · simp
  · rw [hforall]
    rcases bytes? with _ | held <;> rcases error? with _ | ⟨kind, number⟩ <;> simp only [itemOutcome, value_eq]
    · simp
    · simp
    · split <;> simp
    · simp

theorem attributed_spec (rows : List Row) (property : Property) : Attributed rows property (attributed rows property) := by
  by_cases hsole : ∃ item, Sole rows property item
  · obtain ⟨item, hitem⟩ := hsole
    have houtcome : attributed rows property = itemOutcome item := by
      unfold attributed
      rw [matching_eq_singleton.2 hitem]
    rw [houtcome]
    exact attributed_of_sole hitem
  · have hnone : ∀ item, ¬ Sole rows property item := fun item hitem => hsole ⟨item, hitem⟩
    have houtcome : attributed rows property = .invalidReply := by
      unfold attributed
      split
      · rename_i item hmatching
        exact absurd (matching_eq_singleton.1 hmatching) (hnone item)
      · rfl
    rw [houtcome]
    constructor
    · intro bytes
      simp [hnone]
    · intro class' code
      simp [hnone]
    · simp [hnone]
    · simp [hnone]

/-! ### What the results depend on -/

/-- An item about one of the requested properties. -/
def Requested (properties : List Property) (item : Nat × Item) : Prop := ∃ property ∈ properties, About property item

instance (properties : List Property) : DecidablePred (Requested properties) := by
  intro item
  unfold Requested
  infer_instance

/-- The requested items decide, in any order. -/
theorem attributed_congr {rows rows' : List Row} {properties : List Property} {property : Property}
    (hproperty : property ∈ properties)
    (h : ((held rows).filter fun item => Requested properties item).Perm
      ((held rows').filter fun item => Requested properties item)) : attributed rows property = attributed rows' property := by
  have hfilter : ∀ rows : List Row, matching rows property =
      ((((held rows).filter fun item => Requested properties item).filter fun item => About property item).map Prod.snd) := by
    intro rows
    rw [matching_eq, List.filter_filter]
    refine congrArg (List.map Prod.snd) (List.filter_congr fun item _ => ?_)
    rw [Bool.eq_iff_iff, Bool.and_eq_true, decide_eq_true_eq, decide_eq_true_eq]
    exact ⟨fun habout => ⟨habout, property, hproperty, habout⟩, fun hboth => hboth.1⟩
  have hperm : (matching rows property).Perm (matching rows' property) := by
    rw [hfilter, hfilter]
    exact (h.filter _).map _
  unfold attributed
  rcases hmatching : matching rows property with _ | ⟨item, _ | ⟨second, rest⟩⟩
  · rw [hmatching] at hperm
    rw [hperm.nil_eq.symm]
  · rw [hmatching] at hperm
    rw [List.perm_singleton.1 hperm.symm]
  · rw [hmatching] at hperm
    rcases hother : matching rows' property with _ | ⟨item', _ | ⟨second', rest'⟩⟩
    · rfl
    · rw [hother] at hperm
      exact absurd hperm.length_eq (by simp)
    · rfl

theorem ackResults_congr {rows rows' : List Row} {properties : List Property}
    (hcount : maxProperties < itemCount rows ↔ maxProperties < itemCount rows')
    (h : ((held rows).filter fun item => Requested properties item).Perm
      ((held rows').filter fun item => Requested properties item)) :
    ackResults properties rows = ackResults properties rows' := by
  unfold ackResults
  by_cases hover : maxProperties < itemCount rows
  · rw [if_pos hover, if_pos (hcount.1 hover)]
  · rw [if_neg hover, if_neg fun hother => hover (hcount.2 hother)]
    refine List.map_congr_left fun property hproperty => ?_
    rw [attributed_congr hproperty h]

theorem ackResults_perm {rows rows' : List Row} (properties : List Property) (h : (held rows).Perm (held rows')) :
    ackResults properties rows = ackResults properties rows' := by
  refine ackResults_congr ?_ (h.filter _)
  rw [← length_held, ← length_held, h.length_eq]

/-- Rows in another order, or with their items in another order, hold the same items. -/
theorem held_perm_of_rows {rows rows' : List Row} (h : rows.Perm rows') : (held rows).Perm (held rows') := h.flatMap_right _

theorem held_perm_of_items {rows rows' : List Row} (h : List.Forall₂ (fun row row' =>
    row.objectIdentifier = row'.objectIdentifier ∧ row.listOfResults.Perm row'.listOfResults) rows rows') :
    (held rows).Perm (held rows') := by
  induction h with
  | nil => exact .nil
  | cons hrow _ ih =>
    obtain ⟨hobject, hitems⟩ := hrow
    unfold held at ih ⊢
    rw [List.flatMap_cons, List.flatMap_cons, hobject]
    exact (hitems.map _).append ih

theorem Request.readPropertyMultiple_eq_ok {properties : List Property} {request : Request}
    (h : Request.readPropertyMultiple properties = .ok request) :
    ∃ multiple : Multiple, request = .multiple multiple ∧ multiple.properties = properties := by
  unfold Request.readPropertyMultiple at h
  split at h
  · split at h
    · obtain rfl := Except.ok.inj h
      exact ⟨_, rfl, rfl⟩
    · exact nomatch h
  · exact nomatch h

/-- The results of a multiple read are those of its properties, in their order, each from the one item about it. -/
theorem attribution_exact {client : Client} {target : List UInt8} {properties : List Property} {request : Request}
    {rows : List Row} (hrequest : Request.readPropertyMultiple properties = .ok request)
    (hack : client.readPropertyMultiple target properties = .ok rows) :
    ∃ results, client.read target request = .bacnet ⟨target, results⟩ ∧ results.map PropertyResult.property = properties ∧
      (maxProperties < itemCount rows → ∀ result ∈ results, result.outcome = .oversized) ∧
      (itemCount rows ≤ maxProperties → ∀ result ∈ results, Attributed rows result.property result.outcome) ∧
      (∀ (client' : Client) (rows' : List Row), client'.readPropertyMultiple target properties = .ok rows' →
        itemCount rows ≤ maxProperties → itemCount rows' ≤ maxProperties →
          ((held rows).filter fun item => Requested properties item).Perm
            ((held rows').filter fun item => Requested properties item) →
              client'.read target request = .bacnet ⟨target, results⟩) ∧
      ∀ (client' : Client) (rows' moved : List Row), client'.readPropertyMultiple target properties = .ok rows' →
        rows.Perm moved → List.Forall₂ (fun row row' => row.objectIdentifier = row'.objectIdentifier ∧
          row.listOfResults.Perm row'.listOfResults) moved rows' → client'.read target request = .bacnet ⟨target, results⟩ := by
  obtain ⟨multiple, rfl, rfl⟩ := Request.readPropertyMultiple_eq_ok hrequest
  have hread : ∀ (client : Client) (rows : List Row), client.readPropertyMultiple target multiple.properties = .ok rows →
      client.read target (.multiple multiple) = .bacnet ⟨target, ackResults multiple.properties rows⟩ := by
    intro client rows hack
    show RawOutcome.bacnet ⟨target, match client.readPropertyMultiple target multiple.properties with
      | .error error => repeated multiple.properties (wireError error)
      | .ok rows => ackResults multiple.properties rows⟩ = _
    rw [hack]
  refine ⟨ackResults multiple.properties rows, hread client rows hack, ?_, ?_, ?_, ?_, ?_⟩
  · unfold ackResults repeated
    split <;> rw [List.map_map] <;> exact List.map_id _
  · intro hover result hresult
    unfold ackResults at hresult
    rw [if_pos hover] at hresult
    obtain ⟨property, -, rfl⟩ := List.mem_map.1 hresult
    rfl
  · intro hwithin result hresult
    unfold ackResults at hresult
    rw [if_neg (Nat.not_lt.2 hwithin)] at hresult
    obtain ⟨property, -, rfl⟩ := List.mem_map.1 hresult
    exact attributed_spec rows property
  · intro client' rows' hack' hwithin hwithin' hsame
    rw [hread client' rows' hack', ackResults_congr _ hsame]
    exact ⟨fun hover => absurd hover (Nat.not_lt.2 hwithin), fun hover => absurd hover (Nat.not_lt.2 hwithin')⟩
  · intro client' rows' moved hack' hrows hitems
    rw [hread client' rows' hack', ackResults_perm _ ((held_perm_of_rows hrows).trans (held_perm_of_items hitems))]

/-- A peer that answers one property of two, in a row of its own after one that was not asked for. -/
def oneAnswered : Client where
  readProperty _ _ := .error .timeout
  readPropertyMultiple _ _ := .ok [⟨9, [⟨85, none, some [1], none⟩]⟩, ⟨2, [⟨85, none, some [7], none⟩]⟩]
  whoIsDirected _ _ := .ok ()

theorem attribution_exact_two :
    ∃ results, oneAnswered.read [] (.multiple ⟨[⟨1, 85, none⟩, ⟨2, 85, none⟩], by decide, by decide⟩) =
      .bacnet ⟨[], results⟩ ∧ results.map PropertyResult.property = [⟨1, 85, none⟩, ⟨2, 85, none⟩] := by
  have hrequest : Request.readPropertyMultiple [⟨1, 85, none⟩, ⟨2, 85, none⟩] =
      .ok (.multiple ⟨[⟨1, 85, none⟩, ⟨2, 85, none⟩], by decide, by decide⟩) := by rfl
  obtain ⟨results, hread, hproperties, -⟩ := @attribution_exact oneAnswered [] _ _ _ hrequest rfl
  exact ⟨results, hread, hproperties⟩

end Verdant.Bacnet
