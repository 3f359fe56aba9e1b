import Verdant.Binding.Registry

/-!
# The binding ledger

The binding history as a list of entries, what one committed row adds to it (`Commit`), and the ledgers that commits reach
from the empty one.  What a replay gives is `memoryOf` of the ledger; each lookup of the memory is a statement about the
entries (`installed_iff`, `points_eq_some`, `retired_iff`), and from these every reachable ledger is `Sound`.
-/

namespace Verdant.Binding

open TextCodec Storage

/-- The memory a replay of the entries gives. -/
def memoryOf (log : List Entry) : Memory := log.foldl (fun memory e => memory.replay e.event) .empty

@[simp]
theorem memoryOf_nil : memoryOf [] = .empty := rfl

@[simp]
theorem memoryOf_concat (log : List Entry) (e : Entry) : memoryOf (log ++ [e]) = (memoryOf log).replay e.event := by
  unfold memoryOf
  rw [List.foldl_append]
  rfl

/-! ### Entries by kind -/

namespace Event

def installed? : Event → Option String
  | .equipment record => some record.id.text
  | .space record => some record.id.text
  | .source record => some record.id.text
  | _ => none

def point? : Event → Option PointRecord
  | .point record => some record
  | _ => none

def retired? : Event → Option String
  | .retire id _ => some id
  | _ => none

def proposal? : Event → Option ProposedBinding
  | .propose binding => some binding
  | _ => none

/-- A finding does not advance the revision. -/
def isFinding : Event → Bool
  | .finding _ => true
  | _ => false

/-- The outbox operation of the event's row. -/
def operationText : Event → String
  | .equipment _ => opEquipmentText
  | .space _ => opSpaceText
  | .source _ => opSourceText
  | .point _ => opPointText
  | .propose _ => opProposeText
  | .retire _ _ => opRetireText
  | .finding _ => opFindingText

end Event

/-- The key of a recorded point. -/
def PointRecord.key (point : PointRecord) : String := pointKey point.equipment.text point.property.text

def ProposedBinding.key (binding : ProposedBinding) : String :=
  pointKey binding.pointEquipment.text binding.pointProperty.text

def eventsOf (log : List Entry) : List Event := log.map Entry.event
def installedOf (log : List Entry) : List String := (eventsOf log).filterMap Event.installed?
def pointsOf (log : List Entry) : List PointRecord := (eventsOf log).filterMap Event.point?
def retiredOf (log : List Entry) : List String := (eventsOf log).filterMap Event.retired?
def proposalsOf (log : List Entry) : List ProposedBinding := (eventsOf log).filterMap Event.proposal?

/-- The number of rows that advanced the revision. -/
def evolutions (log : List Entry) : Nat := ((eventsOf log).filter fun e => !e.isFinding).length

section Append

variable (a b : List Entry)

@[simp] theorem eventsOf_append : eventsOf (a ++ b) = eventsOf a ++ eventsOf b := List.map_append
@[simp] theorem installedOf_append : installedOf (a ++ b) = installedOf a ++ installedOf b := by simp [installedOf]
@[simp] theorem pointsOf_append : pointsOf (a ++ b) = pointsOf a ++ pointsOf b := by simp [pointsOf]
@[simp] theorem retiredOf_append : retiredOf (a ++ b) = retiredOf a ++ retiredOf b := by simp [retiredOf]
@[simp] theorem proposalsOf_append : proposalsOf (a ++ b) = proposalsOf a ++ proposalsOf b := by simp [proposalsOf]

end Append

theorem mem_pointsOf {log : List Entry} {p : PointRecord} : p ∈ pointsOf log ↔ ∃ e ∈ log, e.event = .point p := by
  unfold pointsOf eventsOf
  simp only [List.mem_filterMap, List.mem_map]
  constructor
  · rintro ⟨event, ⟨e, he, rfl⟩, hp⟩
    refine ⟨e, he, ?_⟩
    cases hevent : e.event with
    | point record =>
      rw [hevent] at hp
      obtain rfl := Option.some.inj hp
      rfl
    | equipment _ | space _ | source _ | propose _ | finding _ =>
      rw [hevent] at hp
      exact nomatch hp
    | retire _ _ =>
      rw [hevent] at hp
      exact nomatch hp
  · rintro ⟨e, he, hevent⟩
    exact ⟨_, ⟨e, he, rfl⟩, by rw [hevent]; rfl⟩

/-! ### What the memory holds -/

section Lookups

variable (log : List Entry)

theorem put_isSome {α : Type} (key : String) (value : α) (map : String → Option α) (k : String) :
    (put key value map k).isSome = (decide (k = key) || (map k).isSome) := by
  unfold put
  by_cases hk : k = key
  · simp [hk]
  · simp [hk]

/-- An event installs at most its own identity. -/
theorem installed_replay (memory : Memory) (e : Event) (id : String) :
    (memory.replay e).installed id = (memory.installed id || decide (e.installed? = some id)) := by
  have hflip : ∀ record : String, decide (id = record) = decide (some record = some id) := by
    intro record
    by_cases h : id = record
    · simp [h]
    · have h' : ¬ record = id := fun heq => h heq.symm
      simp [h, h']
  cases e with
  | equipment record =>
    simp only [Memory.replay, Memory.replayEquipment, Memory.installed, Memory.bumpRevision, put_isSome,
      Event.installed?, hflip]
    cases (memory.equipment id).isSome <;> cases (memory.spaces id).isSome <;> cases (memory.sources id).isSome <;> simp
  | space record =>
    simp only [Memory.replay, Memory.replaySpace, Memory.installed, Memory.bumpRevision, put_isSome,
      Event.installed?, hflip]
    cases (memory.equipment id).isSome <;> cases (memory.spaces id).isSome <;> cases (memory.sources id).isSome <;> simp
  | source record =>
    simp only [Memory.replay, Memory.replaySource, Memory.installed, Memory.bumpRevision, put_isSome,
      Event.installed?, hflip]
    cases (memory.equipment id).isSome <;> cases (memory.spaces id).isSome <;> cases (memory.sources id).isSome <;> simp
  | point record => simp [Memory.replay, Memory.replayPoint, Memory.installed, Memory.bumpRevision, Event.installed?]
  | propose binding => simp [Memory.replay, Memory.replayPropose, Memory.installed, Memory.bumpRevision, Event.installed?]
  | retire id' address => simp [Memory.replay, Memory.replayRetire, Memory.installed, Memory.bumpRevision, Event.installed?]
  | finding finding => simp [Memory.replay, Memory.replayFinding, Memory.installed, Event.installed?]

theorem installed_iff {id : String} : (memoryOf log).installed id = true ↔ id ∈ installedOf log := by
  induction log using List.reverseRecOn with
  | nil => simp [Memory.installed, Memory.empty, installedOf, eventsOf]
  | append_singleton log e ih =>
    rw [memoryOf_concat, installed_replay, Bool.or_eq_true, ih, installedOf_append, List.mem_append]
    have hlast : decide (e.event.installed? = some id) = true ↔ id ∈ installedOf [e] := by
      unfold installedOf eventsOf
      simp
    rw [hlast]

theorem points_replay (memory : Memory) (e : Event) :
    (memory.replay e).points = match e.point? with
      | some p => put p.key p memory.points
      | none => memory.points := by
  cases e <;> rfl

theorem points_eq_some {key : String} {p : PointRecord} (h : (memoryOf log).points key = some p) :
    p ∈ pointsOf log ∧ p.key = key := by
  induction log using List.reverseRecOn with
  | nil => exact nomatch h
  | append_singleton log e ih =>
    rw [memoryOf_concat, points_replay] at h
    rw [pointsOf_append, List.mem_append]
    cases he : e.event.point? with
    | none =>
      rw [he] at h
      obtain ⟨hmem, hkey⟩ := ih h
      exact ⟨.inl hmem, hkey⟩
    | some q =>
      rw [he] at h
      simp only [put] at h
      by_cases hk : key = q.key
      · rw [if_pos hk] at h
        obtain rfl := Option.some.inj h
        refine ⟨.inr ?_, hk.symm⟩
        unfold pointsOf eventsOf
        simp [he]
      · rw [if_neg hk] at h
        obtain ⟨hmem, hkey⟩ := ih h
        exact ⟨.inl hmem, hkey⟩

theorem points_isSome {p : PointRecord} (h : p ∈ pointsOf log) : ((memoryOf log).points p.key).isSome = true := by
  induction log using List.reverseRecOn with
  | nil => exact nomatch h
  | append_singleton log e ih =>
    rw [memoryOf_concat, points_replay]
    rw [pointsOf_append, List.mem_append] at h
    cases he : e.event.point? with
    | none =>
      have hnone : pointsOf [e] = [] := by
        unfold pointsOf eventsOf
        simp [he]
      rw [hnone] at h
      exact ih (h.resolve_right fun hmem => nomatch hmem)
    | some q =>
      simp only
      rw [put_isSome, Bool.or_eq_true]
      rcases h with h | h
      · exact .inr (ih h)
      · refine .inl ?_
        have hsome : pointsOf [e] = [q] := by
          unfold pointsOf eventsOf
          simp [he]
        rw [hsome, List.mem_singleton] at h
        simp [h]

theorem retired_replay (memory : Memory) (e : Event) (id : String) :
    id ∈ (memory.replay e).retired ↔ id ∈ memory.retired ∨ e.retired? = some id := by
  cases e with
  | retire id' address =>
    simp only [Memory.replay, Memory.replayRetire, Memory.bumpRevision, Finset.mem_insert, Event.retired?,
      Option.some.injEq]
    constructor
    · rintro (rfl | h)
      · exact .inr rfl
      · exact .inl h
    · rintro (h | rfl)
      · exact .inr h
      · exact .inl rfl
  | equipment record =>
    simp [Memory.replay, Memory.replayEquipment, Memory.bumpRevision, Event.retired?]
  | space record => simp [Memory.replay, Memory.replaySpace, Memory.bumpRevision, Event.retired?]
  | source record => simp [Memory.replay, Memory.replaySource, Memory.bumpRevision, Event.retired?]
  | point record => simp [Memory.replay, Memory.replayPoint, Memory.bumpRevision, Event.retired?]
  | propose binding => simp [Memory.replay, Memory.replayPropose, Memory.bumpRevision, Event.retired?]
  | finding finding => simp [Memory.replay, Memory.replayFinding, Event.retired?]

theorem retired_iff {id : String} : id ∈ (memoryOf log).retired ↔ id ∈ retiredOf log := by
  induction log using List.reverseRecOn with
  | nil => simp [Memory.empty, retiredOf, eventsOf]
  | append_singleton log e ih =>
    rw [memoryOf_concat, retired_replay, ih, retiredOf_append, List.mem_append]
    have hlast : e.event.retired? = some id ↔ id ∈ retiredOf [e] := by
      unfold retiredOf eventsOf
      simp
    rw [hlast]

/-- The revision advances by one with every event but a finding, and stops at the largest. -/
theorem revision_replay (memory : Memory) (e : Event) :
    (memory.replay e).revision =
      if e.isFinding then memory.revision else ⟨(checkedSucc memory.revision.value).getD memory.revision.value⟩ := by
  cases e <;> rfl

end Lookups

/-! ### Commits -/

/-- A proposal resolved against the memory. -/
structure Resolves (memory : Memory) (binding : ProposedBinding) : Prop where
  active : binding.pointEquipment.text ∉ memory.retired
  settled : binding.pointEquipment.text ∉ memory.reassessment
  point : ∃ p, memory.points binding.key = some p ∧ binding.pointScope = p.scope ∧ binding.unit.asStr = p.unit.asStr ∧
    binding.endpointClass = p.endpointClass

/-- What the memory lets a row say. -/
def Allowed (memory : Memory) : Event → Prop
  | .equipment record => memory.installed record.id.text = false
  | .space record => memory.installed record.id.text = false
  | .source record => memory.installed record.id.text = false
  | .point record => memory.points record.key = none
  | .propose binding => Resolves memory binding
  | .retire id _ => (memory.equipment id).isSome = true ∧ id ∉ memory.retired
  | .finding _ => True

/-- What one row adds to the ledger it was written on. -/
structure Commit (log : List Entry) (e : Entry) : Prop where
  revision : e.revision = (memoryOf log).revision
  room : e.event.isFinding = false → (memoryOf log).revision.value.toNat ≠ 2 ^ 32 - 1
  fresh : ∀ d ∈ log, d.operation ≠ e.operation
  allowed : Allowed (memoryOf log) e.event

/-- The ledgers that commits lead to. -/
inductive Reachable : List Entry → Prop
  | empty : Reachable []
  | commit {log : List Entry} {e : Entry} (before : Reachable log) (step : Commit log e) : Reachable (log ++ [e])

/-- What every ledger keeps. -/
structure Sound (log : List Entry) : Prop where
  /-- Each row stores the number of rows before it that are no findings. -/
  revisions : ∀ a e b, log = a ++ e :: b → e.revision.value.toNat = evolutions a
  installed : (installedOf log).Nodup
  points : ((pointsOf log).map PointRecord.key).Nodup
  retirements : (retiredOf log).Nodup
  operations : (log.map Entry.operation).Nodup
  /-- A proposal targets equipment in service, settled, at a point recorded before it. -/
  targets : ∀ a e b binding, log = a ++ e :: b → e.event = .propose binding → Resolves (memoryOf a) binding

theorem evolutions_concat (log : List Entry) (e : Entry) :
    evolutions (log ++ [e]) = evolutions log + if e.event.isFinding then 0 else 1 := by
  unfold evolutions
  rw [eventsOf_append, List.filter_append, List.length_append]
  cases h : e.event.isFinding <;> simp [eventsOf, h]

theorem Reachable.revision {log : List Entry} (h : Reachable log) :
    (memoryOf log).revision.value.toNat = evolutions log := by
  induction h with
  | empty => rfl
  | @commit log e before step ih =>
    rw [memoryOf_concat, revision_replay, evolutions_concat]
    by_cases hfinding : e.event.isFinding = true
    · rw [if_pos hfinding, if_pos hfinding, ih]
      rfl
    · rw [if_neg hfinding, if_neg hfinding]
      have hroom := step.room (by simpa using hfinding)
      have hlt := (memoryOf log).revision.value.toNat_lt
      have hsucc : checkedSucc (memoryOf log).revision.value = some ((memoryOf log).revision.value + 1) := by
        unfold checkedSucc
        rw [if_pos (by omega)]
      have hnext := toNat_of_checkedSucc hsucc
      rw [hsucc, Option.getD_some, hnext, ih]

theorem nodup_concat_option {xs : List String} {x : Option String} (h : xs.Nodup) (hx : ∀ y ∈ x, y ∉ xs) :
    (xs ++ x.toList).Nodup := by
  cases x with
  | none => simpa using h
  | some y =>
    rw [Option.toList_some, List.nodup_append]
    refine ⟨h, List.nodup_singleton _, ?_⟩
    intro a ha b hb
    rw [List.mem_singleton.1 hb]
    rintro rfl
    exact hx _ rfl ha

theorem filterMap_single {α : Type} (f : Event → Option α) (e : Entry) :
    (eventsOf [e]).filterMap f = (f e.event).toList := by
  unfold eventsOf
  cases h : f e.event <;> simp [h]

theorem Sound.empty : Sound [] where
  revisions a e b h := by simp at h
  installed := List.nodup_nil
  points := List.nodup_nil
  retirements := List.nodup_nil
  operations := List.nodup_nil
  targets a e b binding h := by simp at h

/-- One commit keeps a sound ledger sound. -/
theorem Sound.commit {log : List Entry} {e : Entry} (hlog : Reachable log) (h : Sound log) (step : Commit log e) :
    Sound (log ++ [e]) where
  revisions a d b hsplit := by
    rcases Ledger.split_concat hsplit with ⟨rfl, rfl, rfl⟩ | ⟨c, rfl, hlog'⟩
    · rw [step.revision]
      exact hlog.revision
    · exact h.revisions a d c hlog'
  installed := by
    rw [installedOf_append]
    have hlast : installedOf [e] = e.event.installed?.toList := filterMap_single _ e
    rw [hlast]
    refine nodup_concat_option h.installed ?_
    intro id hid hmem
    have hin := (installed_iff log).2 hmem
    have hallowed := step.allowed
    cases hevent : e.event with
    | equipment record =>
      rw [hevent] at hid hallowed
      obtain rfl := Option.some.inj hid
      exact nomatch hin.symm.trans hallowed
    | space record =>
      rw [hevent] at hid hallowed
      obtain rfl := Option.some.inj hid
      exact nomatch hin.symm.trans hallowed
    | source record =>
      rw [hevent] at hid hallowed
      obtain rfl := Option.some.inj hid
      exact nomatch hin.symm.trans hallowed
    | point _ | propose _ | finding _ =>
      rw [hevent] at hid
      exact nomatch hid
    | retire _ _ =>
      rw [hevent] at hid
      exact nomatch hid
  points := by
    rw [pointsOf_append]
    have hlast : pointsOf [e] = e.event.point?.toList := filterMap_single _ e
    have hmap : e.event.point?.toList.map PointRecord.key = (e.event.point?.map PointRecord.key).toList := by
      cases e.event.point? <;> rfl
    rw [hlast, List.map_append, hmap]
    refine nodup_concat_option h.points ?_
    intro key hkey hmem
    obtain ⟨p, hp, rfl⟩ := Option.map_eq_some_iff.1 hkey
    obtain ⟨q, hq, hsame⟩ := List.mem_map.1 hmem
    have hsome := points_isSome log hq
    rw [hsame] at hsome
    have hallowed := step.allowed
    cases hevent : e.event with
    | point record =>
      rw [hevent] at hp hallowed
      obtain rfl := Option.some.inj hp
      have hnone : (memoryOf log).points record.key = none := hallowed
      rw [hnone] at hsome
      exact nomatch hsome
    | equipment _ | space _ | source _ | propose _ | finding _ =>
      rw [hevent] at hp
      exact nomatch hp
    | retire _ _ =>
      rw [hevent] at hp
      exact nomatch hp
  retirements := by
    rw [retiredOf_append]
    have hlast : retiredOf [e] = e.event.retired?.toList := filterMap_single _ e
    rw [hlast]
    refine nodup_concat_option h.retirements ?_
    intro id hid hmem
    have hin := (retired_iff log).2 hmem
    have hallowed := step.allowed
    cases hevent : e.event with
    | retire id' address =>
      rw [hevent] at hid hallowed
      obtain rfl := Option.some.inj hid
      exact hallowed.2 hin
    | equipment _ | space _ | source _ | point _ | propose _ | finding _ =>
      rw [hevent] at hid
      exact nomatch hid
  operations := by
    rw [List.map_append, List.map_singleton, List.nodup_append]
    refine ⟨h.operations, List.nodup_singleton _, ?_⟩
    intro a ha b hb
    obtain ⟨d, hd, rfl⟩ := List.mem_map.1 ha
    rw [List.mem_singleton.1 hb]
    exact step.fresh d hd
  targets a d b binding hsplit hbinding := by
    rcases Ledger.split_concat hsplit with ⟨rfl, rfl, rfl⟩ | ⟨c, rfl, hlog'⟩
    · have hallowed := step.allowed
      rw [hbinding] at hallowed
      exact hallowed
    · exact h.targets a d c binding hlog' hbinding

theorem Reachable.sound {log : List Entry} (h : Reachable log) : Sound log := by
  induction h with
  | empty => exact Sound.empty
  | commit before step ih => exact ih.commit before step

/-- The last entry of a reachable ledger was committed to the entries before it. -/
theorem Reachable.last {log : List Entry} {e : Entry} (h : Reachable (log ++ [e])) : Commit log e := by
  generalize hall : log ++ [e] = all at h
  cases h with
  | empty => exact absurd hall (by simp)
  | commit before step =>
    obtain ⟨rfl, hlast⟩ := List.append_inj' hall rfl
    cases hlast
    exact step

/-- What comes before a prefix of a reachable ledger is reachable. -/
theorem Reachable.of_prefix {log front : List Entry} (h : Reachable log) (hfront : front <+: log) : Reachable front := by
  induction h with
  | empty =>
    obtain rfl := List.prefix_nil.1 hfront
    exact .empty
  | @commit log e before step ih =>
    rcases List.prefix_concat_iff.1 hfront with rfl | hshort
    · exact .commit before step
    · exact ih hshort

end Verdant.Binding
