import Mathlib

/-!
# Work classes, refusals and slots

One budget covers startup, verification, acquisition and retained results.  A class has retained slots, for work that is
queued, running or completed, and running slots; capacity of one class is never lent to another.
-/

namespace Verdant.Work

inductive WorkClass where
  | currentSensing
  | reconciliation
  | optionalDiscovery
  deriving DecidableEq, Repr

/-- A refusal; a refusal of an owner keeps its stable code. -/
inductive RuntimeError where
  | disabled
  | notStopped
  | notRunning
  | ownerBusy
  | noAcceptance
  | noActivation
  | stale
  | deadline
  | cancelled
  | workerPanic
  | invalid (detail : String)
  | saturated (workClass : WorkClass) (running : Bool)
  | access (code : String)
  | binding (code : String)
  | accept (code : String)
  | api (code : String)
  | seal (code : String)
  | storage (code : String)
  | native (code : String)
  | bacnet (code : String)
  | io (code : Option Int)
  deriving DecidableEq, Repr

namespace RuntimeError

def code : RuntimeError → String
  | disabled => "runtime-disabled"
  | notStopped => "runtime-not-stopped"
  | notRunning => "runtime-not-running"
  | ownerBusy => "runtime-owner-busy"
  | noAcceptance => "runtime-no-acceptance"
  | noActivation => "runtime-no-activation"
  | stale => "runtime-stale-generation"
  | deadline => "runtime-deadline"
  | cancelled => "runtime-cancelled"
  | workerPanic => "runtime-worker-panic"
  | invalid _ => "runtime-invalid"
  | saturated _ _ => "runtime-saturated"
  | access code | binding code | accept code | api code | .seal code | storage code | bacnet code | native code => code
  | io _ => "runtime-io"

/-- The refusals of content or authority: they hold the runtime. -/
def holds : RuntimeError → Bool
  | stale | noAcceptance | noActivation | access _ | accept _ | .seal _ | api _ => true
  | _ => false

end RuntimeError

/-! ### Slots -/

def queueSlots : WorkClass → Nat
  | .currentSensing => 2
  | .reconciliation => 2
  | .optionalDiscovery => 60

def runningSlots : WorkClass → Nat
  | .currentSensing => 1
  | .reconciliation => 1
  | .optionalDiscovery => 2

/-- The bound of a counter: of the running slots, or of the retained ones. -/
def slots (running : Bool) (workClass : WorkClass) : Nat :=
  if running then runningSlots workClass else queueSlots workClass

/-- The longest lifetime of a job and the longest drain, in nanoseconds. -/
def maxLifetime : Nat := 35000000000
def maxDrain : Nat := 35000000000

/-- The counters: `used true` of running slots, `used false` of retained ones. -/
structure Budget where
  used : Bool → WorkClass → Nat

namespace Budget

def empty : Budget := ⟨fun _ _ => 0⟩

variable (budget : Budget)

def canRun (workClass : WorkClass) : Bool := budget.used true workClass < runningSlots workClass

/-- One more holder of a slot. -/
def take (running : Bool) (workClass : WorkClass) : Budget where
  used := fun r c => budget.used r c + if (running, workClass) = (r, c) then 1 else 0

def reserve (workClass : WorkClass) (running : Bool) : Except RuntimeError Budget :=
  if budget.used running workClass < slots running workClass then .ok (budget.take running workClass)
  else .error (.saturated workClass running)

/-- A holder is dropped. -/
def release (running : Bool) (workClass : WorkClass) : Budget where
  used := fun r c => budget.used r c - if (running, workClass) = (r, c) then 1 else 0

/-- A retained slot of each class of the list is dropped. -/
def releaseAll (classes : List WorkClass) : Budget := classes.foldl (fun budget c => budget.release false c) budget

@[simp]
theorem take_used (running r : Bool) (workClass c : WorkClass) : (budget.take running workClass).used r c =
    budget.used r c + if (running, workClass) = (r, c) then 1 else 0 := rfl

@[simp]
theorem release_used (running r : Bool) (workClass c : WorkClass) : (budget.release running workClass).used r c =
    budget.used r c - if (running, workClass) = (r, c) then 1 else 0 := rfl

@[simp]
theorem releaseAll_used (classes : List WorkClass) (r : Bool) (c : WorkClass) :
    (budget.releaseAll classes).used r c = budget.used r c - if r = false then classes.count c else 0 := by
  induction classes generalizing budget with
  | nil => simp [releaseAll]
  | cons workClass rest ih =>
    have hrest := ih (budget.release false workClass)
    unfold releaseAll at hrest ⊢
    rw [List.foldl_cons, hrest, release_used, List.count_cons]
    cases r with
    | true => simp
    | false =>
      by_cases hsame : workClass = c
      · simp only [hsame, if_true, beq_self_eq_true]
        omega
      · simp [hsame]

theorem reserve_ok {budget after : Budget} {workClass : WorkClass} {running : Bool}
    (h : budget.reserve workClass running = .ok after) :
    budget.used running workClass < slots running workClass ∧ after = budget.take running workClass := by
  unfold reserve at h
  split at h
  · rename_i hfree
    exact ⟨hfree, (Except.ok.inj h).symm⟩
  · exact nomatch h

end Budget

end Verdant.Work
