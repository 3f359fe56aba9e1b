import Verdant.Work.Delivery

/-!
# Protocol slots

A COV subscription and a Modbus connection each hold one retained sensing slot of the runtime they are admitted to.  The
runtime lists the slots that are not joined.  A Modbus permit joins its slot when it is dropped; a COV permit does not, and
`Subscription::open` joins it only where the client fails to start (`Subscribed.dropped_cov_stays`).  Where no COV permit
is lost that way, every slot comes back (`slots_released`).
-/

namespace Verdant.Work

variable {W : World}

/-! ### Slots -/

inductive Protocol where
  | cov
  | modbus
  deriving DecidableEq, Repr

/-- Who has the handle of a slot. -/
inductive Holder where
  | permit
  | opened
  | closed
  | nobody
  deriving DecidableEq, Repr

structure ProtocolSlot where
  protocol : Protocol
  holder : Holder
  joined : Bool
  /-- The slot stands in the list of the runtime. -/
  listed : Bool
  deriving DecidableEq, Repr

/-- Where `Subscription::open` or `Client::connect` ends. -/
inductive Opening where
  | exhausted
  | notCurrent
  | startFailed
  | opened
  deriving DecidableEq, Repr

/-- What happens to the handle of a slot. -/
inductive SlotMove where
  | dropPermit
  | openPermit (opening : Opening)
  | stop (succeeds : Bool)
  | dropOwner
  deriving DecidableEq, Repr

namespace ProtocolSlot

variable (slot : ProtocolSlot)

/-- The reservation of a COV slot goes with its last handle, the one of a Modbus slot with its join. -/
def retains : Bool :=
  match slot.protocol with
  | .cov => slot.listed || slot.holder ≠ .nobody
  | .modbus => !slot.joined

def finish : ProtocolSlot := { slot with joined := true }

/-- Only the permit of Modbus has a destructor. -/
def dropPermit : ProtocolSlot :=
  match slot.protocol with
  | .cov => { slot with holder := .nobody }
  | .modbus => { slot.finish with holder := .nobody }

/-- A client that does not start joins the slot before the permit is dropped. -/
def openPermit : Opening → ProtocolSlot
  | .exhausted | .notCurrent => slot.dropPermit
  | .startFailed => slot.finish.dropPermit
  | .opened => { slot with holder := .opened }

def move : SlotMove → ProtocolSlot
  | .dropPermit => if slot.holder = .permit then slot.dropPermit else slot
  | .openPermit opening => if slot.holder = .permit then slot.openPermit opening else slot
  | .stop succeeds =>
    if slot.holder = .opened ∧ succeeds = true then { slot.finish with holder := .closed } else slot
  | .dropOwner =>
    if slot.holder = .opened ∨ slot.holder = .closed then { slot with holder := .nobody } else slot

/-- `retain(|slot| !slot.joined())`. -/
def unlist : ProtocolSlot := if slot.joined then { slot with listed := false } else slot

end ProtocolSlot

/-! ### The runtime with its slots -/

structure Family (W : World) where
  book : Book W
  slots : List ProtocolSlot

/-- The calls of the runtime that are not about slots. -/
def Turn.ordinary : Turn W → Bool
  | .joinSubscriptions _ | .subscribe | .reserveOutside _ _ | .releaseOutside _ => false
  | _ => true

namespace Book

/-- Retained sensing slots are dropped. -/
def giveBack (b : Book W) : Nat → Book W
  | 0 => b
  | n + 1 => (b.turn (.releaseOutside (b.outside.idxOf (false, .currentSensing)))).giveBack n

end Book

namespace Family

variable (f : Family W)

/-- New slots; the reservations that no slot has any longer are dropped. -/
def become (slots : List ProtocolSlot) : Family W where
  book := f.book.giveBack (f.slots.countP ProtocolSlot.retains - slots.countP ProtocolSlot.retains)
  slots := slots

/-- Joined slots of a protocol leave the list of the runtime. -/
def purge (which : Protocol → Bool) : Family W :=
  let slots := f.slots.map fun slot => if which slot.protocol then slot.unlist else slot
  { f with book := f.book.turn (.joinSubscriptions
      (f.slots.countP ProtocolSlot.listed - slots.countP ProtocolSlot.listed)) }.become slots

/-- `admit_cov` and `admit_modbus`.  `checked` is the answer of the owners about content, generation and binding; a COV plan
is of a `single` property. -/
def admission (protocol : Protocol) (checked : Except RuntimeError Unit) (single : Bool) :
    Family W × Except RuntimeError Unit :=
  if f.book.runtime.state ≠ .runningInert then (f, .error .notRunning)
  else
    match checked with
    | .error e => (f, .error e)
    | .ok () =>
      let f := f.purge fun p => p = protocol
      if f.slots.any fun slot => slot.listed && slot.protocol = protocol then (f, .error (.saturated .currentSensing false))
      else if protocol = .cov ∧ single = false then (f, .error (.invalid "COV requires one bounded property"))
      else
        match f.book.runtime.budget.reserve .currentSensing false with
        | .error e => (f, .error e)
        | .ok _ =>
          (⟨(f.book.turn (.reserveOutside false .currentSensing)).turn .subscribe,
            f.slots ++ [⟨protocol, .permit, false, true⟩]⟩, .ok ())

end Family

inductive SlotEvent (W : World) where
  | call (turn : Turn W)
  /-- The beginning of `poll`. -/
  | purge
  | admission (protocol : Protocol) (checked : Except RuntimeError Unit) (single : Bool)
  | move (index : Nat) (move : SlotMove)

namespace Family

def step (f : Family W) : SlotEvent W → Family W
  | .call turn => if turn.ordinary then { f with book := f.book.turn turn } else f
  | .purge => f.purge fun _ => true
  | .admission protocol checked single => (f.admission protocol checked single).1
  | .move index move => f.become (f.slots.modify index fun slot => slot.move move)

def run (f : Family W) (events : List (SlotEvent W)) : Family W := events.foldl step f

def start (config : Option (Lease × TrustedScope)) (clock incarnations sources : Nat) : Family W :=
  ⟨.start config clock incarnations sources, []⟩

/-- The queued, running and completed items of a class. -/
def items (f : Family W) (running : Bool) (workClass : WorkClass) : Nat :=
  (if running then 0
    else (f.book.runtime.queue.map Queued.workClass).count workClass +
      (f.book.runtime.completed.map Completed.workClass).count workClass) +
    (f.book.runtime.running.map Running.workClass).count workClass

end Family

/-! ### Losing no permit -/

/-- No COV permit is dropped before its client was started, and no owner is dropped before it has stopped. -/
def SlotMove.keeps (slot : ProtocolSlot) : SlotMove → Bool
  | .dropPermit => slot.holder ≠ .permit || slot.protocol = .modbus
  | .openPermit opening =>
    slot.holder ≠ .permit || slot.protocol = .modbus || opening = .startFailed || opening = .opened
  | .stop _ => true
  | .dropOwner => slot.holder ≠ .opened

def SlotEvent.keeps (f : Family W) : SlotEvent W → Prop
  | .move index change => ∀ slot ∈ f.slots[index]?, change.keeps slot = true
  | _ => True

def Family.KeepsAll (f : Family W) : List (SlotEvent W) → Prop
  | [] => True
  | event :: events => event.keeps f ∧ (f.step event).KeepsAll events

/-- The handle of an admission that is over. -/
def Holder.over (holder : Holder) : Bool := holder = .closed ∨ holder = .nobody

/-- Nobody holds the slot, or a Modbus client that was shut down. -/
def ProtocolSlot.free (slot : ProtocolSlot) : Bool :=
  slot.holder = .nobody || (slot.protocol = .modbus && slot.holder = .closed)

/-! ### One slot -/

namespace ProtocolSlot

/-- A move gives up what it gives up for good, and joins the slot of an admission that is over if it keeps to the rules. -/
theorem move_spec (slot : ProtocolSlot) (change : SlotMove) :
    ((slot.move change).retains = true → slot.retains = true) ∧ (slot.move change).listed = slot.listed ∧
      (slot.joined = true → (slot.move change).joined = true) ∧
      (change.keeps slot = true → (slot.holder.over = true → slot.joined = true) →
        (slot.move change).holder.over = true → (slot.move change).joined = true) := by
  obtain ⟨protocol, holder, joined, listed⟩ := slot
  rcases change with _ | (_ | _ | _ | _) | (_ | _) | _ <;> cases protocol <;> cases holder <;> cases joined <;>
    cases listed <;> decide

/-- A joined slot leaves the list, and its reservation goes with it where nobody holds the slot. -/
theorem unlist_spec (slot : ProtocolSlot) :
    (slot.unlist.retains = true → slot.retains = true) ∧ (slot.unlist.listed = true → slot.listed = true) ∧
      ((slot.listed = false → slot.joined = true) → slot.unlist.listed = false → slot.unlist.joined = true) ∧
      slot.unlist.joined = slot.joined ∧ slot.unlist.holder = slot.holder ∧
      ((slot.holder.over = true → slot.joined = true) → slot.free = true →
        slot.unlist.listed = false ∧ slot.unlist.retains = false) := by
  obtain ⟨protocol, holder, joined, listed⟩ := slot
  cases protocol <;> cases holder <;> cases joined <;> cases listed <;> decide

end ProtocolSlot

/-! ### Counting -/

theorem countP_modify_le {α : Type} {p : α → Bool} {g : α → α} (h : ∀ a, p (g a) = true → p a = true) (l : List α)
    (index : Nat) : (l.modify index g).countP p ≤ l.countP p := by
  induction l generalizing index with
  | nil => simp
  | cons a l ih =>
    cases index with
    | zero =>
      rw [List.modify_zero_cons, List.countP_cons, List.countP_cons]
      by_cases hp : p (g a) = true
      · rw [if_pos hp, if_pos (h a hp)]
      · rw [if_neg hp]
        omega
    | succ index =>
      rw [List.modify_succ_cons, List.countP_cons, List.countP_cons]
      have := ih index
      omega

theorem countP_map_le {α : Type} {p : α → Bool} {g : α → α} (h : ∀ a, p (g a) = true → p a = true) (l : List α) :
    (l.map g).countP p ≤ l.countP p := by
  rw [List.countP_map]
  exact List.countP_mono_left fun a _ hp => h a hp

theorem giveBack_view (b : Book W) (n : Nat) (h : Lawful b.view) : Lawful (b.giveBack n).view := by
  induction n generalizing b with
  | zero => exact h
  | succ n ih => exact ih _ (h.turn _)

theorem turn_releaseOutside {b : Book W} {index : Nat} {running : Bool} {workClass : WorkClass}
    (h : b.outside[index]? = some (running, workClass)) :
    b.turn (.releaseOutside index) = { b with
      runtime := { b.runtime with budget := b.runtime.budget.release running workClass }
      outside := b.outside.eraseIdx index } := by
  simp only [Book.turn]
  rw [h]

/-- Slots that are there can be given back, and nothing else changes. -/
theorem giveBack_eq (b : Book W) {n : Nat} (h : n ≤ b.outside.count (false, .currentSensing)) :
    (∀ slot, (b.giveBack n).outside.count slot =
      b.outside.count slot - if slot = (false, .currentSensing) then n else 0) ∧
      ∃ budget, (b.giveBack n).runtime = { b.runtime with budget := budget } := by
  induction n generalizing b with
  | zero => exact ⟨fun slot => by unfold Book.giveBack; split <;> omega, b.runtime.budget, rfl⟩
  | succ n ih =>
    have hmem : (false, WorkClass.currentSensing) ∈ b.outside := List.count_pos_iff.1 (by omega)
    have hlt := List.idxOf_lt_length_of_mem hmem
    have hat : b.outside[b.outside.idxOf (false, .currentSensing)]? = some (false, .currentSensing) := by
      rw [List.getElem?_eq_getElem hlt, List.getElem_idxOf hlt]
    have hturn := turn_releaseOutside hat
    have hcount : ∀ slot, b.outside.count slot =
        (b.outside.eraseIdx (b.outside.idxOf (false, .currentSensing))).count slot +
          if (false, WorkClass.currentSensing) = slot then 1 else 0 := by
      intro slot
      have hone := count_eraseIdx id hat slot
      rwa [List.map_id, List.map_id] at hone
    have hless := hcount (false, .currentSensing)
    rw [if_pos rfl] at hless
    obtain ⟨hrest, budget, hruntime⟩ := ih (b.turn (.releaseOutside (b.outside.idxOf (false, .currentSensing))))
      (by rw [hturn]; simp only; omega)
    refine ⟨fun slot => ?_, budget, ?_⟩
    · show ((b.turn _).giveBack n).outside.count slot = _
      rw [hrest slot, hturn]
      have hslot := hcount slot
      by_cases hsame : slot = (false, .currentSensing)
      · rw [if_pos hsame.symm] at hslot
        rw [if_pos hsame, if_pos hsame]
        simp only
        omega
      · rw [if_neg (Ne.symm hsame)] at hslot
        rw [if_neg hsame, if_neg hsame]
        simp only
        omega
    · show ((b.turn _).giveBack n).runtime = _
      rw [hruntime, hturn]

/-! ### The other calls -/

namespace Runtime

theorem subscriptions_beginStart (r : Runtime W) (env : StartEnv W) :
    (r.beginStart env).1.subscriptions = r.subscriptions := by
  unfold beginStart
  repeat' (first | rfl | split | dsimp only)

theorem subscriptions_enqueue (r : Runtime W) (workClass : WorkClass) (key : String) (deadline delay : Nat)
    (admitted : Except RuntimeError Unit) :
    (r.enqueue workClass key deadline delay admitted).1.subscriptions = r.subscriptions := by
  unfold enqueue
  repeat' (first | rfl | split | dsimp only)

theorem subscriptions_dispatchNext (r : Runtime W) (delays : Nat → Nat) (spawned : Except (Option Int) W.Thread) :
    (r.dispatchNext delays spawned).1.subscriptions = r.subscriptions := by
  unfold dispatchNext
  repeat' (first | rfl | split | dsimp only)

theorem subscriptions_cancel (r : Runtime W) (id : WorkId) : (r.cancel id).1.subscriptions = r.subscriptions := by
  unfold cancel
  repeat' (first | rfl | split | dsimp only)

theorem subscriptions_takeResult (r : Runtime W) (id : WorkId) :
    (r.takeResult id).1.subscriptions = r.subscriptions := by
  unfold takeResult
  repeat' (first | rfl | split | dsimp only)

theorem subscriptions_complete (r : Runtime W) (job : Running W) (id : WorkId) (result : Except RuntimeError W.Envelope) :
    (r.complete job id result).subscriptions = r.subscriptions := by
  unfold complete drainHeld
  cases result with
  | ok raw => rfl
  | error e =>
    simp only []
    split <;> rfl

theorem subscriptions_deliver (r : Runtime W) (job : Running W) (result : Except RuntimeError (Output W)) :
    (r.deliver job result).subscriptions = r.subscriptions := by
  unfold deliver hold
  split
  all_goals first | rfl | exact subscriptions_complete _ _ _ _

theorem subscriptions_look (r : Runtime W) (index : Nat) (look : Look W) :
    (r.look index look).subscriptions = r.subscriptions := by
  unfold Runtime.look
  split
  · rfl
  simp only []
  split
  · rfl
  · unfold join
    simp only []
    split
    · rfl
    · rw [subscriptions_deliver]

theorem subscriptions_settle (r : Runtime W) : r.settle.subscriptions = r.subscriptions := by
  unfold settle
  split <;> rfl

theorem subscriptions_giveUp (r : Runtime W) : r.giveUp.subscriptions = r.subscriptions := by
  unfold giveUp
  split <;> rfl

end Runtime

theorem turn_ordinary (b : Book W) {turn : Turn W} (h : turn.ordinary = true) :
    (b.turn turn).outside = b.outside ∧ (b.turn turn).runtime.subscriptions = b.runtime.subscriptions := by
  cases turn with
  | joinSubscriptions | subscribe | reserveOutside | releaseOutside => cases h
  | beginStart env => exact ⟨rfl, b.runtime.subscriptions_beginStart env⟩
  | enqueue workClass key deadline delay admitted =>
    have hsame := b.runtime.subscriptions_enqueue workClass key deadline delay admitted
    simp only [Book.turn]
    generalize b.runtime.enqueue workClass key deadline delay admitted = answer at hsame ⊢
    obtain ⟨r, result⟩ := answer
    cases result with
    | error e => exact ⟨rfl, hsame⟩
    | ok id => exact ⟨rfl, hsame⟩
  | dispatchNext delays spawned => exact ⟨rfl, b.runtime.subscriptions_dispatchNext delays spawned⟩
  | cancel id => exact ⟨rfl, b.runtime.subscriptions_cancel id⟩
  | takeResult id =>
    have hsame := b.runtime.subscriptions_takeResult id
    simp only [Book.turn]
    generalize b.runtime.takeResult id = answer at hsame ⊢
    obtain ⟨r, result⟩ := answer
    cases result with
    | none => exact ⟨rfl, hsame⟩
    | some result => exact ⟨rfl, hsame⟩
  | look index look => exact ⟨rfl, b.runtime.subscriptions_look index look⟩
  | settle => exact ⟨rfl, b.runtime.subscriptions_settle⟩
  | giveUp =>
    refine ⟨rfl, ?_⟩
    simp only [Book.turn]
    split
    · exact b.runtime.subscriptions_giveUp
    · rfl
  | sealIntake | wait | work => exact ⟨rfl, rfl⟩

/-! ### The invariant -/

/-- The runtime counts the slots it lists, and its budget the reservations they keep. -/
structure SlotsKept (f : Family W) : Prop where
  lawful : Lawful f.book.view
  outside : ∀ slot, f.book.outside.count slot =
    if slot = (false, .currentSensing) then f.slots.countP ProtocolSlot.retains else 0
  subscriptions : f.book.runtime.subscriptions = f.slots.countP ProtocolSlot.listed
  unlisted : ∀ slot ∈ f.slots, slot.listed = false → slot.joined = true

/-- Every slot of an admission that is over is joined. -/
def Family.OverJoined (f : Family W) : Prop := ∀ slot ∈ f.slots, slot.holder.over = true → slot.joined = true

/-- Slots that keep no more than the old ones take their place. -/
theorem SlotsKept.become {f : Family W} (hlawful : Lawful f.book.view)
    (houtside : ∀ slot, f.book.outside.count slot =
      if slot = (false, .currentSensing) then f.slots.countP ProtocolSlot.retains else 0)
    {slots : List ProtocolSlot} (hless : slots.countP ProtocolSlot.retains ≤ f.slots.countP ProtocolSlot.retains)
    (hsubscriptions : f.book.runtime.subscriptions = slots.countP ProtocolSlot.listed)
    (hunlisted : ∀ slot ∈ slots, slot.listed = false → slot.joined = true) :
    SlotsKept (f.become slots) ∧ ∃ budget, (f.become slots).book.runtime = { f.book.runtime with budget := budget } := by
  have hthere : f.slots.countP ProtocolSlot.retains - slots.countP ProtocolSlot.retains ≤
      f.book.outside.count (false, .currentSensing) := by
    rw [houtside, if_pos rfl]
    omega
  obtain ⟨hcount, budget, hruntime⟩ := giveBack_eq f.book hthere
  refine ⟨⟨giveBack_view _ _ hlawful, fun slot => ?_, ?_, hunlisted⟩, budget, hruntime⟩
  · show (f.book.giveBack _).outside.count slot =
      if slot = (false, .currentSensing) then slots.countP ProtocolSlot.retains else 0
    rw [hcount, houtside]
    split <;> omega
  · unfold Family.become
    rw [hruntime]
    exact hsubscriptions

/-- The slots after a purge. -/
def purged (which : Protocol → Bool) (slot : ProtocolSlot) : ProtocolSlot :=
  if which slot.protocol then slot.unlist else slot

/-- What a purge does to one slot: it gives up nothing that is not joined. -/
theorem purged_spec (which : Protocol → Bool) (slot : ProtocolSlot) :
    ((purged which slot).retains = true → slot.retains = true) ∧ ((purged which slot).listed = true → slot.listed = true) ∧
      ((slot.listed = false → slot.joined = true) → (purged which slot).listed = false →
        (purged which slot).joined = true) ∧
      (purged which slot).joined = slot.joined ∧ (purged which slot).holder = slot.holder := by
  unfold purged
  split
  · obtain ⟨hretains, hlisted, hunlisted, hjoined, hholder, -⟩ := slot.unlist_spec
    exact ⟨hretains, hlisted, hunlisted, hjoined, hholder⟩
  · exact ⟨id, id, fun hunlisted hslot => hunlisted hslot, rfl, rfl⟩

theorem SlotsKept.purge {f : Family W} (h : SlotsKept f) (which : Protocol → Bool) :
    SlotsKept (f.purge which) ∧ ∃ budget subscriptions, (f.purge which).book.runtime =
      { f.book.runtime with budget := budget, subscriptions := subscriptions } := by
  have hretains : (f.slots.map (purged which)).countP ProtocolSlot.retains ≤ f.slots.countP ProtocolSlot.retains :=
    countP_map_le (fun slot => (purged_spec which slot).1) f.slots
  have hlisted : (f.slots.map (purged which)).countP ProtocolSlot.listed ≤ f.slots.countP ProtocolSlot.listed :=
    countP_map_le (fun slot => (purged_spec which slot).2.1) f.slots
  have hunlisted : ∀ slot ∈ f.slots.map (purged which), slot.listed = false → slot.joined = true := by
    intro slot hmem hslot
    obtain ⟨old, hold, rfl⟩ := List.mem_map.1 hmem
    exact (purged_spec which old).2.2.1 (h.unlisted old hold) hslot
  have hsubscriptions : f.book.runtime.subscriptions -
      (f.slots.countP ProtocolSlot.listed - (f.slots.map (purged which)).countP ProtocolSlot.listed) =
        (f.slots.map (purged which)).countP ProtocolSlot.listed := by
    rw [h.subscriptions]
    omega
  have hbecome := SlotsKept.become (f := { f with book := f.book.turn (.joinSubscriptions
    (f.slots.countP ProtocolSlot.listed - (f.slots.map (purged which)).countP ProtocolSlot.listed)) })
    (h.lawful.turn _) h.outside hretains hsubscriptions hunlisted
  obtain ⟨hkept, budget, hruntime⟩ := hbecome
  exact ⟨hkept, budget, _, hruntime⟩

theorem slots_purge (f : Family W) (which : Protocol → Bool) : (f.purge which).slots = f.slots.map (purged which) := rfl

theorem OverJoined.purge {f : Family W} (h : f.OverJoined) (which : Protocol → Bool) : (f.purge which).OverJoined := by
  intro slot hmem hover
  rw [slots_purge] at hmem
  obtain ⟨old, hold, rfl⟩ := List.mem_map.1 hmem
  obtain ⟨-, -, -, hjoined, hholder⟩ := purged_spec which old
  rw [hholder] at hover
  rw [hjoined]
  exact h old hold hover

/-! ### Admission -/

theorem turn_reserveOutside {b : Book W} {running : Bool} {workClass : WorkClass} {budget : Budget}
    (h : b.runtime.budget.reserve workClass running = .ok budget) :
    b.turn (.reserveOutside running workClass) = { b with
      runtime := { b.runtime with budget := budget }
      outside := b.outside ++ [(running, workClass)] } := by
  simp only [Book.turn]
  rw [h]

/-- What an admission does: nothing, a purge of its protocol, or one more slot after it. -/
theorem admit_cases (f : Family W) (protocol : Protocol) (checked : Except RuntimeError Unit) (single : Bool) :
    (∃ e, f.admission protocol checked single = (f, .error e)) ∨
      (∃ e, f.admission protocol checked single = (f.purge fun p => p = protocol, .error e)) ∨
      ∃ budget, f.book.runtime.state = .runningInert ∧
        (f.purge fun p => p = protocol).book.runtime.budget.reserve .currentSensing false = .ok budget ∧
        f.admission protocol checked single =
          (⟨((f.purge fun p => p = protocol).book.turn (.reserveOutside false .currentSensing)).turn .subscribe,
            (f.purge fun p => p = protocol).slots ++ [⟨protocol, .permit, false, true⟩]⟩, .ok ()) := by
  unfold Family.admission
  split
  · exact .inl ⟨_, rfl⟩
  rename_i hstate
  rw [ne_eq, not_not] at hstate
  cases checked with
  | error e => exact .inl ⟨e, rfl⟩
  | ok u =>
    dsimp only
    split
    · exact .inr (.inl ⟨_, rfl⟩)
    split
    · exact .inr (.inl ⟨_, rfl⟩)
    · cases hreserve : (f.purge fun p => p = protocol).book.runtime.budget.reserve .currentSensing false with
      | error e => exact .inr (.inl ⟨e, rfl⟩)
      | ok budget => exact .inr (.inr ⟨budget, hstate, rfl, rfl⟩)

theorem SlotsKept.admission {f : Family W} (h : SlotsKept f) (protocol : Protocol) (checked : Except RuntimeError Unit)
    (single : Bool) : SlotsKept (f.admission protocol checked single).1 := by
  rcases admit_cases f protocol checked single with ⟨e, heq⟩ | ⟨e, heq⟩ | ⟨budget, hstate, hreserve, heq⟩
  · rw [heq]
    exact h
  · rw [heq]
    exact (h.purge fun p => p = protocol).1
  · rw [heq]
    obtain ⟨hpurged, kept, subscriptions, hruntime⟩ := h.purge fun p => p = protocol
    generalize (f.purge fun p => p = protocol) = g at hreserve hpurged hruntime ⊢
    have hturn := turn_reserveOutside hreserve
    have hinert : g.book.runtime.state = .runningInert := by
      rw [hruntime]
      exact hstate
    have hsubscribe : (g.book.turn (.reserveOutside false .currentSensing)).turn .subscribe = { g.book with
        runtime := { g.book.runtime with budget := budget, subscriptions := g.book.runtime.subscriptions + 1 }
        outside := g.book.outside ++ [(false, .currentSensing)] } := by
      rw [hturn]
      simp only [Book.turn]
      rw [if_pos hinert]
    refine ⟨(hpurged.lawful.turn _).turn _, fun slot => ?_, ?_, ?_⟩
    · have hold := hpurged.outside slot
      simp only [hsubscribe, List.count_append, count_single, List.countP_append, List.countP_singleton]
      rw [hold]
      by_cases hslot : slot = (false, .currentSensing)
      · subst hslot
        cases protocol <;> rfl
      · rw [if_neg hslot, if_neg hslot, if_neg (Ne.symm hslot)]
    · have hold := hpurged.subscriptions
      simp only [hsubscribe, List.countP_append, List.countP_singleton]
      rw [hold]
      rfl
    · intro slot hmem hlisted
      rcases List.mem_append.1 hmem with hmem | hmem
      · exact hpurged.unlisted slot hmem hlisted
      · rw [List.mem_singleton.1 hmem] at hlisted
        cases hlisted

theorem OverJoined.admission {f : Family W} (h : f.OverJoined) (protocol : Protocol) (checked : Except RuntimeError Unit)
    (single : Bool) : (f.admission protocol checked single).1.OverJoined := by
  rcases admit_cases f protocol checked single with ⟨e, heq⟩ | ⟨e, heq⟩ | ⟨budget, -, -, heq⟩
  · rw [heq]
    exact h
  · rw [heq]
    exact OverJoined.purge h fun p => p = protocol
  · rw [heq]
    intro slot hmem hover
    rcases List.mem_append.1 hmem with hmem | hmem
    · exact OverJoined.purge h _ slot hmem hover
    · rw [List.mem_singleton.1 hmem] at hover
      cases hover

/-! ### Runs -/

theorem mem_modify_at {α : Type} {l : List α} {g : α → α} {index : Nat} {b : α} (h : b ∈ l.modify index g) :
    b ∈ l ∨ ∃ a ∈ l, l[index]? = some a ∧ b = g a := by
  obtain ⟨i, hi⟩ := List.mem_iff_getElem?.1 h
  rw [List.getElem?_modify] at hi
  cases hl : l[i]? with
  | none =>
    rw [hl] at hi
    cases hi
  | some a =>
    rw [hl] at hi
    by_cases hsame : index = i
    · subst hsame
      simp only [if_true, Option.map_eq_map, Option.map_some, Option.some.injEq] at hi
      exact .inr ⟨a, List.mem_of_getElem? hl, hl, hi.symm⟩
    · simp only [if_neg hsame, Option.map_eq_map, Option.map_some, Option.some.injEq] at hi
      exact .inl (hi ▸ List.mem_of_getElem? hl)

theorem SlotsKept.step {f : Family W} (h : SlotsKept f) (event : SlotEvent W) : SlotsKept (f.step event) := by
  cases event with
  | call turn =>
    simp only [Family.step]
    by_cases hordinary : turn.ordinary = true
    · rw [if_pos hordinary]
      obtain ⟨houtside, hsubscriptions⟩ := turn_ordinary f.book hordinary
      refine ⟨h.lawful.turn _, fun slot => ?_, ?_, h.unlisted⟩
      · simp only [houtside]
        exact h.outside slot
      · simp only [hsubscriptions]
        exact h.subscriptions
    · rw [if_neg hordinary]
      exact h
  | purge => exact (h.purge fun _ => true).1
  | admission protocol checked single => exact h.admission protocol checked single
  | move index change =>
    refine (SlotsKept.become h.lawful h.outside ?_ ?_ ?_).1
    · exact countP_modify_le (fun slot => (slot.move_spec change).1) _ _
    · rw [h.subscriptions]
      have hlisted : (f.slots.modify index fun slot => slot.move change).map ProtocolSlot.listed =
          f.slots.map ProtocolSlot.listed :=
        map_modify_same (f := fun slot : ProtocolSlot => slot.move change) (fun slot => (slot.move_spec change).2.1) _ _
      have hcount := congrArg (List.countP id) hlisted
      rw [List.countP_map, List.countP_map] at hcount
      exact hcount.symm
    · intro slot hmem hslot
      rcases mem_modify_at hmem with hold | ⟨old, hold, -, rfl⟩
      · exact h.unlisted slot hold hslot
      · rw [(old.move_spec change).2.1] at hslot
        exact (old.move_spec change).2.2.1 (h.unlisted old hold hslot)

theorem OverJoined.step {f : Family W} (h : f.OverJoined) {event : SlotEvent W} (hkeeps : event.keeps f) :
    (f.step event).OverJoined := by
  cases event with
  | call turn =>
    simp only [Family.step]
    split
    · exact h
    · exact h
  | purge => exact OverJoined.purge h fun _ => true
  | admission protocol checked single => exact OverJoined.admission h protocol checked single
  | move index change =>
    intro slot hmem hover
    rcases mem_modify_at hmem with hold | ⟨old, hold, hat, rfl⟩
    · exact h slot hold hover
    · exact (old.move_spec change).2.2.2 (hkeeps old hat) (h old hold) hover

theorem SlotsKept.run {f : Family W} (h : SlotsKept f) (events : List (SlotEvent W)) : SlotsKept (f.run events) := by
  induction events generalizing f with
  | nil => exact h
  | cons event events ih => exact ih (h.step event)

theorem OverJoined.run {f : Family W} (h : f.OverJoined) {events : List (SlotEvent W)} (hkeeps : f.KeepsAll events) :
    (f.run events).OverJoined := by
  induction events generalizing f with
  | nil => exact h
  | cons event events ih => exact ih (OverJoined.step h hkeeps.1) hkeeps.2

theorem kept_start (config : Option (Lease × TrustedScope)) (clock incarnations sources : Nat) :
    SlotsKept (Family.start config clock incarnations sources : Family W) where
  lawful := lawful_start config clock incarnations sources
  outside slot := by
    show 0 = _
    split <;> rfl
  subscriptions := by cases config <;> rfl
  unlisted _ hmem := absurd hmem List.not_mem_nil

/-! ### Release -/

/-- No slot is left: the counters are those of the items, and neither an admission nor a stop meets a slot. -/
structure Vacant (f : Family W) : Prop where
  unlisted : ∀ slot ∈ f.slots, slot.listed = false
  counters : ∀ running, f.book.runtime.budget.used running .currentSensing = f.items running .currentSensing
  admits : f.book.runtime.state = .runningInert → f.items false .currentSensing < queueSlots .currentSensing →
    ∀ protocol, (f.admission protocol (.ok ()) true).2 = .ok ()
  stops : f.book.runtime.running = [] → ∀ budget delay (env : PollEnv W) wait rounds, budget ≤ maxDrain → env.joined = 0 →
    (f.book.run ((Call.stop budget delay ((env, wait) :: rounds)).turns f.book)).runtime.state = .stopped

/-- Slots of admissions that are over are joined, each reservation is counted once, and with the last handle the next poll
leaves no slot. -/
structure Released (f : Family W) : Prop where
  joined : f.OverJoined
  counters : ∀ running, f.book.runtime.budget.used running .currentSensing =
    f.items running .currentSensing + if running = true then 0 else f.slots.countP ProtocolSlot.retains
  vacated : (∀ slot ∈ f.slots, slot.free = true) → Vacant (f.purge fun _ => true)

theorem SlotsKept.counters {f : Family W} (h : SlotsKept f) (running : Bool) :
    f.book.runtime.budget.used running .currentSensing =
      f.items running .currentSensing + if running = true then 0 else f.slots.countP ProtocolSlot.retains := by
  have hholders := h.lawful.accounted.holders running .currentSensing
  have houtside := h.outside (running, .currentSensing)
  unfold View.holders at hholders
  simp only [Book.view] at hholders
  rw [hholders, houtside]
  unfold Family.items
  cases running with
  | false => rfl
  | true => rfl

def ProtocolSlot.gone (slot : ProtocolSlot) : Prop := slot.listed = false ∧ slot.retains = false

theorem gone_purge {f : Family W} (h : ∀ slot ∈ f.slots, slot.gone) (which : Protocol → Bool) :
    ∀ slot ∈ (f.purge which).slots, slot.gone := by
  intro slot hmem
  rw [slots_purge] at hmem
  obtain ⟨old, hold, rfl⟩ := List.mem_map.1 hmem
  obtain ⟨hlisted, hretains⟩ := h old hold
  obtain ⟨hkeeps, hlists, -⟩ := purged_spec which old
  constructor
  · by_contra hstill
    rw [hlists (by simpa using hstill)] at hlisted
    cases hlisted
  · by_contra hstill
    rw [hkeeps (by simpa using hstill)] at hretains
    cases hretains

theorem SlotsKept.used_of_gone {f : Family W} (h : SlotsKept f) (hgone : ∀ slot ∈ f.slots, slot.gone) (running : Bool) :
    f.book.runtime.budget.used running .currentSensing = f.items running .currentSensing := by
  have hnone : f.slots.countP ProtocolSlot.retains = 0 := by
    rw [List.countP_eq_zero]
    intro slot hmem hretains
    rw [(hgone slot hmem).2] at hretains
    cases hretains
  rw [h.counters, hnone, ite_self, Nat.add_zero]

theorem SlotsKept.admits {f : Family W} (h : SlotsKept f) (hgone : ∀ slot ∈ f.slots, slot.gone)
    (hstate : f.book.runtime.state = .runningInert)
    (hitems : f.items false .currentSensing < queueSlots .currentSensing) (protocol : Protocol) :
    (f.admission protocol (.ok ()) true).2 = .ok () := by
  obtain ⟨hpurged, budget, subscriptions, hruntime⟩ := h.purge fun p => p = protocol
  have hleft := gone_purge hgone fun p => p = protocol
  unfold Family.admission
  rw [if_neg (not_not.2 hstate)]
  dsimp only
  have hany : ¬ (((f.purge fun p => p = protocol).slots.any fun slot =>
      slot.listed && slot.protocol = protocol) = true) := by
    intro hany
    obtain ⟨slot, hmem, hslot⟩ := List.any_eq_true.1 hany
    rw [(hleft slot hmem).1] at hslot
    cases hslot
  have hsame : (f.purge fun p => p = protocol).items false .currentSensing = f.items false .currentSensing := by
    unfold Family.items
    rw [hruntime]
  have hfree : (f.purge fun p => p = protocol).book.runtime.budget.used false .currentSensing <
      slots false .currentSensing := by
    rw [hpurged.used_of_gone hleft, hsame]
    exact hitems
  rw [if_neg hany, if_neg (by rintro ⟨-, h⟩; cases h)]
  unfold Budget.reserve
  rw [if_pos hfree]

/-- A stop joins at its first poll where nothing runs and no slot is listed. -/
theorem stop_joins {b : Book W} (hstate : b.runtime.state = .stopping) (hrunning : b.runtime.running = [])
    (hsubscriptions : b.runtime.subscriptions = 0) (deadline : Nat) {env : PollEnv W} (henv : env.joined = 0) (wait : Nat)
    (rounds : List (PollEnv W × Nat)) :
    (b.run (stopTurns deadline ((env, wait) :: rounds) b)).runtime.state = .stopped := by
  have hpoll : pollTurns env b.runtime = [.joinSubscriptions 0, .settle] := by
    unfold pollTurns
    rw [henv]
    simp only [Runtime.joinSubscriptions, hrunning, List.length_nil, lookTurns, List.nil_append, List.cons_append]
  have hafter : (b.run [.joinSubscriptions 0, .settle]).runtime = { b.runtime with state := .stopped } := by
    have hjoined : (b.runtime.joinSubscriptions 0).joined = true := by
      unfold Runtime.joined Runtime.joinSubscriptions
      rw [hrunning, hsubscriptions]
      rfl
    have hdraining : (b.runtime.joinSubscriptions 0).state.draining = true := by
      show b.runtime.state.draining = true
      rw [hstate]
      rfl
    show (b.runtime.joinSubscriptions 0).settle = _
    unfold Runtime.settle
    rw [if_pos ⟨hdraining, hjoined⟩]
    rfl
  have hdone : (b.run [.joinSubscriptions 0, .settle]).runtime.joined = true := by
    rw [hafter]
    unfold Runtime.joined
    rw [hrunning, hsubscriptions]
    rfl
  unfold stopTurns
  dsimp only
  rw [hpoll, if_pos hdone, hafter]

theorem SlotsKept.stops {f : Family W} (h : SlotsKept f) (hgone : ∀ slot ∈ f.slots, slot.gone)
    (hrunning : f.book.runtime.running = []) {budget delay : Nat} {env : PollEnv W} {wait : Nat}
    {rounds : List (PollEnv W × Nat)} (hbudget : budget ≤ maxDrain) (henv : env.joined = 0) :
    (f.book.run ((Call.stop budget delay ((env, wait) :: rounds)).turns f.book)).runtime.state = .stopped := by
  have hsubscriptions : f.book.runtime.subscriptions = 0 := by
    rw [h.subscriptions, List.countP_eq_zero]
    intro slot hmem hlisted
    rw [(hgone slot hmem).1] at hlisted
    cases hlisted
  simp only [Call.turns]
  rw [if_neg (Nat.not_lt.2 hbudget)]
  rw [Book.run_cons, Book.run_cons]
  refine stop_joins (b := (f.book.turn .sealIntake).turn (.wait delay)) rfl ?_ hsubscriptions _ henv wait rounds
  show f.book.runtime.running.map Running.cancel = []
  rw [hrunning]
  rfl

theorem SlotsKept.released {f : Family W} (h : SlotsKept f) (hjoined : f.OverJoined) : Released f where
  joined := hjoined
  counters := h.counters
  vacated hfree := by
    have hgone : ∀ slot ∈ (f.purge fun _ => true).slots, slot.gone := by
      intro slot hmem
      rw [slots_purge] at hmem
      obtain ⟨old, hold, rfl⟩ := List.mem_map.1 hmem
      exact old.unlist_spec.2.2.2.2.2 (hjoined old hold) (hfree old hold)
    have hkept := (h.purge fun _ => true).1
    exact ⟨fun slot hmem => (hgone slot hmem).1, hkept.used_of_gone hgone, hkept.admits hgone,
      fun hrunning _ _ _ _ _ hbudget henv => hkept.stops hgone hrunning hbudget henv⟩

/-- In every run in which no COV permit is lost before its client starts and no open owner is dropped, all slots come back. -/
theorem slots_released (config : Option (Lease × TrustedScope)) (clock incarnations sources : Nat)
    (events : List (SlotEvent W)) (hkeeps : (Family.start config clock incarnations sources).KeepsAll events) :
    Released ((Family.start config clock incarnations sources).run events) := by
  have hstart : (Family.start config clock incarnations sources : Family W).OverJoined :=
    fun _ hmem => absurd hmem List.not_mem_nil
  exact ((kept_start config clock incarnations sources).run events).released (OverJoined.run hstart hkeeps)

/-! ### A lost permit -/

namespace Subscribed

theorem scope_valid : IsId "scope-a" := by decide

/-- A runtime that looks at nothing. -/
def world : World where
  Owners := Unit
  Selection := Unit
  Credential := Unit
  Envelope := Unit
  Thread := Unit
  entry _ _ := none

def started : Family world := .start (some (⟨"app.db", "native"⟩, ⟨"scope-a", scope_valid⟩)) 0 0 0

/-- The start is joined, and the runtime runs. -/
def running : List (SlotEvent world) :=
  [.call (.beginStart ⟨0, 0, 0, .ok ()⟩), .call (.look 0 ⟨0, some (.ok (.started () (.ok ()) () ⟨0⟩)), 0⟩)]

/-- A COV permit is dropped unused. -/
def lost : List (SlotEvent world) := running ++ [.admission .cov (.ok ()) true, .move 0 .dropPermit, .purge]

/-- A subscription is opened, stopped and dropped, and a Modbus permit is dropped unused. -/
def closed : List (SlotEvent world) :=
  running ++ [.admission .cov (.ok ()) true, .move 0 (.openPermit .opened), .move 0 (.stop true), .move 0 .dropOwner,
    .admission .modbus (.ok ()) true, .move 1 .dropPermit, .purge]

/-- The slots come back from a subscription that was stopped and a Modbus permit that was dropped. -/
theorem slots_released_closed :
    started.KeepsAll closed ∧ Released (started.run closed) :=
  have hkeeps : started.KeepsAll closed := by
    refine ⟨trivial, trivial, trivial, ?_, ?_, ?_, trivial, ?_, trivial, trivial⟩
    all_goals
      intro slot hslot
      cases hslot
      rfl
  ⟨hkeeps, slots_released _ _ _ _ closed hkeeps⟩

/-- A COV permit that is dropped unused leaves its slot: nobody holds it, it is not joined, one reservation stays with no
item, the next subscription is refused, and a stop ends unresolved. -/
theorem dropped_cov_stays :
    (started.run lost).slots = [⟨.cov, .nobody, false, true⟩] ∧
      (started.run lost).book.runtime.budget.used false .currentSensing = 1 ∧
      (started.run lost).items false .currentSensing = 0 ∧
      ((started.run lost).admission .cov (.ok ()) true).2 = .error (.saturated .currentSensing false) ∧
      ((started.run lost).book.run ((Call.stop 0 0 [(⟨0, fun _ => ⟨0, none, 0⟩⟩, 0)]).turns
        (started.run lost).book)).runtime.state = .unresolved ∧
      ¬ Released (started.run lost) := by
  have hslots : (started.run lost).slots = [⟨.cov, .nobody, false, true⟩] := rfl
  refine ⟨hslots, rfl, rfl, rfl, rfl, fun h => ?_⟩
  have hjoined := h.joined ⟨.cov, .nobody, false, true⟩ (by rw [hslots]; exact List.mem_singleton_self _) rfl
  cases hjoined

end Subscribed

end Verdant.Work
