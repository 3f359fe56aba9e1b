import Verdant.Action.Pages
import Verdant.Action.TargetCas

/-!
# Paged scans

A scan reads one page after the other, each at the offset of what it returned so far, until a page is empty.  A page
is read alone; between two pages the other callers of the journal issue their operations, so a call that has read
before a page can write after it.  A failed read leaves the scan where it was.
-/

namespace Verdant.Action

open Storage
open Prog (Settles)

/-- What a scan returned, beside the callers and their store. -/
structure Scan where
  pool : JournalPool
  returned : List Admitted
  ended : Bool

/-- A scan that has read nothing. -/
def Scan.start (pool : JournalPool) : Scan := ⟨pool, [], false⟩

/-- A caller goes on, or a page is read, its operations at the given moments. -/
inductive ScanEvent (Caller : Type) where
  | caller (event : Caller)
  | page (moments : List Moment)

/-- The scan after the read of a page; a read that failed or crashed returned nothing. -/
def Scan.turn (s : Scan) : Database JournalTables × Option (Except WriterError (List Admitted) × List Moment) → Scan
  | (db, some (.ok [], _)) => { s with pool := { s.pool with state := db }, ended := true }
  | (db, some (.ok rows, _)) => { s with pool := { s.pool with state := db }, returned := s.returned ++ rows }
  | (db, _) => { s with pool := { s.pool with state := db } }

section Steps

variable {Caller : Type} (event : Caller → JournalEvent) (read : Nat → JournalTry (List Admitted))

def Scan.step (s : Scan) : ScanEvent Caller → Scan
  | .caller e => { s with pool := s.pool.step StoreOp.exec (event e) }
  | .page moments =>
    if s.ended then s else s.turn ((read s.returned.length).run.run StoreOp.exec moments s.pool.state)

def Scan.after (s : Scan) (events : List (ScanEvent Caller)) : Scan := events.foldl (Scan.step event read) s

@[simp] theorem Scan.after_nil (s : Scan) : s.after event read [] = s := rfl

@[simp] theorem Scan.after_append (s : Scan) (a b : List (ScanEvent Caller)) :
    s.after event read (a ++ b) = (s.after event read a).after event read b := List.foldl_append

@[simp] theorem Scan.after_singleton (s : Scan) (e : ScanEvent Caller) :
    s.after event read [e] = s.step event read e := rfl

@[simp] theorem Scan.step_caller (s : Scan) (e : Caller) :
    s.step event read (.caller e) = { s with pool := s.pool.step StoreOp.exec (event e) } := rfl

/-- Every operation the callers issue until the scan ends meets `P`. -/
def Scan.CallersMeet (P : Scan → IssuedOp → Prop) : Scan → List (ScanEvent Caller) → Prop
  | _, [] => True
  | s, .caller e :: events =>
    (s.ended = false → ∀ x ∈ s.pool.issued (event e), P s x) ∧ CallersMeet P (s.step event read (.caller e)) events
  | s, .page moments :: events => CallersMeet P (s.step event read (.page moments)) events

instance Scan.decidableCallersMeet (P : Scan → IssuedOp → Prop) [∀ s x, Decidable (P s x)] :
    ∀ (s : Scan) (events : List (ScanEvent Caller)), Decidable (Scan.CallersMeet event read P s events)
  | _, [] => .isTrue trivial
  | s, .caller e :: events => @instDecidableAnd _ _ inferInstance (decidableCallersMeet P _ events)
  | s, .page _ :: events => decidableCallersMeet P _ events

/-- The operations a scan returned. -/
def Scan.operations (s : Scan) : List String := s.returned.map fun found => found.operation.text

theorem Scan.length_operations (s : Scan) : s.operations.length = s.returned.length := List.length_map _

/-- The pages of a scan only read, and each settles on an answer. -/
structure PageRead (answer : Nat → JournalTables → Except WriterError (List Admitted)) : Prop where
  reads : ∀ offset, (read offset).run.Issues NoSubmit
  settles : ∀ offset db, Settles StoreOp.exec CalmMoment (read offset) db (answer offset db.tables)

variable {event read} {answer : Nat → JournalTables → Except WriterError (List Admitted)}

theorem Scan.CallersMeet.mono {P R : Scan → IssuedOp → Prop} (h : ∀ s x, P s x → R s x) {s : Scan}
    {events : List (ScanEvent Caller)} (hmeet : Scan.CallersMeet event read P s events) :
    Scan.CallersMeet event read R s events := by
  induction events generalizing s with
  | nil => exact trivial
  | cons e events ih =>
    cases e with
    | caller e => exact ⟨fun hended x hx => h s x (hmeet.1 hended x hx), ih hmeet.2⟩
    | page moments => exact ih hmeet

/-- What a page does: nothing, it ends the scan, or it adds the rows of its answer. -/
theorem PageRead.cases (h : PageRead read answer) (event : Caller → JournalEvent) (s : Scan) (moments : List Moment) :
    s.step event read (.page moments) = s ∨
      (s.ended = false ∧ answer s.returned.length s.pool.state.tables = .ok [] ∧
        s.step event read (.page moments) = { s with ended := true }) ∨
      ∃ rows, s.ended = false ∧ answer s.returned.length s.pool.state.tables = .ok rows ∧
        s.step event read (.page moments) = { s with returned := s.returned ++ rows } := by
  by_cases hended : s.ended = true
  · exact .inl (by simp [Scan.step, hended])
  · rw [Bool.not_eq_true] at hended
    have hstep : s.step event read (.page moments) =
        s.turn ((read s.returned.length).run.run StoreOp.exec moments s.pool.state) := by
      simp [Scan.step, hended]
    rw [hstep]
    rcases hrun : (read s.returned.length).run.run StoreOp.exec moments s.pool.state with ⟨db, result⟩
    have hruns : Prog.Runs StoreOp.exec (fun _ => True) (read s.returned.length).run s.pool.state db
        (result.map Prod.fst) := ⟨moments, fun _ _ => trivial, by rw [hrun], by rw [hrun]⟩
    obtain rfl : db = s.pool.state := runs_noSubmit (h.reads _) hruns
    rcases result with _ | ⟨e | rows, rest⟩
    · exact .inl rfl
    · exact .inl rfl
    · have hanswer := ((h.settles s.returned.length s.pool.state).value _ _ rows hruns).2
      cases rows with
      | nil => exact .inr (.inl ⟨hended, hanswer, rfl⟩)
      | cons row rows => exact .inr (.inr ⟨row :: rows, hended, hanswer, rfl⟩)

/-- A page leaves the callers and their store. -/
theorem PageRead.pool (h : PageRead read answer) (event : Caller → JournalEvent) (s : Scan) (moments : List Moment) :
    (s.step event read (.page moments)).pool = s.pool := by
  rcases h.cases event s moments with hsame | ⟨-, -, hsame⟩ | ⟨rows, -, -, hsame⟩
  · rw [hsame]
  · rw [hsame]
  · rw [hsame]

/-- What the operations of the callers keep holds after every run of a scan. -/
theorem PageRead.invariant (h : PageRead read answer) (event : Caller → JournalEvent) {Q : StoreOp JournalTables → Prop}
    {Inv : Database JournalTables → Prop} (hstart : ∀ e p, event e = .start p → p.Issues Q)
    (hstep : ∀ op m db, Q op → Inv db → Inv (op.exec m db).1) {s : Scan} (hcalls : s.pool.AllIssue Q)
    (hs : Inv s.pool.state) (events : List (ScanEvent Caller)) :
    (s.after event read events).pool.AllIssue Q ∧ Inv (s.after event read events).pool.state := by
  induction events using List.reverseRecOn with
  | nil => exact ⟨hcalls, hs⟩
  | append_singleton events e ih =>
    rw [Scan.after_append, Scan.after_singleton]
    cases e with
    | caller e =>
      obtain ⟨hissue, hstate⟩ := Prog.Pool.step_cases StoreOp.exec ih.1 (hstart e)
      refine ⟨hissue, ?_⟩
      rw [Scan.step_caller]
      rcases hstate with hstate | ⟨op, m, hop, hstate⟩
      · rw [hstate]
        exact ih.2
      · rw [hstate]
        exact hstep op m _ hop ih.2
    | page moments =>
      rw [h.pool]
      exact ih

end Steps

/-! ### Moves of an operation -/

/-- The operation commits a transition to the given state. -/
def Moves (operation : OperationId) (newState : LifecycleState) (x : IssuedOp) : Prop :=
  ∃ handle store ticket, x.op = .submit handle ticket ∧ IsTransitionTicket store operation newState ticket ∧
    leftBy x ≠ x.before

theorem Moves.transits {operation : OperationId} {newState : LifecycleState} {x : IssuedOp}
    (h : Moves operation newState x) : Transits operation newState x.before.tables (leftBy x).tables := by
  obtain ⟨handle, store, ticket, hop, hticket, hmoved⟩ := h
  have hleft : leftBy x = (submit handle ticket x.env.host x.before).1 := by
    unfold leftBy
    rw [hop]
    rfl
  rcases submit_transition handle hticket x.env.host x.before with hsame | ⟨-, htransits, -⟩
  · exact absurd (hleft.trans hsame) hmoved
  · rw [hleft]
    exact htransits

/-- Every row of the journal has an operation of its own. -/
def UniqueOperations (db : Database JournalTables) : Prop := (db.tables.journal.map JournalRow.operation).Nodup

instance (db : Database JournalTables) : Decidable (UniqueOperations db) := inferInstanceAs (Decidable (List.Nodup _))

theorem UniqueOperations.exec {op : StoreOp JournalTables} (hop : JournalOp op) (m : Moment)
    {db : Database JournalTables} (h : UniqueOperations db) : UniqueOperations (op.exec m db).1 :=
  (hop.step m db).operations_nodup h

end Verdant.Action
