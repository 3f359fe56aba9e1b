import Verdant.Library.Lines
import Verdant.Storage.OutboxRow

/-!
# One exchange with the child process

`exchangeInner` sends one script with a marker behind it and reads the answer from the chunks its pump delivers.  The
chunk boundaries are the pipe's: a chunk may end inside a line or inside a character.  Complete lines are taken out of
`pending` as they come; the partial line stays and is not scanned again.  What the pumps deliver is a list of
`Delivery` values, in the order `recv_timeout` returns them; the child's exit is the `Child` record.
-/

namespace Verdant.Storage

open TextCodec Lines

/-! ### Budgets -/

/-- The budgets an operation charges. -/
inductive Resource where
  | inputBytes
  | outputBytes
  | outputRows
  deriving DecidableEq, Repr

def Resource.text : Resource → String
  | .inputBytes => "input bytes"
  | .outputBytes => "output bytes"
  | .outputRows => "output rows"

/-- One number for each resource: the budget, or what is used of it. -/
structure Usage where
  input : Nat
  output : Nat
  rows : Nat
  deriving DecidableEq, Repr

def Usage.of (usage : Usage) : Resource → Nat
  | .inputBytes => usage.input
  | .outputBytes => usage.output
  | .outputRows => usage.rows

def Usage.add (usage : Usage) (resource : Resource) (bytes : Nat) : Usage :=
  match resource with
  | .inputBytes => { usage with input := usage.input + bytes }
  | .outputBytes => { usage with output := usage.output + bytes }
  | .outputRows => { usage with rows := usage.rows + bytes }

/-- One admitted operation; `late n` says whether its `n`-th reading of the clock from now is past the deadline. -/
structure Operation where
  bounds : Usage
  timeoutMs : Nat
  usage : Usage
  late : Nat → Bool

def Operation.remaining (operation : Operation) : Except StorageError Operation :=
  if operation.late 0 then .error (.deadlineExceeded operation.timeoutMs)
  else .ok { operation with late := fun n => operation.late (n + 1) }

def Operation.charge (operation : Operation) (resource : Resource) (bytes : Nat) : Except StorageError Operation := do
  let operation ← operation.remaining
  let max := operation.bounds.of resource
  if bytes > max - operation.usage.of resource then .error (.executionLimit resource.text max)
  else .ok { operation with usage := operation.usage.add resource bytes }

/-! ### The process -/

/-- What the pumps send. -/
inductive PumpEvent where
  | stdout (bytes : List UInt8)
  | stderr (bytes : List UInt8)
  | ended (stdout : Bool)
  | written (bytes : Nat)
  | io (message : String)
  deriving DecidableEq, Repr

/-- What `recv_timeout` returns. -/
inductive Delivery where
  | event (event : PumpEvent)
  | timeout
  | disconnected
  deriving DecidableEq, Repr

/-- The child at its end: what waiting for it answers, and the lossy reading of what it wrote to `stderr`. -/
structure Child where
  exit : Except StorageError String
  lossy : List UInt8 → String

/-- The controller of one child process. -/
structure Process where
  operation : Operation
  path : String
  inputOpen : Bool
  eventsOpen : Bool
  stderr : List UInt8
  pending : List UInt8
  stdoutEnd : Bool
  stderrEnd : Bool
  writing : Bool

/-- Hands the parts to the stdin pump; `sent` is what its channel answers. -/
def Process.enqueue (p : Process) (sent : Except String Unit) (parts : List String) : Except StorageError Process := do
  let len := (parts.map String.utf8ByteSize).sum
  if len ≥ 2 ^ 64 then .error (.executionLimit "input bytes" p.operation.bounds.input) else .ok ()
  let operation ← p.operation.charge .inputBytes len
  if p.inputOpen then .ok () else .error (.io p.path "closed sqlite stdin")
  match sent with
  | .error message => .error (.io p.path message)
  | .ok () => .ok { p with operation := operation, writing := true }

def newline : UInt8 := 10

def Process.handle (p : Process) : PumpEvent → Except StorageError Process
  | .stdout bytes => do
    let operation ← p.operation.charge .outputBytes bytes.length
    let operation ← operation.charge .outputRows (bytes.count newline)
    .ok { p with operation := operation, pending := p.pending ++ bytes }
  | .stderr bytes => do
    let operation ← p.operation.charge .outputBytes bytes.length
    .ok { p with operation := operation, stderr := p.stderr ++ bytes }
  | .ended stdout =>
    if stdout then do
      let operation ←
        if p.pending.getLast?.any fun b => b ≠ newline then p.operation.charge .outputRows 1 else .ok p.operation
      .ok { p with operation := operation, stdoutEnd := true }
    else .ok { p with stderrEnd := true }
  | .written _ => .ok { p with writing := false }
  | .io message => .error (.io p.path message)

/-- Waits for the next event and takes it in. -/
def Process.event (p : Process) (delivery : Delivery) : Except StorageError Process := do
  let operation ← p.operation.remaining
  if p.eventsOpen then .ok () else .error (failure "cancelled CLI")
  match delivery with
  | .timeout => .error (.deadlineExceeded operation.timeoutMs)
  | .disconnected => .error (failure "CLI pumps disconnected")
  | .event event => Process.handle { p with operation := operation } event

/-! ### Lines of an answer -/

/-- The marker the child prints behind each answer. -/
def Process.sentEnd : String := "VERDANT_END"

/-- The column separator of the child's list mode. -/
def Process.colSep : Char := Char.ofNat 0x1f

def trimEndCr (s : String) : String := String.ofList (s.toList.rdropWhile (· = '\r'))

/-- The cells of one line. -/
def readLine (line : String) : List String := splitText Process.colSep (trimEndCr line)

/-- What the answer read so far has given. -/
structure Collected where
  ended : Bool
  rows : Rows
  deriving DecidableEq, Repr

def Collected.accept (answer : Collected) (raw : List UInt8) : Except StorageError Collected :=
  match readUtf8 raw with
  | none => .error (failure "CLI stdout is not UTF-8")
  | some line =>
    if trimEndCr line = Process.sentEnd then .ok { answer with ended := true }
    else if answer.ended then .error (failure "unexpected output after response marker")
    else .ok { answer with rows := answer.rows ++ [readLine line] }

/-- The scan of `pending` from a position on: the bytes before `consumed` belong to lines already taken. -/
def scanPending (pending : List UInt8) : (index consumed : Nat) → List UInt8 → Collected → Except StorageError (Nat × Collected)
  | _, consumed, [], answer => .ok (consumed, answer)
  | index, consumed, byte :: bytes, answer =>
    if byte ≠ newline then scanPending pending (index + 1) consumed bytes answer
    else do
      let answer ← answer.accept ((pending.take index).drop consumed)
      scanPending pending (index + 1) (index + 1) bytes answer

/-- Scans what has come since the last scan and keeps the partial line. -/
def Process.scan (p : Process) (scanned : Nat) (answer : Collected) : Except StorageError (Process × Nat × Collected) := do
  let operation ← p.operation.remaining
  let (consumed, answer) ← scanPending p.pending scanned 0 (p.pending.drop scanned) answer
  .ok ({ p with operation := operation, pending := p.pending.drop consumed }, p.pending.length - consumed, answer)

/-- The error of a child that ended before its marker. -/
def Process.exited (p : Process) (child : Child) : StorageError :=
  match child.exit with
  | .error e => e
  | .ok status => failure s!"CLI exited {status}: {child.lossy p.stderr}"

/-- The loop of an exchange; it stops with the rows, the process and the deliveries it has not received. -/
def Process.exchangeLoop (child : Child) (p : Process) (scanned : Nat) (answer : Collected) (deliveries : List Delivery) :
    Except StorageError (Rows × Process × List Delivery) :=
  match p.scan scanned answer with
  | .error e => .error e
  | .ok (p, scanned, answer) =>
    if answer.ended ∧ p.writing = false then .ok (answer.rows, p, deliveries)
    else if p.stdoutEnd ∧ p.stderrEnd ∧ p.writing = false then .error (p.exited child)
    else match deliveries with
      | [] => .error (.deadlineExceeded p.operation.timeoutMs)
      | delivery :: deliveries =>
        match p.event delivery with
        | .error e => .error e
        | .ok p => exchangeLoop child p scanned answer deliveries

/-- The script of an exchange: the statements and the command that prints the marker. -/
def Process.script (sql : String) : List String := [sql, "\n.print ", Process.sentEnd, "\n"]

def Process.exchangeInner (child : Child) (p : Process) (sent : Except String Unit) (sql : String)
    (deliveries : List Delivery) : Except StorageError (Rows × Process × List Delivery) := do
  let p ← p.enqueue sent (Process.script sql)
  p.exchangeLoop child 0 ⟨false, []⟩ deliveries

end Verdant.Storage
