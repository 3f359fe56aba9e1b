import Verdant.Library.Result
import Verdant.Storage.Exchange

/-!
# Exchanges do not depend on chunks

Whatever the chunk boundaries are and whenever the write is acknowledged, an exchange answers with the rows of the
lines before the marker.  The loop keeps one invariant: it has accepted the complete lines of what has come, and
`pending` is the partial line after them with the chunk that came last.
-/

namespace Verdant.Storage

open TextCodec Lines

/-! ### The scan -/

/-- The scan accepts the complete lines that end in the bytes still to be scanned. -/
theorem scanPending_eq {front part todo : List UInt8} (hpart : newline ∉ part) (collected : Collected) :
    scanPending (front ++ (part ++ todo)) (front.length + part.length) front.length todo collected =
      ((cut newline (part ++ todo)).1.foldlM Collected.accept collected).map fun out =>
        ((front ++ (part ++ todo)).length - (cut newline (part ++ todo)).2.length, out) := by
  induction todo generalizing front part collected with
  | nil =>
    rw [List.append_nil, cut_unended hpart, List.length_append]
    simp only [scanPending, List.foldlM_nil]
    show _ = Except.ok _
    rw [Nat.add_sub_cancel]
  | cons byte todo ih =>
    by_cases hbyte : byte = newline
    · subst hbyte
      have hline : ((front ++ (part ++ newline :: todo)).take (front.length + part.length)).drop front.length = part := by
        rw [← List.append_assoc, ← List.length_append, List.take_left, List.drop_left]
      have hnext := fun out => @ih (front ++ (part ++ [newline])) [] (by simp) out
      have hlists : front ++ (part ++ [newline]) ++ ([] ++ todo) = front ++ (part ++ newline :: todo) := by simp
      have hlength : (front ++ (part ++ [newline])).length = front.length + part.length + 1 := by
        simp only [List.length_append, List.length_cons, List.length_nil]
        omega
      rw [cut_line hpart, List.foldlM_cons, scanPending, if_neg (not_not.2 rfl), hline]
      cases collected.accept part with
      | error e => rfl
      | ok out =>
        have := hnext out
        rw [hlists, hlength] at this
        exact this
    · have hpart' : newline ∉ part ++ [byte] := by
        simp only [List.mem_append, List.mem_singleton, not_or]
        exact ⟨hpart, fun h => hbyte h.symm⟩
      have hnext := @ih front _ hpart' collected
      have hlists : part ++ [byte] ++ todo = part ++ byte :: todo := by simp
      rw [hlists, List.length_append, List.length_singleton, ← Nat.add_assoc] at hnext
      rw [scanPending, if_pos hbyte]
      exact hnext

/-- A scan keeps the partial line and accepts what is complete. -/
theorem Process.scan_eq {p : Process} {old new : List UInt8} (hold : newline ∉ old) (hpending : p.pending = old ++ new)
    {operation : Operation} (htime : p.operation.remaining = .ok operation) (collected : Collected) :
    p.scan old.length collected =
      ((cut newline (old ++ new)).1.foldlM Collected.accept collected).map fun out =>
        ({ p with operation := operation, pending := (cut newline (old ++ new)).2 },
          (cut newline (old ++ new)).2.length, out) := by
  have hscan := @scanPending_eq [] old new hold collected
  rw [List.nil_append, List.length_nil, Nat.zero_add] at hscan
  obtain ⟨front, hfront⟩ := cut_suffix newline (old ++ new)
  have hlength : (old ++ new).length = front.length + (cut newline (old ++ new)).2.length := by
    rw [← hfront, List.length_append]
    simp [hfront]
  have hkeep : (old ++ new).drop ((old ++ new).length - (cut newline (old ++ new)).2.length) =
      (cut newline (old ++ new)).2 := by
    rw [hlength, Nat.add_sub_cancel]
    conv_lhs => rw [← hfront]
    exact List.drop_left
  unfold Process.scan
  rw [htime, Result.ok_bind, hpending, List.drop_left, hscan]
  cases (cut newline (old ++ new)).1.foldlM Collected.accept collected with
  | error e => rfl
  | ok out =>
    show Except.ok _ = Except.ok _
    simp only [hkeep]
    rw [hlength, Nat.add_sub_cancel, Nat.add_sub_cancel_left]

/-! ### The lines of a response -/

/-- The bytes of an answer: its lines and the marker. -/
def responseBytes (lines : List String) : List UInt8 :=
  unlines newline ((lines ++ [Process.sentEnd]).map utf8Bytes)

/-- Lines of rows: one line each, and not the marker once their carriage returns are off. -/
def RowLines (lines : List String) : Prop :=
  ∀ line ∈ lines, '\n' ∉ line.toList ∧ trimEndCr line ≠ Process.sentEnd

instance (lines : List String) : Decidable (RowLines lines) := by
  unfold RowLines
  infer_instance

theorem newline_not_mem {line : String} (h : '\n' ∉ line.toList) : newline ∉ utf8Bytes line := by
  intro hmem
  have hchar := (mem_utf8Bytes (by decide)).1 hmem
  exact h hchar

theorem cut_responseBytes {lines : List String} (h : RowLines lines) :
    cut newline (responseBytes lines) = (lines.map utf8Bytes ++ [utf8Bytes Process.sentEnd], []) := by
  unfold responseBytes
  rw [cut_unlines]
  · simp
  · intro raw hraw
    obtain ⟨line, hline, rfl⟩ := List.mem_map.1 hraw
    rcases List.mem_append.1 hline with hline | hline
    · exact newline_not_mem (h line hline).1
    · rw [List.mem_singleton.1 hline]
      exact newline_not_mem (by decide)

theorem accept_rows {lines : List String} (h : RowLines lines) (rows : Rows) :
    (lines.map utf8Bytes).foldlM Collected.accept ⟨false, rows⟩ = .ok ⟨false, rows ++ lines.map readLine⟩ := by
  induction lines generalizing rows with
  | nil => simp [pure, Except.pure]
  | cons line lines ih =>
    have hhead := (h line List.mem_cons_self).2
    have htail := ih (fun l hl => h l (List.mem_cons_of_mem _ hl)) (rows ++ [readLine line])
    have haccept : Collected.accept ⟨false, rows⟩ (utf8Bytes line) = .ok ⟨false, rows ++ [readLine line]⟩ := by
      simp [Collected.accept, hhead]
    rw [List.map_cons, List.foldlM_cons, haccept, Result.ok_bind, htail]
    simp

theorem accept_marker (rows : Rows) :
    Collected.accept ⟨false, rows⟩ (utf8Bytes Process.sentEnd) = .ok ⟨true, rows⟩ := by
  have htrim : trimEndCr Process.sentEnd = Process.sentEnd := by decide
  simp [Collected.accept, htrim]

/-- What the lines that have come so far give: the marker is the last of them. -/
theorem accept_come {lines : List String} (h : RowLines lines) {come left : List UInt8}
    (hwhole : come ++ left = responseBytes lines) :
    ∃ rows, (left = [] ∧ rows = lines.map readLine ∧ (cut newline come).2 = [] ∧
        (cut newline come).1.foldlM Collected.accept ⟨false, []⟩ = .ok ⟨true, rows⟩) ∨
      (left ≠ [] ∧ (cut newline come).1.foldlM Collected.accept ⟨false, []⟩ = .ok ⟨false, rows⟩) := by
  have hcut := cut_responseBytes h
  by_cases hleft : left = []
  · subst hleft
    rw [List.append_nil] at hwhole
    refine ⟨lines.map readLine, .inl ⟨rfl, rfl, by rw [hwhole, hcut], ?_⟩⟩
    rw [hwhole, hcut, List.foldlM_append, accept_rows h]
    show List.foldlM _ _ _ = _
    rw [List.foldlM_cons, List.nil_append, accept_marker, Result.ok_bind]
    rfl
  · -- some line has not come, so what has come is some of the row lines
    have hfew : (cut newline come).1.length < (cut newline (come ++ left)).1.length := by
      by_contra hmany
      have hrest : (cut newline (come ++ left)).2 = [] := by rw [hwhole, hcut]
      exact hleft (all_come hrest (Nat.le_of_not_lt hmany))
    have hprefix : (cut newline come).1 <+: lines.map utf8Bytes ++ [utf8Bytes Process.sentEnd] := by
      have happend := congrArg Prod.fst (cut_append newline come left)
      rw [hwhole, hcut] at happend
      exact ⟨_, happend.symm⟩
    have hrows : (cut newline come).1 <+: lines.map utf8Bytes := by
      rw [hwhole, hcut, List.length_append, List.length_singleton] at hfew
      exact List.prefix_of_prefix_length_le hprefix (List.prefix_append _ _) (by omega)
    obtain ⟨more, hmore⟩ := hrows
    obtain ⟨front, back, hlines, hfront, -⟩ := List.map_eq_append_iff.1 hmore.symm
    have hfrontRows : RowLines front := by
      intro line hline
      exact h line (by rw [hlines]; exact List.mem_append_left _ hline)
    refine ⟨front.map readLine, .inr ⟨hleft, ?_⟩⟩
    rw [← hfront, accept_rows hfrontRows, List.nil_append]

/-! ### Budgets -/

/-- The operation has time, and room for these bytes of output. -/
structure Operation.Covers (operation : Operation) (bytes : List UInt8) : Prop where
  onTime : ∀ n, operation.late n = false
  output : operation.usage.output + bytes.length ≤ operation.bounds.output
  rows : operation.usage.rows + bytes.count newline ≤ operation.bounds.rows

theorem Operation.Covers.remaining {operation : Operation} {bytes : List UInt8} (h : operation.Covers bytes) :
    ∃ next, operation.remaining = .ok next ∧ next.Covers bytes := by
  refine ⟨{ operation with late := fun n => operation.late (n + 1) }, ?_, ⟨fun n => h.onTime _, h.output, h.rows⟩⟩
  unfold Operation.remaining
  rw [h.onTime 0]
  rfl

theorem Operation.charge_eq_ok {operation : Operation} (htime : ∀ n, operation.late n = false) {resource : Resource}
    {bytes : Nat} (hroom : operation.usage.of resource + bytes ≤ operation.bounds.of resource) :
    operation.charge resource bytes = .ok { operation with
      usage := operation.usage.add resource bytes
      late := fun n => operation.late (n + 1) } := by
  unfold Operation.charge Operation.remaining
  rw [htime 0]
  simp only [Bool.false_eq_true, if_false, Result.ok_bind]
  rw [if_neg (by omega)]

/-- The charges of a chunk leave room for what comes behind it. -/
theorem Operation.Covers.chunk {operation : Operation} {chunk rest : List UInt8} (h : operation.Covers (chunk ++ rest)) :
    ∃ charged next, operation.charge .outputBytes chunk.length = .ok charged ∧
      charged.charge .outputRows (chunk.count newline) = .ok next ∧ next.Covers rest := by
  obtain ⟨htime, hbytes, hrows⟩ := h
  rw [List.length_append] at hbytes
  rw [List.count_append] at hrows
  refine ⟨_, _, charge_eq_ok htime (by simp only [Usage.of]; omega), charge_eq_ok (fun n => htime (n + 1)) ?_, ?_⟩
  · simp only [Usage.of, Usage.add]
    omega
  · refine ⟨fun n => htime _, ?_, ?_⟩
    · simp only [Usage.add]
      omega
    · simp only [Usage.add]
      omega

/-! ### The loop -/

/-- The bytes a delivery adds to the answer. -/
def Delivery.bytes : Delivery → List UInt8
  | .event (.stdout bytes) => bytes
  | _ => []

/-- The deliveries of an exchange in which nothing fails: chunks of the answer and acknowledged writes. -/
inductive Delivery.Calm : Delivery → Prop where
  | chunk (bytes : List UInt8) : Calm (.event (.stdout bytes))
  | written (bytes : Nat) : Calm (.event (.written bytes))

/-- A process whose channels are open and whose child has not ended its output. -/
structure Process.Running (p : Process) : Prop where
  inputOpen : p.inputOpen = true
  eventsOpen : p.eventsOpen = true
  stdoutEnd : p.stdoutEnd = false

/-- A running process between two exchanges. -/
structure Process.Ready (p : Process) : Prop extends p.Running where
  pending : p.pending = []
  writing : p.writing = false

theorem Process.event_chunk {p : Process} {chunk rest : List UInt8} (hrun : p.Running)
    (hbudget : p.operation.Covers (chunk ++ rest)) :
    ∃ next, p.event (.event (.stdout chunk)) = .ok next ∧ next.Running ∧ next.pending = p.pending ++ chunk ∧
      next.writing = p.writing ∧ next.operation.Covers rest := by
  obtain ⟨waiting, htime, hbudget⟩ := hbudget.remaining
  obtain ⟨charged, operation, hbytes, hrows, hrest⟩ := hbudget.chunk
  refine ⟨{ p with operation := operation, pending := p.pending ++ chunk }, ?_, ?_, rfl, rfl, hrest⟩
  · unfold Process.event
    rw [htime, Result.ok_bind, hrun.eventsOpen]
    simp only [if_true, Result.ok_bind, Process.handle, hbytes, hrows]
  · exact ⟨hrun.inputOpen, hrun.eventsOpen, hrun.stdoutEnd⟩

theorem Process.event_written {p : Process} {bytes : List UInt8} (hrun : p.Running)
    (hbudget : p.operation.Covers bytes) (n : Nat) :
    ∃ next, p.event (.event (.written n)) = .ok next ∧ next.Running ∧ next.pending = p.pending ∧
      next.writing = false ∧ next.operation.Covers bytes := by
  obtain ⟨operation, htime, hbudget⟩ := hbudget.remaining
  refine ⟨{ p with operation := operation, writing := false }, ?_, ?_, rfl, rfl, hbudget⟩
  · unfold Process.event
    rw [htime, Result.ok_bind, hrun.eventsOpen]
    simp only [if_true, Result.ok_bind, Process.handle]
  · exact ⟨hrun.inputOpen, hrun.eventsOpen, hrun.stdoutEnd⟩

theorem Process.exchangeLoop_done {child : Child} {p q : Process} {scanned : Nat} {collected : Collected} {rows : Rows}
    {left : Nat} (hscan : p.scan scanned collected = .ok (q, left, ⟨true, rows⟩)) (hwriting : q.writing = false)
    (deliveries : List Delivery) :
    p.exchangeLoop child scanned collected deliveries = .ok (rows, q, deliveries) := by
  unfold Process.exchangeLoop
  rw [hscan]
  simp only [hwriting, and_self, if_true]

theorem Process.exchangeLoop_more {child : Child} {p q next : Process} {scanned left : Nat} {collected out : Collected}
    (hscan : p.scan scanned collected = .ok (q, left, out)) (hmore : out.ended = true → q.writing = true)
    (hstdout : q.stdoutEnd = false) {delivery : Delivery} (hevent : q.event delivery = .ok next)
    (deliveries : List Delivery) :
    p.exchangeLoop child scanned collected (delivery :: deliveries) = next.exchangeLoop child left out deliveries := by
  have hgo : ¬ (out.ended = true ∧ q.writing = false) := by
    rintro ⟨hended, hwriting⟩
    rw [hmore hended] at hwriting
    exact nomatch hwriting
  conv_lhs => unfold Process.exchangeLoop
  rw [hscan]
  simp only [if_neg hgo, hstdout, Bool.false_eq_true, false_and, if_false, hevent]

/-- The next scan of the loop: it accepts what has come, all of it when nothing is left. -/
theorem Process.scan_come {lines : List String} (hlines : RowLines lines) {p : Process} {come new left : List UInt8}
    {collected : Collected} (hwhole : come ++ new ++ left = responseBytes lines)
    (hcollected : (cut newline come).1.foldlM Collected.accept ⟨false, []⟩ = .ok collected)
    (hpending : p.pending = (cut newline come).2 ++ new) (hbudget : p.operation.Covers left) :
    ∃ operation out, operation.Covers left ∧
      (cut newline (come ++ new)).1.foldlM Collected.accept ⟨false, []⟩ = .ok out ∧
      p.scan (cut newline come).2.length collected =
        .ok ({ p with operation := operation, pending := (cut newline (come ++ new)).2 },
          (cut newline (come ++ new)).2.length, out) ∧
      (left = [] ∧ out = ⟨true, lines.map readLine⟩ ∧ (cut newline (come ++ new)).2 = [] ∨
        left ≠ [] ∧ out.ended = false) := by
  obtain ⟨operation, htime, hcovers⟩ := hbudget.remaining
  have hcut := cut_append newline come new
  obtain ⟨out, hfold, hcase⟩ : ∃ out, (cut newline (come ++ new)).1.foldlM Collected.accept ⟨false, []⟩ = .ok out ∧
      (left = [] ∧ out = ⟨true, lines.map readLine⟩ ∧ (cut newline (come ++ new)).2 = [] ∨
        left ≠ [] ∧ out.ended = false) := by
    obtain ⟨rows, ⟨hleft, rfl, hrest, hfold⟩ | ⟨hleft, hfold⟩⟩ := accept_come hlines hwhole
    · exact ⟨_, hfold, .inl ⟨hleft, rfl, hrest⟩⟩
    · exact ⟨_, hfold, .inr ⟨hleft, rfl⟩⟩
  refine ⟨operation, out, hcovers, hfold, ?_, hcase⟩
  have hnew : (cut newline ((cut newline come).2 ++ new)).1.foldlM Collected.accept collected = .ok out := by
    rw [hcut, List.foldlM_append, hcollected] at hfold
    exact hfold
  rw [scan_eq (not_mem_rest newline come) hpending htime, hnew, hcut]
  rfl

/-- The loop, from any point of an answer on: `come` has been scanned, `new` has come since, `left` is still to come. -/
theorem Process.exchangeLoop_rows (child : Child) {lines : List String} (hlines : RowLines lines) {p : Process}
    (hrun : p.Running) {come new left : List UInt8} {collected : Collected} {deliveries : List Delivery}
    (hcalm : ∀ d ∈ deliveries, d.Calm) (hleft : deliveries.flatMap Delivery.bytes = left)
    (hwritten : p.writing = true → ∃ n, .event (.written n) ∈ deliveries)
    (hwhole : come ++ new ++ left = responseBytes lines)
    (hcollected : (cut newline come).1.foldlM Collected.accept ⟨false, []⟩ = .ok collected)
    (hpending : p.pending = (cut newline come).2 ++ new) (hbudget : p.operation.Covers left) :
    ∃ q rest, p.exchangeLoop child (cut newline come).2.length collected deliveries = .ok (lines.map readLine, q, rest) ∧
      q.Ready ∧ ∀ d ∈ rest, d.bytes = [] := by
  induction deliveries generalizing p come new left collected with
  | nil =>
    obtain ⟨operation, out, -, -, hscan, ⟨-, rfl, hrest⟩ | ⟨hmore, -⟩⟩ :=
      Process.scan_come hlines hwhole hcollected hpending hbudget
    · have hquiet : p.writing = false := by
        by_contra hwriting
        obtain ⟨n, hn⟩ := hwritten (by simpa using hwriting)
        exact nomatch hn
      refine ⟨_, [], exchangeLoop_done hscan hquiet [], ?_, by simp⟩
      exact ⟨⟨hrun.inputOpen, hrun.eventsOpen, hrun.stdoutEnd⟩, hrest, hquiet⟩
    · exact absurd hleft.symm hmore
  | cons delivery deliveries ih =>
    obtain ⟨operation, out, hcovers, hfold, hscan, hcase⟩ :=
      Process.scan_come hlines hwhole hcollected hpending hbudget
    by_cases hdone : left = [] ∧ p.writing = false
    · obtain ⟨-, rfl, hrest⟩ | ⟨hmore, -⟩ := hcase
      · refine ⟨_, delivery :: deliveries, exchangeLoop_done hscan hdone.2 _, ?_, ?_⟩
        · exact ⟨⟨hrun.inputOpen, hrun.eventsOpen, hrun.stdoutEnd⟩, hrest, hdone.2⟩
        · -- what is not received carries no bytes
          rw [hdone.1] at hleft
          exact List.flatMap_eq_nil_iff.1 hleft
      · exact absurd hdone.1 hmore
    · have hgo : out.ended = true → p.writing = true := by
        intro hended
        obtain ⟨hnone, -⟩ | ⟨-, hfalse⟩ := hcase
        · simpa [hnone] using hdone
        · rw [hfalse] at hended
          exact nomatch hended
      have hcalm' := fun d hd => hcalm d (List.mem_cons_of_mem _ hd)
      have hrun' : ({ p with operation := operation, pending := (cut newline (come ++ new)).2 } : Process).Running :=
        ⟨hrun.inputOpen, hrun.eventsOpen, hrun.stdoutEnd⟩
      cases hcalm delivery List.mem_cons_self with
      | chunk bytes =>
        have hbytes : bytes ++ deliveries.flatMap Delivery.bytes = left := hleft
        rw [← hbytes] at hcovers hwhole
        obtain ⟨next, hevent, hnext, hpending', hwriting', hrest⟩ := Process.event_chunk hrun' hcovers
        rw [exchangeLoop_more hscan hgo hrun.stdoutEnd hevent]
        refine ih hnext hcalm' rfl ?_ ?_ hfold hpending' hrest
        · intro hwriting
          rw [hwriting'] at hwriting
          obtain ⟨n, hn⟩ := hwritten hwriting
          exact ⟨n, by simpa using hn⟩
        · rw [← hwhole, List.append_assoc (come ++ new)]
      | written n =>
        have hbytes : deliveries.flatMap Delivery.bytes = left := hleft
        obtain ⟨next, hevent, hnext, hpending', hwriting', hrest⟩ := Process.event_written hrun' hcovers n
        rw [exchangeLoop_more hscan hgo hrun.stdoutEnd hevent]
        refine @ih _ hnext (come ++ new) [] _ _ hcalm' hbytes ?_ ?_ hfold ?_ hrest
        · intro hwriting
          rw [hwriting'] at hwriting
          exact nomatch hwriting
        · rw [List.append_nil]
          exact hwhole
        · rw [List.append_nil]
          exact hpending'

/-! ### The exchange -/

/-- The operation has time for an exchange, and room for its script and its answer. -/
structure Operation.Admits (operation : Operation) (sql : String) (answer : List UInt8) : Prop extends
    operation.Covers answer where
  input : operation.usage.input + ((Process.script sql).map String.utf8ByteSize).sum ≤ operation.bounds.input
  representable : ((Process.script sql).map String.utf8ByteSize).sum < 2 ^ 64

/-- The deliveries of one answer: its chunks, with the acknowledged write after those in `before`. -/
def answerDeliveries (before after : List (List UInt8)) (written : Nat) : List Delivery :=
  before.map (fun chunk => .event (.stdout chunk)) ++ .event (.written written) ::
    after.map fun chunk => .event (.stdout chunk)

theorem bytes_answerDeliveries (before after : List (List UInt8)) (written : Nat) :
    (answerDeliveries before after written).flatMap Delivery.bytes = (before ++ after).flatten := by
  have hchunks : ∀ chunks : List (List UInt8),
      (chunks.map fun chunk => Delivery.event (.stdout chunk)).flatMap Delivery.bytes = chunks.flatten := by
    intro chunks
    rw [List.flatMap_map]
    exact List.flatMap_id
  unfold answerDeliveries
  rw [List.flatMap_append, List.flatMap_cons, hchunks, hchunks, List.flatten_append]
  rfl

theorem calm_answerDeliveries {before after : List (List UInt8)} {written : Nat} {d : Delivery}
    (h : d ∈ answerDeliveries before after written) : d.Calm := by
  unfold answerDeliveries at h
  simp only [List.mem_append, List.mem_cons, List.mem_map] at h
  rcases h with ⟨chunk, -, rfl⟩ | rfl | ⟨chunk, -, rfl⟩
  · exact .chunk chunk
  · exact .written written
  · exact .chunk chunk

theorem Process.enqueue_eq_ok {p : Process} {sql : String} {answer : List UInt8} (hready : p.Ready)
    (hadmits : p.operation.Admits sql answer) :
    ∃ next, p.enqueue (.ok ()) (Process.script sql) = .ok next ∧ next.Running ∧ next.pending = [] ∧
      next.operation.Covers answer := by
  have hroom : p.operation.usage.of .inputBytes + ((Process.script sql).map String.utf8ByteSize).sum ≤
      p.operation.bounds.of .inputBytes := hadmits.input
  have hcharge := Operation.charge_eq_ok hadmits.onTime hroom
  have henqueue : p.enqueue (.ok ()) (Process.script sql) = .ok { p with
      operation := { p.operation with
        usage := p.operation.usage.add .inputBytes ((Process.script sql).map String.utf8ByteSize).sum
        late := fun n => p.operation.late (n + 1) }
      writing := true } := by
    unfold Process.enqueue
    rw [if_neg (Nat.not_le.2 hadmits.representable), Result.ok_bind, hcharge, hready.inputOpen]
    rfl
  refine ⟨_, henqueue, ?_, hready.pending, ?_⟩
  · exact ⟨hready.inputOpen, hready.eventsOpen, hready.stdoutEnd⟩
  · exact ⟨fun n => hadmits.onTime (n + 1), hadmits.output, hadmits.rows⟩

/-- An exchange answers with the rows of its lines, however the answer is cut into chunks and whenever the write is
acknowledged, and leaves the process ready for the next one. -/
theorem exchangeInner_rows {child : Child} {p : Process} {sql : String} {lines : List String}
    {before after : List (List UInt8)} {written : Nat} (hready : p.Ready) (hlines : RowLines lines)
    (hadmits : p.operation.Admits sql (responseBytes lines))
    (hchunks : (before ++ after).flatten = responseBytes lines) :
    ∃ q rest, p.exchangeInner child (.ok ()) sql (answerDeliveries before after written) =
        .ok (lines.map readLine, q, rest) ∧ q.Ready ∧ ∀ d ∈ rest, d.bytes = [] := by
  obtain ⟨next, henqueue, hrun, hpending, hcovers⟩ := Process.enqueue_eq_ok hready hadmits
  unfold Process.exchangeInner
  rw [henqueue, Result.ok_bind]
  have hwhole : [] ++ [] ++ (before ++ after).flatten = responseBytes lines := hchunks
  rw [← hchunks] at hcovers
  refine Process.exchangeLoop_rows child hlines hrun ?_ ?_ ?_ hwhole rfl hpending hcovers
  · exact fun d hd => calm_answerDeliveries hd
  · exact bytes_answerDeliveries before after written
  · exact fun _ => ⟨written, by simp [answerDeliveries]⟩

/-- A process with nothing to read yet and wide budgets. -/
def Process.fresh : Process where
  operation := ⟨⟨65536, 65536, 64⟩, 1000, ⟨0, 0, 0⟩, fun _ => false⟩
  path := "store.db"
  inputOpen := true
  eventsOpen := true
  stderr := []
  pending := []
  stdoutEnd := false
  stderrEnd := false
  writing := false

/-- The child of a process that has not ended. -/
def Child.alive : Child := ⟨.ok "exit status: 0", fun _ => ""⟩

example : readLine "1\x1fé\r" = ["1", "é"] := by decide

theorem Process.fresh_ready : Process.fresh.Ready :=
  ⟨⟨rfl, rfl, rfl⟩, rfl, rfl⟩

/-- Three chunks, cut inside a character, inside a line and inside the marker. -/
theorem exchangeInner_three_chunks :
    ∃ q rest, Process.fresh.exchangeInner Child.alive (.ok ()) "SELECT 1;"
        (answerDeliveries [[0x31, 0x1f, 0xc3], [0xa9, 0x0d, 0x0a, 0x56, 0x45, 0x52]]
          [[0x44, 0x41, 0x4e, 0x54, 0x5f, 0x45, 0x4e, 0x44, 0x0a]] 33) =
        .ok (["1\x1fé\r"].map readLine, q, rest) ∧ q.Ready ∧ ∀ d ∈ rest, d.bytes = [] := by
  apply exchangeInner_rows Process.fresh_ready
  · decide
  · refine ⟨⟨fun _ => rfl, ?_, ?_⟩, ?_, ?_⟩ <;> decide
  · decide

/-- A row line that is the marker but for a carriage return ends the answer instead. -/
theorem exchangeInner_marker_cr : ¬ ∀ (child : Child) (p : Process) (sql : String) (lines : List String)
    (before after : List (List UInt8)) (written : Nat), p.Ready →
    (∀ line ∈ lines, '\n' ∉ line.toList ∧ line ≠ Process.sentEnd) → p.operation.Admits sql (responseBytes lines) →
    (before ++ after).flatten = responseBytes lines →
    ∃ q rest, p.exchangeInner child (.ok ()) sql (answerDeliveries before after written) =
        .ok (lines.map readLine, q, rest) ∧ q.pending = [] := by
  intro h
  obtain ⟨q, rest, hrows, -⟩ := h Child.alive Process.fresh "SELECT 1;" ["VERDANT_END\r"]
    [responseBytes ["VERDANT_END\r"]] [] 33 Process.fresh_ready (by decide)
    ⟨⟨fun _ => rfl, by decide, by decide⟩, by decide, by decide⟩ (by simp)
  have hnone : (Process.fresh.exchangeInner Child.alive (.ok ()) "SELECT 1;"
      (answerDeliveries [responseBytes ["VERDANT_END\r"]] [] 33)).toOption.map (·.1) = some [] := by
    decide +kernel
  rw [hrows] at hnone
  exact nomatch hnone

end Verdant.Storage
