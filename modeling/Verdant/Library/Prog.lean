import Mathlib

/-!
# Client programs over a shared resource

A program issues operations on a resource one at a time and goes on with their answers.  Each operation is atomic and
takes one environment, which decides everything the program does not: faults, clocks, fresh names.  `Prog.run` runs one
program alone on a list of environments and stops where the list ends, so a crash between any two operations is a run
on a shorter list.  A `Pool` runs any number of programs in any interleaving of their operations.
-/

inductive Prog {Op : Type} (Answer : Op → Type) (α : Type) where
  | done (a : α)
  | call (op : Op) (next : Answer op → Prog Answer α)

namespace Prog

variable {Op : Type} {Answer : Op → Type} {Env State α β : Type}

protected def bind : Prog Answer α → (α → Prog Answer β) → Prog Answer β
  | done a, f => f a
  | call op next, f => call op fun answer => (next answer).bind f

instance : Monad (Prog Answer) where
  pure := done
  bind := Prog.bind

/-- The program that issues one operation. -/
def issue (op : Op) : Prog Answer (Answer op) := call op done

@[simp] theorem pure_eq (a : α) : (pure a : Prog Answer α) = done a := rfl
@[simp] theorem done_bind (a : α) (f : α → Prog Answer β) : done a >>= f = f a := rfl
@[simp] theorem call_bind (op : Op) (next : Answer op → Prog Answer α) (f : α → Prog Answer β) :
    call op next >>= f = call op fun answer => next answer >>= f := rfl
@[simp] theorem issue_bind (op : Op) (f : Answer op → Prog Answer β) : issue op >>= f = call op f := rfl

theorem bind_bind {γ : Type} (p : Prog Answer α) (f : α → Prog Answer β) (g : β → Prog Answer γ) :
    p >>= f >>= g = p >>= fun a => f a >>= g := by
  induction p with
  | done a => rfl
  | call op next ih =>
    rw [call_bind, call_bind, call_bind]
    exact congrArg (call op) (funext ih)

theorem bind_done (p : Prog Answer α) : p >>= done = p := by
  induction p with
  | done a => rfl
  | call op next ih => exact congrArg (call op) (funext ih)

/-! ### Which operations a program issues -/

/-- Every operation the program can issue, whatever it is answered, satisfies `Q`. -/
def Issues (Q : Op → Prop) : Prog Answer α → Prop
  | done _ => True
  | call op next => Q op ∧ ∀ answer, (next answer).Issues Q

section Issues

variable {Q : Op → Prop}

@[simp] theorem issues_done (a : α) : (done a : Prog Answer α).Issues Q := trivial

theorem issues_issue {op : Op} (h : Q op) : (issue op : Prog Answer (Answer op)).Issues Q := ⟨h, fun _ => trivial⟩

theorem Issues.bind {p : Prog Answer α} {f : α → Prog Answer β} (hp : p.Issues Q) (hf : ∀ a, (f a).Issues Q) :
    (p >>= f).Issues Q := by
  induction p with
  | done a => exact hf a
  | call op next ih => exact ⟨hp.1, fun answer => ih answer (hp.2 answer)⟩

theorem Issues.mono {R : Op → Prop} (h : ∀ op, Q op → R op) {p : Prog Answer α} (hp : p.Issues Q) : p.Issues R := by
  induction p with
  | done a => exact trivial
  | call op next ih => exact ⟨h op hp.1, fun answer => ih answer (hp.2 answer)⟩

end Issues

/-! ### One program alone -/

/-- Runs the program on the environments; no result when they end before the program does. -/
def run (exec : (op : Op) → Env → State → State × Answer op) :
    Prog Answer α → List Env → State → State × Option (α × List Env)
  | done a, es, s => (s, some (a, es))
  | call _ _, [], s => (s, none)
  | call op next, e :: es, s => (next (exec op e s).2).run exec es (exec op e s).1

section Run

variable (exec : (op : Op) → Env → State → State × Answer op)

theorem run_bind (p : Prog Answer α) (f : α → Prog Answer β) (es : List Env) (s : State) :
    (p >>= f).run exec es s =
      match p.run exec es s with
      | (t, none) => (t, none)
      | (t, some (a, rest)) => (f a).run exec rest t := by
  induction p generalizing es s with
  | done a => rfl
  | call op next ih =>
    cases es with
    | nil => rfl
    | cons e es => exact ih (exec op e s).2 es (exec op e s).1

/-- A run of the program alone in environments of `E`, from `s` to `t`, with its result unless it crashed. -/
def Runs (E : Env → Prop) (p : Prog Answer α) (s t : State) (result : Option α) : Prop :=
  ∃ es, (∀ e ∈ es, E e) ∧ (p.run exec es s).1 = t ∧ (p.run exec es s).2.map Prod.fst = result

variable {exec} {E : Env → Prop}

theorem runs_done {a : α} {s t : State} {result : Option α} :
    Runs exec E (done a : Prog Answer α) s t result ↔ t = s ∧ result = some a := by
  constructor
  · rintro ⟨es, -, rfl, rfl⟩
    exact ⟨rfl, rfl⟩
  · rintro ⟨rfl, rfl⟩
    exact ⟨[], by simp, rfl, rfl⟩

theorem runs_call {op : Op} {next : Answer op → Prog Answer α} {s t : State} {result : Option α} :
    Runs exec E (call op next) s t result ↔ (t = s ∧ result = none) ∨
      ∃ e, E e ∧ Runs exec E (next (exec op e s).2) (exec op e s).1 t result := by
  constructor
  · rintro ⟨es, hes, rfl, rfl⟩
    cases es with
    | nil => exact .inl ⟨rfl, rfl⟩
    | cons e es =>
      exact .inr ⟨e, hes e List.mem_cons_self, es, fun e he => hes e (List.mem_cons_of_mem _ he), rfl, rfl⟩
  · rintro (⟨rfl, rfl⟩ | ⟨e, he, es, hes, rfl, rfl⟩)
    · exact ⟨[], by simp, rfl, rfl⟩
    · exact ⟨e :: es, by simpa [he] using hes, rfl, rfl⟩

theorem runs_issue {op : Op} {s t : State} {result : Option (Answer op)} :
    Runs exec E (issue op) s t result ↔ (t = s ∧ result = none) ∨
      ∃ e, E e ∧ t = (exec op e s).1 ∧ result = some (exec op e s).2 := by
  rw [issue, runs_call]
  simp only [runs_done]

theorem run_subset {p : Prog Answer α} {es rest : List Env} {s t : State} {a : α}
    (h : p.run exec es s = (t, some (a, rest))) : ∀ e ∈ rest, e ∈ es := by
  induction p generalizing es s with
  | done b =>
    cases h
    exact fun e he => he
  | call op next ih =>
    cases es with
    | nil => exact nomatch h
    | cons e es => exact fun e' he' => List.mem_cons_of_mem _ (ih _ h e' he')

theorem runs_bind {p : Prog Answer α} {f : α → Prog Answer β} {s t : State} {result : Option β}
    (h : Runs exec E (p >>= f) s t result) :
    (Runs exec E p s t none ∧ result = none) ∨ ∃ a u, Runs exec E p s u (some a) ∧ Runs exec E (f a) u t result := by
  obtain ⟨es, hes, hstate, hresult⟩ := h
  rw [run_bind] at hstate hresult
  rcases hrun : p.run exec es s with ⟨u, _ | ⟨a, rest⟩⟩
  · rw [hrun] at hstate hresult
    exact .inl ⟨⟨es, hes, by rw [hrun]; exact hstate, by rw [hrun]; rfl⟩, hresult.symm⟩
  · rw [hrun] at hstate hresult
    exact .inr ⟨a, u, ⟨es, hes, by rw [hrun], by rw [hrun]; rfl⟩, rest, fun e he => hes e (run_subset hrun e he),
      hstate, hresult⟩

/-- An invariant every issued operation keeps holds after any run, crashed or not. -/
theorem Runs.invariant {Q : Op → Prop} {Inv : State → Prop}
    (hstep : ∀ op e s, Q op → Inv s → Inv (exec op e s).1)
    {p : Prog Answer α} (hp : p.Issues Q) {s t : State} {result : Option α} (h : Runs exec E p s t result)
    (hs : Inv s) : Inv t := by
  induction p generalizing s with
  | done a => rw [(runs_done.1 h).1]; exact hs
  | call op next ih =>
    rcases runs_call.1 h with ⟨rfl, -⟩ | ⟨e, -, h⟩
    · exact hs
    · exact ih _ (hp.2 _) h (hstep op e s hp.1 hs)

end Run

/-! ### Any number of programs -/

/-- The resource and what is left of the programs started on it. -/
structure Pool (Answer : Op → Type) (State α : Type) where
  state : State
  calls : List (Prog Answer α)

/-- A program starts, or the `i`-th one issues its next operation. -/
inductive Event (Answer : Op → Type) (Env α : Type) where
  | start (program : Prog Answer α)
  | step (i : Nat) (env : Env)

namespace Pool

variable (exec : (op : Op) → Env → State → State × Answer op)

/-- A pool on which no program has started. -/
def idle (s : State) : Pool Answer State α := ⟨s, []⟩

def step (pool : Pool Answer State α) : Event Answer Env α → Pool Answer State α
  | .start program => { pool with calls := pool.calls ++ [program] }
  | .step i env =>
    match pool.calls[i]? with
    | some (call op next) =>
      ⟨(exec op env pool.state).1, pool.calls.set i (next (exec op env pool.state).2)⟩
    | _ => pool

def after (pool : Pool Answer State α) (events : List (Event Answer Env α)) : Pool Answer State α :=
  events.foldl (step exec) pool

/-- The operation an event issues: the call it belongs to, its environment and the state it meets. -/
structure Issued (Op Env State : Type) where
  call : Nat
  op : Op
  env : Env
  before : State

def issued (pool : Pool Answer State α) : Event Answer Env α → List (Issued Op Env State)
  | .start _ => []
  | .step i env =>
    match pool.calls[i]? with
    | some (call op _) => [⟨i, op, env, pool.state⟩]
    | _ => []

/-- The operations issued along the events, in order. -/
def trace : Pool Answer State α → List (Event Answer Env α) → List (Issued Op Env State)
  | _, [] => []
  | pool, event :: events => pool.issued event ++ (pool.step exec event).trace events

variable {exec}

@[simp] theorem after_nil (pool : Pool Answer State α) : pool.after exec [] = pool := rfl

@[simp] theorem after_append (pool : Pool Answer State α) (a b : List (Event Answer Env α)) :
    pool.after exec (a ++ b) = (pool.after exec a).after exec b := List.foldl_append

/-- Every call of the pool only issues operations of `Q` from here on. -/
def AllIssue (Q : Op → Prop) (pool : Pool Answer State α) : Prop := ∀ p ∈ pool.calls, p.Issues Q

variable (exec) in
/-- What a step of a pool does: nothing, one program more, or one operation of a running call. -/
theorem step_cases {Q : Op → Prop} {pool : Pool Answer State α} {event : Event Answer Env α}
    (hcalls : pool.AllIssue Q) (hstart : ∀ p, event = .start p → p.Issues Q) :
    (pool.step exec event).AllIssue Q ∧
      ((pool.step exec event).state = pool.state ∨
        ∃ op env, Q op ∧ (pool.step exec event).state = (exec op env pool.state).1) := by
  cases event with
  | start program =>
    refine ⟨fun p hp => ?_, .inl rfl⟩
    rcases List.mem_append.1 hp with hp | hp
    · exact hcalls p hp
    · rw [List.mem_singleton.1 hp]
      exact hstart program rfl
  | step i env =>
    simp only [step]
    split
    · rename_i op next hcall
      have hissues : (call op next).Issues Q := hcalls _ (List.mem_of_getElem? hcall)
      refine ⟨fun p hp => ?_, .inr ⟨op, env, hissues.1, rfl⟩⟩
      rcases List.mem_or_eq_of_mem_set hp with hp | rfl
      · exact hcalls p hp
      · exact hissues.2 _
    · exact ⟨hcalls, .inl rfl⟩

theorem AllIssue.after (exec : (op : Op) → Env → State → State × Answer op) {Q : Op → Prop} {pool : Pool Answer State α}
    (h : pool.AllIssue Q) (events : List (Event Answer Env α)) (hstart : ∀ p, .start p ∈ events → p.Issues Q) :
    (pool.after exec events).AllIssue Q := by
  induction events generalizing pool with
  | nil => exact h
  | cons event events ih =>
    have hfirst : ∀ p, event = .start p → p.Issues Q := fun p hp => hstart p (hp ▸ List.mem_cons_self)
    exact ih (step_cases exec h hfirst).1 fun p hp => hstart p (List.mem_cons_of_mem _ hp)

/-- An invariant every issued operation keeps holds in every state of every interleaving. -/
theorem invariant {Q : Op → Prop} {Inv : State → Prop}
    (hstep : ∀ op env s, Q op → Inv s → Inv (exec op env s).1)
    (events : List (Event Answer Env α)) (hstart : ∀ p, .start p ∈ events → p.Issues Q)
    {pool : Pool Answer State α} (hcalls : pool.AllIssue Q) (hpool : Inv pool.state) :
    Inv (pool.after exec events).state ∧ (pool.after exec events).AllIssue Q := by
  induction events generalizing pool with
  | nil => exact ⟨hpool, hcalls⟩
  | cons event events ih =>
    have hfirst : ∀ p, event = .start p → p.Issues Q := fun p hp => hstart p (hp ▸ List.mem_cons_self)
    obtain ⟨hcalls', hstate⟩ := step_cases exec hcalls hfirst
    refine ih (fun p hp => hstart p (List.mem_cons_of_mem _ hp)) hcalls' ?_
    rcases hstate with hstate | ⟨op, env, hop, hstate⟩
    · rw [hstate]
      exact hpool
    · rw [hstate]
      exact hstep op env _ hop hpool

/-! ### The operations of an interleaving -/

section Trace

variable (exec)

/-- The state a list of issued operations leads to. -/
def replay (s : State) (issued : List (Issued Op Env State)) : State :=
  issued.foldl (fun s x => (exec x.op x.env s).1) s

theorem replay_append (s : State) (a b : List (Issued Op Env State)) :
    replay exec s (a ++ b) = replay exec (replay exec s a) b := List.foldl_append

theorem issued_cases (pool : Pool Answer State α) (event : Event Answer Env α) :
    (pool.issued event = [] ∧ (pool.step exec event).state = pool.state) ∨
      ∃ i op env next, event = .step i env ∧ pool.calls[i]? = some (call op next) ∧
        pool.issued event = [⟨i, op, env, pool.state⟩] ∧
        pool.step exec event = ⟨(exec op env pool.state).1, pool.calls.set i (next (exec op env pool.state).2)⟩ := by
  cases event with
  | start program => exact .inl ⟨rfl, rfl⟩
  | step i env =>
    rcases hcall : pool.calls[i]? with _ | ⟨a⟩ | ⟨op, next⟩
    · exact .inl ⟨by simp [issued, hcall], by simp [step, hcall]⟩
    · exact .inl ⟨by simp [issued, hcall], by simp [step, hcall]⟩
    · exact .inr ⟨i, op, env, next, rfl, hcall, by simp [issued, hcall], by simp [step, hcall]⟩

theorem issued_singleton {pool : Pool Answer State α} {event : Event Answer Env α} {x : Issued Op Env State}
    (h : pool.issued event = [x]) :
    x.before = pool.state ∧ (pool.step exec event).state = (exec x.op x.env pool.state).1 := by
  rcases issued_cases exec pool event with ⟨hissued, -⟩ | ⟨i, op, env, next, -, -, hissued, hstep⟩
  · rw [hissued] at h
    exact nomatch h
  · rw [hissued] at h
    cases h
    exact ⟨rfl, by rw [hstep]⟩

theorem trace_append (pool : Pool Answer State α) (a b : List (Event Answer Env α)) :
    pool.trace exec (a ++ b) = pool.trace exec a ++ (pool.after exec a).trace exec b := by
  induction a generalizing pool with
  | nil => rfl
  | cons event events ih =>
    simp only [List.cons_append, trace, ih, List.append_assoc]
    rfl

/-- An issued operation met the environment of one of the events. -/
theorem step_of_mem_trace {pool : Pool Answer State α} {events : List (Event Answer Env α)}
    {x : Issued Op Env State} (h : x ∈ pool.trace exec events) : .step x.call x.env ∈ events := by
  induction events generalizing pool with
  | nil => exact nomatch h
  | cons event events ih =>
    rw [trace, List.mem_append] at h
    rcases h with h | h
    · rcases issued_cases exec pool event with ⟨hissued, -⟩ | ⟨i, op, env, next, rfl, -, hissued, -⟩
      · rw [hissued] at h
        exact nomatch h
      · rw [hissued, List.mem_singleton] at h
        rw [h]
        exact List.mem_cons_self
    · exact List.mem_cons_of_mem _ (ih h)

theorem after_state (pool : Pool Answer State α) (events : List (Event Answer Env α)) :
    (pool.after exec events).state = replay exec pool.state (pool.trace exec events) := by
  induction events generalizing pool with
  | nil => rfl
  | cons event events ih =>
    rw [trace, replay_append]
    refine (ih _).trans ?_
    congr 1
    rcases issued_cases exec pool event with ⟨hissued, hstate⟩ | ⟨i, op, env, next, -, -, hissued, hstep⟩
    · rw [hissued, hstate]
      rfl
    · rw [hissued, hstep]
      rfl

/-- Every issued operation belongs to one event, issued in the state that event met. -/
theorem trace_split {pool : Pool Answer State α} {events : List (Event Answer Env α)}
    {front back : List (Issued Op Env State)} {x : Issued Op Env State}
    (h : pool.trace exec events = front ++ x :: back) :
    ∃ a event b, events = a ++ event :: b ∧ pool.trace exec a = front ∧ (pool.after exec a).issued event = [x] := by
  induction events generalizing pool front with
  | nil => simp [trace] at h
  | cons event events ih =>
    rw [trace] at h
    rcases issued_cases exec pool event with ⟨hissued, -⟩ | ⟨i, op, env, next, -, -, hissued, -⟩
    · rw [hissued, List.nil_append] at h
      obtain ⟨a, e, b, rfl, hfront, hx⟩ := ih h
      exact ⟨event :: a, e, b, rfl, by rw [trace, hissued, hfront, List.nil_append], hx⟩
    · rw [hissued, List.singleton_append] at h
      cases front with
      | nil =>
        rw [List.nil_append, List.cons.injEq] at h
        exact ⟨[], event, events, rfl, rfl, hissued.trans (by rw [h.1])⟩
      | cons y front =>
        rw [List.cons_append, List.cons.injEq] at h
        obtain ⟨a, e, b, rfl, hfront, hx⟩ := ih h.2
        exact ⟨event :: a, e, b, rfl, by rw [trace, hissued, hfront, List.singleton_append, h.1], hx⟩

/-- As `invariant`, where each issued operation need only keep the invariant in the environment it met. -/
theorem trace_invariant {Q : Op → Prop} {Inv : State → Prop} (events : List (Event Answer Env α))
    (hstart : ∀ p, .start p ∈ events → p.Issues Q) {pool : Pool Answer State α} (hcalls : pool.AllIssue Q)
    (hstep : ∀ x ∈ pool.trace exec events, Q x.op → Inv x.before → Inv (exec x.op x.env x.before).1)
    (hpool : Inv pool.state) : Inv (pool.after exec events).state := by
  induction events generalizing pool with
  | nil => exact hpool
  | cons event events ih =>
    have hfirst : ∀ p, event = .start p → p.Issues Q := fun p hp => hstart p (hp ▸ List.mem_cons_self)
    refine ih (fun p hp => hstart p (List.mem_cons_of_mem _ hp)) (step_cases exec hcalls hfirst).1
      (fun x hx => hstep x (List.mem_append_right _ hx)) ?_
    rcases issued_cases exec pool event with ⟨-, hstate⟩ | ⟨i, op, env, next, -, hcall, hissued, hnext⟩
    · rw [hstate]
      exact hpool
    · have hop : (call op next).Issues Q := hcalls _ (List.mem_of_getElem? hcall)
      have hmem : (⟨i, op, env, pool.state⟩ : Issued Op Env State) ∈ pool.trace exec (event :: events) := by
        rw [trace, hissued]
        exact List.mem_cons_self
      rw [hnext]
      exact hstep _ hmem hop.1 hpool

/-- What holds at the end and not at the start, one of the issued operations makes true. -/
theorem exists_made {P : State → Prop} {s : State} {issued : List (Issued Op Env State)} (hs : ¬ P s)
    (hend : P (replay exec s issued)) :
    ∃ front x back, issued = front ++ x :: back ∧ ¬ P (replay exec s front) ∧
      P (exec x.op x.env (replay exec s front)).1 := by
  induction issued generalizing s with
  | nil => exact absurd hend hs
  | cons x issued ih =>
    by_cases hmade : P (exec x.op x.env s).1
    · exact ⟨[], x, issued, rfl, hs, hmade⟩
    · obtain ⟨front, y, back, rfl, hfront, hy⟩ := ih hmade hend
      exact ⟨x :: front, y, back, rfl, hfront, hy⟩

end Trace

end Pool

end Prog
