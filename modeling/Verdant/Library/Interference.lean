import Verdant.Library.TryProg

/-!
# Programs under interference

Any number of parties issue operations on one resource, and between two operations of one of them the others may have
done anything a `Law` allows: a preorder that every change of every party is an instance of.  `Keeps law E G P s p` says
that the program `p`, going on from `s` under such interference and meeting environments of `E`, issues every operation
inside the law and where `G` holds of it, and that `P` holds of its answer from then on.  In a pool whose programs all keep one law, every operation
of every interleaving is inside the law (`Pool.keeps_after`), and a call's answer satisfies what its program promised
when it started (`Pool.answer_of_start`).
-/

/-- A preorder every change of a resource obeys. -/
structure Law (State : Type) where
  rel : State → State → Prop
  refl : ∀ s, rel s s
  trans : ∀ {s t u}, rel s t → rel t u → rel s u

namespace Law

variable {State : Type}

/-- The changes that keep `Inv`, once it holds, and are steps of the preorder `grows`. -/
def keeping (Inv : State → Prop) (grows : State → State → Prop) (refl : ∀ s, grows s s)
    (trans : ∀ {s t u}, grows s t → grows t u → grows s u) : Law State where
  rel s t := Inv s → Inv t ∧ grows s t
  refl s hs := ⟨hs, refl s⟩
  trans hst htu hs := by
    obtain ⟨ht, hgrows⟩ := hst hs
    obtain ⟨hu, hmore⟩ := htu ht
    exact ⟨hu, trans hgrows hmore⟩

end Law

namespace Prog

variable {Op : Type} {Answer : Op → Type} {Env State ε α β : Type}

section Keeps

variable (exec : (op : Op) → Env → State → State × Answer op) (law : Law State) (E : Env → Prop)
  (G : Op → Env → State → Prop)

/-- In environments of `E` the program issues its operations inside the law, each where `G` holds, and ends with `P`. -/
def Keeps (P : State → α → Prop) : State → Prog Answer α → Prop
  | s, done a => ∀ t, law.rel s t → P t a
  | s, call op next => ∀ t, law.rel s t → ∀ env, E env →
      G op env t ∧ law.rel t (exec op env t).1 ∧ Keeps P (exec op env t).1 (next (exec op env t).2)

variable {exec law E G} {P : State → α → Prop} {Q : State → β → Prop} {s t : State}

theorem keeps_done {a : α} (h : ∀ t, law.rel s t → P t a) : Keeps exec law E G P s (done a : Prog Answer α) := h

theorem keeps_call {op : Op} {next : Answer op → Prog Answer α}
    (h : ∀ t, law.rel s t → ∀ env, E env → G op env t ∧ law.rel t (exec op env t).1 ∧
      Keeps exec law E G P (exec op env t).1 (next (exec op env t).2)) :
    Keeps exec law E G P s (call op next) := h

/-- A program that keeps the law from one state keeps it from every later one. -/
theorem Keeps.later {p : Prog Answer α} (h : Keeps exec law E G P s p) (hst : law.rel s t) :
    Keeps exec law E G P t p := by
  cases p with
  | done a => exact fun u hu => h u (law.trans hst hu)
  | call op next => exact fun u hu => h u (law.trans hst hu)

theorem Keeps.bind {p : Prog Answer α} {f : α → Prog Answer β} (hp : Keeps exec law E G P s p)
    (hf : ∀ t a, law.rel s t → (∀ u, law.rel t u → P u a) → Keeps exec law E G Q t (f a)) :
    Keeps exec law E G Q s (p >>= f) := by
  induction p generalizing s with
  | done a => exact hf s a (law.refl s) hp
  | call op next ih =>
    intro t hst env henv
    obtain ⟨hG, hlaw, hnext⟩ := hp t hst env henv
    refine ⟨hG, hlaw, ih _ hnext fun u a hu ha => hf u a ?_ ha⟩
    exact law.trans (law.trans hst hlaw) hu

theorem Keeps.mono {R : State → α → Prop} {p : Prog Answer α} (hp : Keeps exec law E G P s p)
    (hPR : ∀ t a, law.rel s t → (∀ u, law.rel t u → P u a) → R t a) : Keeps exec law E G R s p := by
  induction p generalizing s with
  | done a => exact fun t hst => hPR t a hst fun u hu => hp u (law.trans hst hu)
  | call op next ih =>
    intro t hst env henv
    obtain ⟨hG, hlaw, hnext⟩ := hp t hst env henv
    refine ⟨hG, hlaw, ih _ hnext fun u a hu ha => hPR u a ?_ ha⟩
    exact law.trans (law.trans hst hlaw) hu

/-- A program that issues its operations where `G` holds issues them where anything weaker does. -/
theorem Keeps.weaken {G' : Op → Env → State → Prop} {p : Prog Answer α} (hp : Keeps exec law E G P s p)
    (h : ∀ op env t, G op env t → G' op env t) : Keeps exec law E G' P s p := by
  induction p generalizing s with
  | done a => exact hp
  | call op next ih =>
    intro t hst env henv
    obtain ⟨hG, hlaw, hnext⟩ := hp t hst env henv
    exact ⟨h op env t hG, hlaw, ih _ hnext⟩

/-- One operation: inside the law wherever the others left the resource, and answered from there. -/
theorem keeps_issue {op : Op} {P : State → Answer op → Prop}
    (h : ∀ t, law.rel s t → ∀ env, E env → G op env t ∧ law.rel t (exec op env t).1 ∧
      ∀ u, law.rel (exec op env t).1 u → P u (exec op env t).2) :
    Keeps exec law E G P s (issue op) := h

/-- An operation that leaves the resource as it is. -/
theorem keeps_look {op : Op} (hlook : ∀ env t, (exec op env t).1 = t) {P : State → Answer op → Prop}
    (hG : ∀ env t, E env → G op env t)
    (h : ∀ t, law.rel s t → ∀ env, E env → ∀ u, law.rel t u → P u (exec op env t).2) :
    Keeps exec law E G P s (issue op) := by
  intro t hst env henv
  rw [hlook]
  exact ⟨hG env t henv, law.refl t, h t hst env henv⟩

/-- What a fallible program's answer satisfies: `F` its error, `P` its value. -/
def onResult (F : State → ε → Prop) (P : State → α → Prop) (t : State) : Except ε α → Prop
  | .error e => F t e
  | .ok a => P t a

variable {F : State → ε → Prop}

theorem keeps_check {x : Except ε α} (h : ∀ t, law.rel s t → onResult F P t x) :
    Keeps exec law E G (onResult F P) s (check x : Try Answer ε α).run := h

theorem Keeps.tryBind {x : Try Answer ε α} {f : α → Try Answer ε β} (hx : Keeps exec law E G (onResult F P) s x.run)
    (hf : ∀ t a, law.rel s t → (∀ u, law.rel t u → P u a) → Keeps exec law E G (onResult F Q) t (f a).run) :
    Keeps exec law E G (onResult F Q) s (x >>= f).run := by
  refine Keeps.bind (p := x.run) hx fun t r hst hr => ?_
  cases r with
  | error e => exact keeps_done hr
  | ok a => exact hf t a hst hr

/-- A result that needs no operation, in front of a program. -/
theorem Keeps.checkBind {x : Except ε α} {f : α → Try Answer ε β}
    (herror : ∀ e, x = .error e → ∀ t, law.rel s t → F t e)
    (hf : ∀ a, x = .ok a → Keeps exec law E G (onResult F Q) s (f a).run) :
    Keeps exec law E G (onResult F Q) s (check x >>= f).run := by
  cases hx : x with
  | error e => exact fun t hst => herror e hx t hst
  | ok a => exact hf a hx

/-- A program that cannot fail, in front of one that can. -/
theorem Keeps.liftBind {p : Prog Answer α} {f : α → Try Answer ε β} (hp : Keeps exec law E G P s p)
    (hf : ∀ t a, law.rel s t → (∀ u, law.rel t u → P u a) → Keeps exec law E G (onResult F Q) t (f a).run) :
    Keeps exec law E G (onResult F Q) s ((liftM p : Try Answer ε α) >>= f).run := by
  exact Keeps.tryBind (Keeps.bind hp fun t a _ ha => keeps_done ha) hf

theorem Keeps.lift {p : Prog Answer α} (hp : Keeps exec law E G P s p) :
    Keeps exec law E G (onResult F P) s (liftM p : Try Answer ε α).run :=
  Keeps.bind hp fun _ _ _ ha => keeps_done ha

theorem Keeps.mapErr {ε' : Type} {F' : State → ε' → Prop} {f : ε → ε'} {x : Try Answer ε α}
    (hx : Keeps exec law E G (onResult F P) s x.run) (hf : ∀ t e, law.rel s t → F t e → F' t (f e)) :
    Keeps exec law E G (onResult F' P) s (Prog.mapErr f x).run := by
  refine Keeps.bind (p := x.run) hx fun t r hst hr => ?_
  cases r with
  | error e => exact keeps_done fun u hu => hf u e (law.trans hst hu) (hr u hu)
  | ok a => exact keeps_done hr

end Keeps

/-! ### Pools -/

namespace Pool

section Lawful

variable {exec : (op : Op) → Env → State → State × Answer op} {law : Law State} {E : Env → Prop}
  {G : Op → Env → State → Prop}
variable {P : State → α → Prop}

/-- Every program of the pool keeps the law from some state of the past on. -/
def Lawful (exec : (op : Op) → Env → State → State × Answer op) (law : Law State) (E : Env → Prop)
  (G : Op → Env → State → Prop)
    (P : State → α → Prop) (pool : Pool Answer State α) : Prop :=
  ∀ p ∈ pool.calls, Keeps exec law E G P pool.state p

theorem lawful_idle (s : State) : Lawful exec law E G P (idle s : Pool Answer State α) := by
  intro p hp
  exact nomatch hp

theorem Lawful.step {pool : Pool Answer State α} (hpool : pool.Lawful exec law E G P) {event : Event Answer Env α}
    (hstart : ∀ p, event = .start p → Keeps exec law E G P pool.state p) (hE : ∀ i env, event = .step i env → E env) :
    law.rel pool.state (pool.step exec event).state ∧ (pool.step exec event).Lawful exec law E G P ∧
      ∀ x ∈ pool.issued event, G x.op x.env x.before ∧ x.before = pool.state ∧
        (exec x.op x.env x.before).1 = (pool.step exec event).state := by
  cases event with
  | start program =>
    refine ⟨law.refl _, fun p hp => ?_, fun x hx => nomatch hx⟩
    rcases List.mem_append.1 hp with hp | hp
    · exact hpool p hp
    · rw [List.mem_singleton.1 hp]
      exact hstart program rfl
  | step i env =>
    rcases issued_cases exec pool (.step i env) with ⟨hissued, hstate⟩ | ⟨j, op, e, next, hev, hcall, hissued, hnext⟩
    · refine ⟨?_, fun p hp => ?_, fun x hx => ?_⟩
      · rw [hstate]
        exact law.refl _
      · rw [hstate]
        simp only [Pool.step] at hp
        split at hp
        · rename_i op next hcall
          simp [issued, hcall] at hissued
        · exact hpool p hp
      · rw [hissued] at hx
        cases hx
    · obtain ⟨rfl, rfl⟩ := Event.step.inj hev
      obtain ⟨hG, hlaw, hkeeps⟩ := hpool _ (List.mem_of_getElem? hcall) pool.state (law.refl _) env
        (hE i env rfl)
      rw [hnext, hissued]
      refine ⟨hlaw, fun p hp => ?_, fun x hx => ?_⟩
      · rcases List.mem_or_eq_of_mem_set hp with hp | rfl
        · exact (hpool p hp).later hlaw
        · exact hkeeps
      · rw [List.mem_singleton.1 hx]
        exact ⟨hG, rfl, rfl⟩

/-- The programs that start along the events keep the law from where they start. -/
def StartsKeep (exec : (op : Op) → Env → State → State × Answer op) (law : Law State) (E : Env → Prop)
  (G : Op → Env → State → Prop)
    (P : State → α → Prop) (pool : Pool Answer State α) (events : List (Event Answer Env α)) : Prop :=
  ∀ a p b, events = a ++ .start p :: b → (pool.after exec a).Lawful exec law E G P →
    law.rel pool.state (pool.after exec a).state → Keeps exec law E G P (pool.after exec a).state p

theorem StartsKeep.tail {pool : Pool Answer State α} {event : Event Answer Env α} {events : List (Event Answer Env α)}
    (h : StartsKeep exec law E G P pool (event :: events)) (hlaw : law.rel pool.state (pool.step exec event).state) :
    StartsKeep exec law E G P (pool.step exec event) events := by
  intro a p b hevents hlawful hrel
  exact h (event :: a) p b (by rw [hevents]; rfl) hlawful (law.trans hlaw hrel)

/-- The environments an interleaving meets, in the calls `who` picks out. -/
def Meets (E : Env → Prop) (who : Nat → Prop) (events : List (Event Answer Env α)) : Prop :=
  ∀ i env, who i → .step i env ∈ events → E env

theorem Meets.head {who : Nat → Prop} {event : Event Answer Env α} {events : List (Event Answer Env α)}
    (h : Meets E who (event :: events)) {i : Nat} {env : Env} (hi : who i) (hevent : event = .step i env) : E env := by
  refine h i env hi ?_
  rw [hevent]
  exact List.mem_cons_self

theorem Meets.tail {who : Nat → Prop} {event : Event Answer Env α} {events : List (Event Answer Env α)}
    (h : Meets E who (event :: events)) : Meets E who events :=
  fun i env hi henv => h i env hi (List.mem_cons_of_mem _ henv)

/-- Every operation of every interleaving is inside the law, and issued where `G` holds. -/
theorem keeps_after {pool : Pool Answer State α} (hpool : pool.Lawful exec law E G P)
    (events : List (Event Answer Env α)) (hstarts : StartsKeep exec law E G P pool events)
    (hE : Meets E (fun _ => True) events) :
    law.rel pool.state (pool.after exec events).state ∧ (pool.after exec events).Lawful exec law E G P ∧
      ∀ x ∈ pool.trace exec events, G x.op x.env x.before ∧ law.rel pool.state x.before ∧
        law.rel (exec x.op x.env x.before).1 (pool.after exec events).state := by
  induction events generalizing pool with
  | nil => exact ⟨law.refl _, hpool, fun x hx => nomatch hx⟩
  | cons event events ih =>
    have hstart : ∀ p, event = .start p → Keeps exec law E G P pool.state p := by
      rintro p rfl
      exact hstarts [] p events rfl hpool (law.refl _)
    obtain ⟨hlaw, hnext, hissued⟩ := hpool.step hstart fun i env => hE.head trivial
    obtain ⟨hrest, hlawful, htrace⟩ := ih hnext (hstarts.tail hlaw) hE.tail
    refine ⟨law.trans hlaw hrest, hlawful, fun x hx => ?_⟩
    rw [trace, List.mem_append] at hx
    rcases hx with hx | hx
    · obtain ⟨hG, hbefore, hafter⟩ := hissued x hx
      refine ⟨hG, ?_, ?_⟩
      · rw [hbefore]
        exact law.refl _
      · rw [hafter]
        exact hrest
    · obtain ⟨hG, hbefore, hafter⟩ := htrace x hx
      exact ⟨hG, law.trans hlaw hbefore, hafter⟩

/-- Every operation of every interleaving is itself a step of the law. -/
theorem issued_lawful {pool : Pool Answer State α} (hpool : pool.Lawful exec law E G P)
    (events : List (Event Answer Env α)) (hstarts : StartsKeep exec law E G P pool events)
    (hE : Meets E (fun _ => True) events) :
    ∀ x ∈ pool.trace exec events, law.rel x.before (exec x.op x.env x.before).1 := by
  induction events generalizing pool with
  | nil => exact fun x hx => nomatch hx
  | cons event events ih =>
    have hstart : ∀ p, event = .start p → Keeps exec law E G P pool.state p := by
      rintro p rfl
      exact hstarts [] p events rfl hpool (law.refl _)
    obtain ⟨hlaw, hnext, hissued⟩ := hpool.step hstart fun i env => hE.head trivial
    intro x hx
    rw [trace, List.mem_append] at hx
    rcases hx with hx | hx
    · obtain ⟨-, hbefore, hafter⟩ := hissued x hx
      rw [hafter, hbefore]
      exact hlaw
    · exact ih hnext (hstarts.tail hlaw) hE.tail x hx

section Call

variable {E' : Env → Prop} {G' : Op → Env → State → Prop} {R : State → α → Prop}

/-- A call that has not ended still keeps what its program promised in the environments it meets. -/
theorem call_keeps {pool : Pool Answer State α} (hpool : pool.Lawful exec law E G P)
    {events : List (Event Answer Env α)} (hstarts : StartsKeep exec law E G P pool events)
    (hE : Meets E (fun _ => True) events) {i : Nat} (hmeets : Meets E' (· = i) events) {p : Prog Answer α}
    (hcall : pool.calls[i]? = some p) (hp : Keeps exec law E' G' R pool.state p) :
    ∃ q, (pool.after exec events).calls[i]? = some q ∧ Keeps exec law E' G' R (pool.after exec events).state q := by
  induction events generalizing pool p with
  | nil => exact ⟨p, hcall, hp⟩
  | cons event events ih =>
    have hstart : ∀ p, event = .start p → Keeps exec law E G P pool.state p := by
      rintro p rfl
      exact hstarts [] p events rfl hpool (law.refl _)
    obtain ⟨hlaw, hnext, -⟩ := hpool.step hstart fun i env => hE.head trivial
    have hgoes := fun {p} => @ih (pool.step exec event) hnext (hstarts.tail hlaw) hE.tail hmeets.tail p
    cases event with
    | start program =>
      refine hgoes (p := p) ?_ (hp.later hlaw)
      have hlt := (List.getElem?_eq_some_iff.1 hcall).1
      simpa [Pool.step, List.getElem?_append_left hlt] using hcall
    | step j env =>
      rcases issued_cases exec pool (.step j env) with ⟨hissued, -⟩ | ⟨k, op, e, next, hev, hcall', -, hnext'⟩
      · refine hgoes (p := p) ?_ (hp.later hlaw)
        simp only [Pool.step]
        split
        · rename_i op next hcall'
          simp [issued, hcall'] at hissued
        · exact hcall
      · obtain ⟨rfl, rfl⟩ := Event.step.inj hev
        by_cases hij : j = i
        · -- the tracked call goes on with the answer of this operation
          subst hij
          rw [hcall] at hcall'
          obtain rfl := Option.some.inj hcall'
          obtain ⟨-, -, hkeeps⟩ := hp pool.state (law.refl _) env (hmeets.head rfl rfl)
          refine hgoes (p := next (exec op env pool.state).2) ?_ ?_
          · rw [hnext']
            exact List.getElem?_set_self (List.getElem?_eq_some_iff.1 hcall).1
          · rw [hnext']
            exact hkeeps
        · refine hgoes (p := p) ?_ (hp.later hlaw)
          rw [hnext', List.getElem?_set_ne hij]
          exact hcall

/-- The answer of a call satisfies what its program promised when it started. -/
theorem answer_of_start {pool : Pool Answer State α} (hpool : pool.Lawful exec law E G P)
    {a b : List (Event Answer Env α)} {p : Prog Answer α}
    (hstarts : StartsKeep exec law E G P pool (a ++ .start p :: b))
    (hE : Meets E (fun _ => True) (a ++ .start p :: b)) (hmeets : Meets E' (· = (pool.after exec a).calls.length) b)
    (hp : Keeps exec law E' G' R (pool.after exec a).state p) {result : α}
    (hresult : (pool.after exec (a ++ .start p :: b)).calls[(pool.after exec a).calls.length]? =
      some (done result)) : R (pool.after exec (a ++ .start p :: b)).state result := by
  have hfront : StartsKeep exec law E G P pool a := by
    rintro x q y rfl
    exact hstarts x q (y ++ .start p :: b) (by simp)
  obtain ⟨hlaw, hlawful, -⟩ := keeps_after hpool a hfront fun i env hi h => hE i env hi (List.mem_append_left _ h)
  have hback : StartsKeep exec law E G P (pool.after exec a) (.start p :: b) := by
    intro x q y hxy hl hrel
    have happ : pool.after exec (a ++ x) = (pool.after exec a).after exec x := after_append pool a x
    rw [← happ] at hl hrel ⊢
    exact hstarts (a ++ x) q y (by rw [hxy]; simp) hl (law.trans hlaw hrel)
  have hfirst : ∀ q, (Event.start p : Event Answer Env α) = .start q → Keeps exec law E G P (pool.after exec a).state q := by
    rintro q ⟨⟩
    exact hback [] p b rfl hlawful (law.refl _)
  have hstep := hlawful.step hfirst fun i env h => nomatch h
  have hcall : ((pool.after exec a).step exec (.start p)).calls[(pool.after exec a).calls.length]? = some p := by
    simp [Pool.step]
  have hrest : Meets E (fun _ => True) b := fun i env hi h =>
    hE i env hi (List.mem_append_right _ (List.mem_cons_of_mem _ h))
  obtain ⟨q, hq, hkeeps⟩ := call_keeps hstep.2.1 (hback.tail hstep.1) hrest hmeets hcall (hp.later hstep.1)
  rw [after_append] at hresult ⊢
  have hafter : (pool.after exec a).after exec (.start p :: b) =
      ((pool.after exec a).step exec (.start p)).after exec b := rfl
  rw [hafter] at hresult ⊢
  rw [hq] at hresult
  obtain rfl := Option.some.inj hresult
  exact hkeeps _ (law.refl _)

end Call

end Lawful

/-- What the ended calls of the pool answered, by call. -/
def answers (pool : Pool Answer State α) : List (Option α) :=
  pool.calls.map fun
    | done a => some a
    | call _ _ => none

theorem known_answers {exec : (op : Op) → Env → State → State × Answer op} {law : Law State} {E : Env → Prop}
    {G : Op → Env → State → Prop} {P : State → α → Prop} {pool : Pool Answer State α}
    (h : pool.Lawful exec law E G P) {a : α} (ha : some a ∈ pool.answers) : P pool.state a := by
  obtain ⟨p, hp, heq⟩ := List.mem_map.1 ha
  cases p with
  | done b =>
    obtain rfl := Option.some.inj heq
    exact h _ hp _ (law.refl _)
  | call op next => exact nomatch heq

end Pool

/-! ### Requests -/

/-- A request comes in, or the `i`-th call goes on. -/
inductive Turn (ρ Env : Type) where
  | ask (request : ρ)
  | step (i : Nat) (env : Env)

namespace Pool

section Turns

variable {ρ : Type} (exec : (op : Op) → Env → State → State × Answer op)
  (serve : List (Option α) → ρ → Prog Answer α)

/-- The event of a turn; a request is served on what the calls before it answered. -/
def event (pool : Pool Answer State α) : Turn ρ Env → Event Answer Env α
  | .ask request => .start (serve pool.answers request)
  | .step i env => .step i env

def events : Pool Answer State α → List (Turn ρ Env) → List (Event Answer Env α)
  | _, [] => []
  | pool, turn :: turns => pool.event serve turn :: (pool.step exec (pool.event serve turn)).events turns

/-- The pool after the turns. -/
def played (pool : Pool Answer State α) (turns : List (Turn ρ Env)) : Pool Answer State α :=
  pool.after exec (pool.events exec serve turns)

/-- The operations the turns issued, in order. -/
def issuedBy (pool : Pool Answer State α) (turns : List (Turn ρ Env)) : List (Issued Op Env State) :=
  pool.trace exec (pool.events exec serve turns)

theorem events_append (pool : Pool Answer State α) (a b : List (Turn ρ Env)) :
    pool.events exec serve (a ++ b) = pool.events exec serve a ++ (pool.played exec serve a).events exec serve b := by
  induction a generalizing pool with
  | nil => rfl
  | cons turn turns ih =>
    rw [List.cons_append, events, events, ih]
    rfl

theorem played_append (pool : Pool Answer State α) (a b : List (Turn ρ Env)) :
    pool.played exec serve (a ++ b) = (pool.played exec serve a).played exec serve b := by
  unfold played
  rw [events_append, after_append]
  rfl

theorem issuedBy_append (pool : Pool Answer State α) (a b : List (Turn ρ Env)) :
    pool.issuedBy exec serve (a ++ b) =
      pool.issuedBy exec serve a ++ (pool.played exec serve a).issuedBy exec serve b := by
  unfold issuedBy
  rw [events_append, trace_append]
  rfl

/-- The environments a run meets, in the calls `who` picks out. -/
def TurnsMeet (E : Env → Prop) (who : Nat → Prop) (turns : List (Turn ρ Env)) : Prop :=
  ∀ i env, who i → .step i env ∈ turns → E env

variable {exec serve} {law : Law State} {E : Env → Prop} {G : Op → Env → State → Prop} {P : State → α → Prop}

theorem TurnsMeet.events {who : Nat → Prop} {turns : List (Turn ρ Env)} (h : TurnsMeet E who turns)
    (pool : Pool Answer State α) : Meets E who (pool.events exec serve turns) := by
  induction turns generalizing pool with
  | nil => exact fun i env _ hmem => nomatch hmem
  | cons turn turns ih =>
    intro i env hi hmem
    rcases List.mem_cons.1 hmem with heq | hmem
    · cases turn with
      | ask request => exact nomatch heq
      | step j e =>
        obtain ⟨rfl, rfl⟩ := Event.step.inj heq
        exact h i env hi List.mem_cons_self
    · exact ih (fun j e hj hstep => h j e hj (List.mem_cons_of_mem _ hstep)) _ i env hi hmem

/-- The requests of the turns, if their programs keep the law given what earlier calls answered. -/
theorem startsKeep_asked {pool : Pool Answer State α} {turns : List (Turn ρ Env)}
    (hserve : ∀ s answers r, .ask r ∈ turns → law.rel pool.state s → (∀ a, some a ∈ answers → P s a) →
      Keeps exec law E G P s (serve answers r)) :
    StartsKeep exec law E G P pool (pool.events exec serve turns) := by
  have hgo : ∀ (turns : List (Turn ρ Env)) (now : Pool Answer State α) a p b,
      now.events exec serve turns = a ++ .start p :: b →
        ∃ r, .ask r ∈ turns ∧ p = serve (now.after exec a).answers r := by
    intro turns
    induction turns with
    | nil =>
      intro now a p b h
      simp [events] at h
    | cons turn turns ih =>
      intro now a p b h
      cases a with
      | nil =>
        obtain ⟨hhead, -⟩ := List.cons.inj h
        cases turn with
        | ask request => exact ⟨request, List.mem_cons_self, (Event.start.inj hhead).symm⟩
        | step i env => exact nomatch hhead
      | cons e a =>
        obtain ⟨rfl, htail⟩ := List.cons.inj h
        obtain ⟨r, hr, hp⟩ := ih _ a p b htail
        exact ⟨r, List.mem_cons_of_mem _ hr, hp⟩
  intro a p b hevents hlawful hrel
  obtain ⟨r, hr, rfl⟩ := hgo turns pool a p b hevents
  exact hserve _ _ r hr hrel fun x hx => known_answers hlawful hx

/-- Requests whose programs keep the law, given what earlier calls answered. -/
theorem startsKeep_events {pool : Pool Answer State α}
    (hserve : ∀ s answers r, law.rel pool.state s → (∀ a, some a ∈ answers → P s a) →
      Keeps exec law E G P s (serve answers r)) (turns : List (Turn ρ Env)) :
    StartsKeep exec law E G P pool (pool.events exec serve turns) :=
  startsKeep_asked fun s answers r _ => hserve s answers r

/-- What holds of a whole run whose requests have programs that keep the law. -/
theorem keeps_asked {pool : Pool Answer State α} (hpool : pool.Lawful exec law E G P) {turns : List (Turn ρ Env)}
    (hserve : ∀ s answers r, .ask r ∈ turns → law.rel pool.state s → (∀ a, some a ∈ answers → P s a) →
      Keeps exec law E G P s (serve answers r))
    (hE : TurnsMeet E (fun _ => True) turns) :
    law.rel pool.state (pool.played exec serve turns).state ∧ (pool.played exec serve turns).Lawful exec law E G P ∧
      ∀ x ∈ pool.issuedBy exec serve turns, G x.op x.env x.before ∧ law.rel pool.state x.before ∧
        law.rel (exec x.op x.env x.before).1 (pool.played exec serve turns).state :=
  keeps_after hpool _ (startsKeep_asked hserve) (hE.events pool)

/-- What holds of a whole run of requests whose programs keep the law. -/
theorem keeps_played {pool : Pool Answer State α} (hpool : pool.Lawful exec law E G P)
    (hserve : ∀ s answers r, law.rel pool.state s → (∀ a, some a ∈ answers → P s a) →
      Keeps exec law E G P s (serve answers r)) {turns : List (Turn ρ Env)}
    (hE : TurnsMeet E (fun _ => True) turns) :
    law.rel pool.state (pool.played exec serve turns).state ∧ (pool.played exec serve turns).Lawful exec law E G P ∧
      ∀ x ∈ pool.issuedBy exec serve turns, G x.op x.env x.before ∧ law.rel pool.state x.before ∧
        law.rel (exec x.op x.env x.before).1 (pool.played exec serve turns).state :=
  keeps_asked hpool (fun s answers r _ => hserve s answers r) hE

/-- Every operation of a run is a step of the law. -/
theorem played_lawful {pool : Pool Answer State α} (hpool : pool.Lawful exec law E G P)
    (hserve : ∀ s answers r, law.rel pool.state s → (∀ a, some a ∈ answers → P s a) →
      Keeps exec law E G P s (serve answers r)) {turns : List (Turn ρ Env)}
    (hE : TurnsMeet E (fun _ => True) turns) :
    ∀ x ∈ pool.issuedBy exec serve turns, law.rel x.before (exec x.op x.env x.before).1 :=
  issued_lawful hpool _ (startsKeep_events hserve turns) (hE.events pool)

/-- The answer of a request satisfies what its program promised when it came in. -/
theorem answer_of_ask {pool : Pool Answer State α} (hpool : pool.Lawful exec law E G P)
    (hserve : ∀ s answers r, law.rel pool.state s → (∀ a, some a ∈ answers → P s a) →
      Keeps exec law E G P s (serve answers r)) {front back : List (Turn ρ Env)} {r : ρ}
    (hE : TurnsMeet E (fun _ => True) (front ++ .ask r :: back)) {E' : Env → Prop} {G' : Op → Env → State → Prop}
    {R : State → α → Prop} (hmeets : TurnsMeet E' (· = (pool.played exec serve front).calls.length) back)
    (hp : Keeps exec law E' G' R (pool.played exec serve front).state
      (serve (pool.played exec serve front).answers r)) {a : α}
    (hresult : (pool.played exec serve (front ++ .ask r :: back)).calls[(pool.played exec serve front).calls.length]? =
      some (done a)) : R (pool.played exec serve (front ++ .ask r :: back)).state a := by
  have hevents := events_append exec serve pool front (.ask r :: back)
  have hstarts := startsKeep_events hserve (front ++ .ask r :: back)
  have hmeet : Meets E (fun _ => True) (pool.events exec serve (front ++ .ask r :: back)) := hE.events pool
  unfold played at hresult ⊢
  rw [hevents] at hresult hstarts hmeet ⊢
  exact answer_of_start hpool hstarts hmeet (hmeets.events _) hp hresult

section Requests

variable {H : ρ → Op → Env → State → Prop} {Q : State → α → Prop}

/-- Every call of a run came in with a request, and still keeps what the request promised. -/
theorem call_of_request {pool : Pool Answer State α} (hcalls : pool.calls = []) (hpool : pool.Lawful exec law E G P)
    (hserve : ∀ s answers r, law.rel pool.state s → (∀ a, some a ∈ answers → P s a) →
      Keeps exec law E G P s (serve answers r))
    (hpromise : ∀ s answers r, law.rel pool.state s → (∀ a, some a ∈ answers → P s a) →
      Keeps exec law E (H r) Q s (serve answers r)) {turns : List (Turn ρ Env)}
    (hE : TurnsMeet E (fun _ => True) turns) :
    ∀ i p, (pool.played exec serve turns).calls[i]? = some p → ∃ front r back, turns = front ++ .ask r :: back ∧
      (pool.played exec serve front).calls.length = i ∧
      Keeps exec law E (H r) Q (pool.played exec serve turns).state p := by
  induction turns using List.reverseRecOn with
  | nil =>
    intro i p h
    have hnone : (pool.played exec serve []).calls = [] := hcalls
    rw [hnone] at h
    exact nomatch h
  | append_singleton turns turn ih =>
    have hfront : TurnsMeet E (fun _ => True) turns := fun i env hi hmem => hE i env hi (List.mem_append_left _ hmem)
    obtain ⟨hrel, hlawful, -⟩ := keeps_played hpool hserve hfront
    have hplayed : pool.played exec serve (turns ++ [turn]) =
        (pool.played exec serve turns).step exec ((pool.played exec serve turns).event serve turn) := by
      rw [played_append]
      rfl
    have hold : ∀ i q, (pool.played exec serve turns).calls[i]? = some q → ∃ front r back,
        turns ++ [turn] = front ++ .ask r :: back ∧ (pool.played exec serve front).calls.length = i ∧
          Keeps exec law E (H r) Q (pool.played exec serve turns).state q := by
      intro i q hq
      obtain ⟨front, r, back, hturns, hlen, hkeeps⟩ := ih hfront i q hq
      exact ⟨front, r, back ++ [turn], by rw [hturns]; simp, hlen, hkeeps⟩
    intro i p h
    rw [hplayed] at h ⊢
    cases turn with
    | ask r =>
      have hstate : ((pool.played exec serve turns).step exec ((pool.played exec serve turns).event serve (.ask r))).state =
          (pool.played exec serve turns).state := rfl
      have hnew : ((pool.played exec serve turns).step exec ((pool.played exec serve turns).event serve (.ask r))).calls =
          (pool.played exec serve turns).calls ++ [serve (pool.played exec serve turns).answers r] := rfl
      rw [hnew] at h
      rw [hstate]
      by_cases hi : i < (pool.played exec serve turns).calls.length
      · rw [List.getElem?_append_left hi] at h
        exact hold i p h
      · rw [List.getElem?_append_right (Nat.le_of_not_lt hi), List.getElem?_singleton] at h
        split at h
        · rename_i hzero
          cases h
          refine ⟨turns, r, [], rfl, by omega, hpromise _ _ r hrel fun a ha => known_answers hlawful ha⟩
        · exact nomatch h
    | step j env =>
      have henv : E env := hE j env trivial (by simp)
      rcases issued_cases exec (pool.played exec serve turns) (.step j env) with
        ⟨hissued, -⟩ | ⟨k, op, e, next, hev, hcall, -, hnext⟩
      · have hsame : (pool.played exec serve turns).step exec
            ((pool.played exec serve turns).event serve (.step j env)) = pool.played exec serve turns := by
          simp only [event, step]
          split
          · rename_i op next hcall
            simp [issued, hcall] at hissued
          · rfl
        rw [hsame] at h ⊢
        exact hold i p h
      · obtain ⟨rfl, rfl⟩ := Event.step.inj hev
        have hsame : (pool.played exec serve turns).event serve (.step j env) = .step j env := rfl
        rw [hsame, hnext] at h ⊢
        obtain ⟨-, hlaw, -⟩ := hlawful _ (List.mem_of_getElem? hcall) _ (law.refl _) env henv
        by_cases hij : j = i
        · subst hij
          obtain ⟨front, r, back, hturns, hlen, hkeeps⟩ := hold j _ hcall
          rw [List.getElem?_set_self (List.getElem?_eq_some_iff.1 hcall).1] at h
          obtain rfl := Option.some.inj h
          exact ⟨front, r, back, hturns, hlen, (hkeeps _ (law.refl _) env henv).2.2⟩
        · rw [List.getElem?_set_ne hij] at h
          obtain ⟨front, r, back, hturns, hlen, hkeeps⟩ := hold i p h
          exact ⟨front, r, back, hturns, hlen, hkeeps.later hlaw⟩

/-- Every operation of a run was issued by the call of a request, and where the request promised. -/
theorem issued_of_request {pool : Pool Answer State α} (hcalls : pool.calls = []) (hpool : pool.Lawful exec law E G P)
    (hserve : ∀ s answers r, law.rel pool.state s → (∀ a, some a ∈ answers → P s a) →
      Keeps exec law E G P s (serve answers r))
    (hpromise : ∀ s answers r, law.rel pool.state s → (∀ a, some a ∈ answers → P s a) →
      Keeps exec law E (H r) Q s (serve answers r)) {turns : List (Turn ρ Env)}
    (hE : TurnsMeet E (fun _ => True) turns) {x : Issued Op Env State} (hx : x ∈ pool.issuedBy exec serve turns) :
    ∃ front r back, turns = front ++ .ask r :: back ∧ (pool.played exec serve front).calls.length = x.call ∧
      H r x.op x.env x.before := by
  induction turns using List.reverseRecOn with
  | nil => cases hx
  | append_singleton turns turn ih =>
    have hfront : TurnsMeet E (fun _ => True) turns := fun i env hi hmem => hE i env hi (List.mem_append_left _ hmem)
    rw [issuedBy_append, List.mem_append] at hx
    rcases hx with hx | hx
    · obtain ⟨front, r, back, hturns, hlen, hG⟩ := ih hfront hx
      exact ⟨front, r, back ++ [turn], by rw [hturns]; simp, hlen, hG⟩
    · have hissued : x ∈ (pool.played exec serve turns).issued ((pool.played exec serve turns).event serve turn) := by
        simpa [issuedBy, events, trace] using hx
      rcases issued_cases exec (pool.played exec serve turns) ((pool.played exec serve turns).event serve turn) with
        ⟨hnone, -⟩ | ⟨i, op, env, next, hev, hcall, hone, -⟩
      · rw [hnone] at hissued
        cases hissued
      · rw [hone, List.mem_singleton] at hissued
        have hturn : turn = .step i env := by
          cases turn with
          | ask r => cases hev
          | step j e =>
            obtain ⟨rfl, rfl⟩ := Event.step.inj hev
            rfl
        have henv : E env := hE i env trivial (by simp [hturn])
        obtain ⟨front, r, back, hturns, hlen, hkeeps⟩ := call_of_request hcalls hpool hserve hpromise hfront i _ hcall
        rw [hissued]
        refine ⟨front, r, back ++ [turn], by rw [hturns]; simp, hlen, ?_⟩
        exact (hkeeps _ (law.refl _) env henv).1

end Requests

/-- Of two operations of a run, the later one meets a state the earlier one led to. -/
theorem issued_ordered {pool : Pool Answer State α} (hpool : pool.Lawful exec law E G P)
    (hserve : ∀ s answers r, law.rel pool.state s → (∀ a, some a ∈ answers → P s a) →
      Keeps exec law E G P s (serve answers r)) {turns : List (Turn ρ Env)}
    (hE : TurnsMeet E (fun _ => True) turns) {a b c : List (Issued Op Env State)} {x y : Issued Op Env State}
    (h : pool.issuedBy exec serve turns = a ++ x :: b ++ y :: c) :
    law.rel (exec x.op x.env x.before).1 y.before := by
  have hsplit : pool.trace exec (pool.events exec serve turns) = (a ++ x :: b) ++ y :: c := h
  obtain ⟨front, event, back, hevents, hfront, hissued⟩ := trace_split exec hsplit
  have hy : y.before = (pool.after exec front).state := (issued_singleton exec hissued).1
  have hstarts : StartsKeep exec law E G P pool front := by
    have hall := startsKeep_events hserve turns
    rintro u p v rfl
    exact hall u p (v ++ event :: back) (by rw [hevents]; simp)
  have hall : Meets E (fun _ => True) (pool.events exec serve turns) := hE.events pool
  have hmeets : Meets E (fun _ => True) front := fun i env hi hmem =>
    hall i env hi (by rw [hevents]; exact List.mem_append_left _ hmem)
  obtain ⟨-, -, htrace⟩ := keeps_after hpool front hstarts hmeets
  rw [hy]
  refine (htrace x ?_).2.2
  rw [hfront]
  simp

theorem length_calls_played (exec : (op : Op) → Env → State → State × Answer op)
    (serve : List (Option α) → ρ → Prog Answer α) (pool : Pool Answer State α) (turns : List (Turn ρ Env)) :
    pool.calls.length ≤ (pool.played exec serve turns).calls.length := by
  induction turns generalizing pool with
  | nil => exact Nat.le_refl _
  | cons turn turns ih =>
    have hstep : pool.calls.length ≤ (pool.step exec (pool.event serve turn)).calls.length := by
      cases turn with
      | ask r => simp [event, step]
      | step i env =>
        simp only [event, step]
        split
        · simp
        · exact Nat.le_refl _
    exact Nat.le_trans hstep (ih _)

/-- A call came in with one request. -/
theorem ask_unique (exec : (op : Op) → Env → State → State × Answer op) (serve : List (Option α) → ρ → Prog Answer α)
    (pool : Pool Answer State α) {front front' back back' : List (Turn ρ Env)} {r r' : ρ}
    (h : front ++ .ask r :: back = front' ++ .ask r' :: back')
    (hlen : (pool.played exec serve front).calls.length = (pool.played exec serve front').calls.length) : r = r' := by
  -- the front that is shorter has a call less
  have hmore : ∀ (r : ρ) (u v : List (Turn ρ Env)), (pool.played exec serve u).calls.length <
      (pool.played exec serve (u ++ .ask r :: v)).calls.length := by
    intro r u v
    have hone : ((pool.played exec serve u).played exec serve [.ask r]).calls.length =
        (pool.played exec serve u).calls.length + 1 := by
      simp [played, events, after, event, step]
    have hrest := length_calls_played exec serve ((pool.played exec serve u).played exec serve [.ask r]) v
    rw [← played_append, ← played_append] at hrest
    rw [← played_append] at hone
    simp only [List.append_assoc, List.singleton_append] at hrest hone
    omega
  rcases List.append_eq_append_iff.1 h with ⟨mid, hfront, hback⟩ | ⟨mid, hfront, hback⟩
  · cases mid with
    | nil =>
      simp only [List.nil_append, List.cons.injEq, Turn.ask.injEq] at hback
      exact hback.1
    | cons turn mid =>
      simp only [List.cons_append, List.cons.injEq] at hback
      obtain ⟨rfl, -⟩ := hback
      have hlt := hmore r front mid
      rw [← hfront] at hlt
      omega
  · cases mid with
    | nil =>
      simp only [List.nil_append, List.cons.injEq, Turn.ask.injEq] at hback
      exact hback.1.symm
    | cons turn mid =>
      simp only [List.cons_append, List.cons.injEq] at hback
      obtain ⟨rfl, -⟩ := hback
      have hlt := hmore r' front' mid
      rw [← hfront] at hlt
      omega

/-- What holds at the end of a run and not at its start, one operation of it makes true. -/
theorem played_made (exec : (op : Op) → Env → State → State × Answer op) (serve : List (Option α) → ρ → Prog Answer α)
    {P : State → Prop} (pool : Pool Answer State α) {turns : List (Turn ρ Env)} (hstart : ¬ P pool.state)
    (hend : P (pool.played exec serve turns).state) :
    ∃ x ∈ pool.issuedBy exec serve turns, ¬ P x.before ∧ P (exec x.op x.env x.before).1 := by
  have hafter := after_state exec pool (pool.events exec serve turns)
  unfold played at hend
  rw [hafter] at hend
  obtain ⟨front, x, back, hsplit, hbefore, hmade⟩ := exists_made exec hstart hend
  obtain ⟨a, event, b, -, hfront, hissued⟩ := trace_split exec hsplit
  have hx : x.before = replay exec pool.state front := by
    rw [(issued_singleton exec hissued).1, after_state exec pool a, hfront]
  refine ⟨x, ?_, hx ▸ hbefore, hx ▸ hmade⟩
  unfold issuedBy
  rw [hsplit]
  exact List.mem_append_right _ List.mem_cons_self

section Alone

variable (exec : (op : Op) → Env → State → State × Answer op) (serve : List (Option α) → ρ → Prog Answer α)

/-- A call that goes on alone runs its program. -/
theorem after_steps {pool : Pool Answer State α} {i : Nat} {p : Prog Answer α} (h : pool.calls[i]? = some p)
    (es : List Env) : (pool.after exec (es.map (Event.step i))).state = (p.run exec es pool.state).1 := by
  induction es generalizing pool p with
  | nil => cases p <;> rfl
  | cons e es ih =>
    cases p with
    | done a =>
      have hstep : pool.step exec (.step i e) = pool := by
        simp only [step, h]
      rw [List.map_cons]
      have hafter : pool.after exec (Event.step i e :: es.map (Event.step i)) =
          (pool.step exec (.step i e)).after exec (es.map (Event.step i)) := rfl
      rw [hafter, hstep, ih h]
      cases es <;> rfl
    | call op next =>
      have hlt := (List.getElem?_eq_some_iff.1 h).1
      have hstep : pool.step exec (.step i e) =
          ⟨(exec op e pool.state).1, pool.calls.set i (next (exec op e pool.state).2)⟩ := by
        simp only [step, h]
      have hafter : pool.after exec (Event.step i e :: es.map (Event.step i)) =
          (pool.step exec (.step i e)).after exec (es.map (Event.step i)) := rfl
      have hnext : (pool.step exec (.step i e)).calls[i]? = some (next (exec op e pool.state).2) := by
        rw [hstep]
        exact List.getElem?_set_self hlt
      rw [List.map_cons, hafter, ih hnext, hstep]
      rfl

theorem events_steps (pool : Pool Answer State α) (i : Nat) (es : List Env) :
    pool.events exec serve (es.map (Turn.step i)) = es.map (Event.step i) := by
  induction es generalizing pool with
  | nil => rfl
  | cons e es ih =>
    rw [List.map_cons, events, ih]
    rfl

/-- A request whose call goes on alone runs its program. -/
theorem played_alone (pool : Pool Answer State α) (r : ρ) (es : List Env) :
    (pool.played exec serve (.ask r :: es.map (Turn.step pool.calls.length))).state =
      ((serve pool.answers r).run exec es pool.state).1 := by
  have hcall : (pool.step exec (.start (serve pool.answers r))).calls[pool.calls.length]? =
      some (serve pool.answers r) := by
    simp [step]
  unfold played
  rw [events, events_steps]
  exact after_steps exec hcall es

theorem length_calls_steps (pool : Pool Answer State α) (i : Nat) (es : List Env) :
    (pool.after exec (es.map (Event.step i))).calls.length = pool.calls.length := by
  induction es generalizing pool with
  | nil => rfl
  | cons e es ih =>
    have hstep : (pool.step exec (.step i e)).calls.length = pool.calls.length := by
      simp only [step]
      split
      · simp
      · rfl
    exact (ih _).trans hstep

theorem length_calls_alone (pool : Pool Answer State α) (r : ρ) (i : Nat) (es : List Env) :
    (pool.played exec serve (.ask r :: es.map (Turn.step i))).calls.length = pool.calls.length + 1 := by
  unfold played
  rw [events, events_steps]
  refine (length_calls_steps exec _ i es).trans ?_
  simp [event, step]

end Alone

end Turns

end Pool

end Prog
