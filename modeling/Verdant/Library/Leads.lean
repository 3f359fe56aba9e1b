import Verdant.Library.Interference
import Verdant.Library.Yields

/-!
# What a call did

`Keeps` speaks of each operation of a program by itself.  `Leads law E G R s p` keeps the list of them: `p`, going on
from `s` under interference, issues its operations inside the law and where `G` holds, and `R` relates the operations it
has issued to its answer.  What is proved of a program once in this form holds of the program in every pool
(`Leads.keeps`), and of its answer together with what it wrote.
-/

namespace Prog

variable {Op : Type} {Answer : Op → Type} {Env State ε α β : Type}

/-- One operation of a program: its environment and the state it met. -/
structure Act (Op Env State : Type) where
  op : Op
  env : Env
  before : State

section Leads

variable (exec : (op : Op) → Env → State → State × Answer op) (law : Law State) (E : Env → Prop)
  (G : Op → Env → State → Prop)

/-- In environments of `E` the program issues its operations inside the law, each where `G` holds, and `R` relates all
of them to its answer. -/
def Leads : (List (Act Op Env State) → State → α → Prop) → State → Prog Answer α → Prop
  | R, s, done a => ∀ t, law.rel s t → R [] t a
  | R, s, call op next => ∀ t, law.rel s t → ∀ env, E env →
      G op env t ∧ law.rel t (exec op env t).1 ∧
        Leads (fun acts => R (⟨op, env, t⟩ :: acts)) (exec op env t).1 (next (exec op env t).2)

variable {exec law E G} {R : List (Act Op Env State) → State → α → Prop}
  {Q : List (Act Op Env State) → State → β → Prop} {s t : State}

theorem leads_done {a : α} (h : ∀ t, law.rel s t → R [] t a) : Leads exec law E G R s (done a : Prog Answer α) := h

theorem leads_issue (op : Op) {R : List (Act Op Env State) → State → Answer op → Prop}
    (h : ∀ t, law.rel s t → ∀ env, E env → G op env t ∧ law.rel t (exec op env t).1 ∧
      ∀ u, law.rel (exec op env t).1 u → R [⟨op, env, t⟩] u (exec op env t).2) :
    Leads exec law E G R s (issue op) := h

theorem Leads.later {p : Prog Answer α} (h : Leads exec law E G R s p) (hst : law.rel s t) :
    Leads exec law E G R t p := by
  cases p with
  | done a => exact fun u hu => h u (law.trans hst hu)
  | call op next => exact fun u hu => h u (law.trans hst hu)

theorem Leads.bind {p : Prog Answer α} {f : α → Prog Answer β} (hp : Leads exec law E G R s p)
    (hf : ∀ acts t a, law.rel s t → (∀ u, law.rel t u → R acts u a) →
      Leads exec law E G (fun more => Q (acts ++ more)) t (f a)) : Leads exec law E G Q s (p >>= f) := by
  induction p generalizing s R Q with
  | done a => exact hf [] s a (law.refl s) hp
  | call op next ih =>
    intro t hst env henv
    obtain ⟨hG, hlaw, hnext⟩ := hp t hst env henv
    refine ⟨hG, hlaw, ih _ hnext fun acts u a hu ha => ?_⟩
    exact hf (⟨op, env, t⟩ :: acts) u a (law.trans (law.trans hst hlaw) hu) ha

theorem Leads.mono {S : List (Act Op Env State) → State → α → Prop} {p : Prog Answer α}
    (hp : Leads exec law E G R s p) (hRS : ∀ acts t a, law.rel s t → R acts t a → S acts t a) :
    Leads exec law E G S s p := by
  induction p generalizing s R S with
  | done a => exact fun t hst => hRS [] t a hst (hp t hst)
  | call op next ih =>
    intro t hst env henv
    obtain ⟨hG, hlaw, hnext⟩ := hp t hst env henv
    refine ⟨hG, hlaw, ih _ hnext fun acts u a hu ha => ?_⟩
    exact hRS _ u a (law.trans (law.trans hst hlaw) hu) ha

/-- Every operation meets a state of the law, and so does the answer. -/
theorem Leads.within {p : Prog Answer α} (hp : Leads exec law E G R s p) :
    Leads exec law E G (fun acts t a => (∀ x ∈ acts, law.rel s x.before) ∧ law.rel s t ∧ R acts t a) s p := by
  induction p generalizing s R with
  | done a => exact leads_done fun t hst => ⟨fun x hx => (nomatch hx), hst, hp t hst⟩
  | call op next ih =>
    intro t hst env henv
    obtain ⟨hG, hlaw, hnext⟩ := hp t hst env henv
    have hsu := law.trans hst hlaw
    refine ⟨hG, hlaw, (ih _ hnext).mono ?_⟩
    rintro acts u a - ⟨hacts, hu, ha⟩
    refine ⟨fun x hx => ?_, law.trans hsu hu, ha⟩
    rcases List.mem_cons.1 hx with rfl | hx
    · exact hst
    · exact law.trans hsu (hacts x hx)

/-- What relates the operations to the answer may be forgotten. -/
theorem Leads.keeps {P : State → α → Prop} {p : Prog Answer α} (hp : Leads exec law E G R s p)
    (hRP : ∀ acts t a, law.rel s t → R acts t a → P t a) : Keeps exec law E G P s p := by
  induction p generalizing s R with
  | done a => exact keeps_done fun t hst => hRP [] t a hst (hp t hst)
  | call op next ih =>
    intro t hst env henv
    obtain ⟨hG, hlaw, hnext⟩ := hp t hst env henv
    exact ⟨hG, hlaw, ih _ hnext fun acts u a hu ha => hRP _ u a (law.trans (law.trans hst hlaw) hu) ha⟩

/-- What holds where each operation is issued holds of all of them. -/
theorem Keeps.leads {G' : Op → Env → State → Prop} {P : State → α → Prop} {p : Prog Answer α}
    (hp : Keeps exec law E G' P s p) (hG : ∀ op env t, law.rel s t → G' op env t → G op env t) :
    Leads exec law E G (fun acts t a => (∀ x ∈ acts, G' x.op x.env x.before) ∧ P t a) s p := by
  induction p generalizing s with
  | done a => exact leads_done fun t hst => ⟨fun x hx => (nomatch hx), hp t hst⟩
  | call op next ih =>
    intro t hst env henv
    obtain ⟨hhere, hlaw, hnext⟩ := hp t hst env henv
    refine ⟨hG op env t hst hhere, hlaw, ?_⟩
    refine (ih _ hnext fun op env u hu => hG op env u (law.trans (law.trans hst hlaw) hu)).mono ?_
    rintro acts u a - ⟨hacts, ha⟩
    refine ⟨fun x hx => ?_, ha⟩
    rcases List.mem_cons.1 hx with rfl | hx
    · exact hhere
    · exact hacts x hx

/-- A program whose operations are all inside the law keeps it. -/
theorem Issues.keeps {O : Op → Prop} {p : Prog Answer α} (hp : p.Issues O)
    (h : ∀ op env t, law.rel s t → O op → E env → G op env t ∧ law.rel t (exec op env t).1) :
    Keeps exec law E G (fun _ _ => True) s p := by
  induction p generalizing s with
  | done a => exact keeps_done fun _ _ => trivial
  | call op next ih =>
    intro t hst env henv
    obtain ⟨hG, hlaw⟩ := h op env t hst hp.1 henv
    refine ⟨hG, hlaw, ih _ (hp.2 _) fun op env u hu => h op env u (law.trans (law.trans hst hlaw) hu)⟩

/-- Its answers are those it yields. -/
theorem Issues.keepsYields {O : Op → Prop} {Q : α → Prop} {p : Prog Answer α} (hp : p.Issues O) (hq : p.Yields Q)
    (h : ∀ op env t, law.rel s t → O op → E env → G op env t ∧ law.rel t (exec op env t).1) :
    Keeps exec law E G (fun _ a => Q a) s p := by
  induction p generalizing s with
  | done a => exact keeps_done fun _ _ => hq
  | call op next ih =>
    intro t hst env henv
    obtain ⟨hG, hlaw⟩ := h op env t hst hp.1 henv
    refine ⟨hG, hlaw, ih _ (hp.2 _) (hq _) fun op env u hu => h op env u (law.trans (law.trans hst hlaw) hu)⟩

/-- A program that keeps the law issues what it issues. -/
theorem Keeps.issuing {O : Op → Prop} {P : State → α → Prop} {p : Prog Answer α} (hp : Keeps exec law E G P s p)
    (hissues : p.Issues O) : Keeps exec law E (fun op _ _ => O op) P s p := by
  induction p generalizing s with
  | done a => exact hp
  | call op next ih =>
    intro t hst env henv
    obtain ⟨-, hlaw, hnext⟩ := hp t hst env henv
    exact ⟨hissues.1, hlaw, ih _ hnext (hissues.2 _)⟩

/-! ### Fallible programs -/

/-- What relates the operations of a fallible program to its answer: `F` to its error, `R` to its value. -/
def onAnswer (F : List (Act Op Env State) → State → ε → Prop) (R : List (Act Op Env State) → State → α → Prop)
    (acts : List (Act Op Env State)) (t : State) : Except ε α → Prop
  | .error e => F acts t e
  | .ok a => R acts t a

variable {F : List (Act Op Env State) → State → ε → Prop}

theorem leads_check {x : Except ε α} (h : ∀ t, law.rel s t → onAnswer F R [] t x) :
    Leads exec law E G (onAnswer F R) s (check x : Try Answer ε α).run := h

theorem Leads.tryBind {H : List (Act Op Env State) → State → ε → Prop} {x : Try Answer ε α} {f : α → Try Answer ε β}
    (hx : Leads exec law E G (onAnswer H R) s x.run)
    (hF : ∀ acts t e, law.rel s t → H acts t e → F acts t e)
    (hf : ∀ acts t a, law.rel s t → (∀ u, law.rel t u → R acts u a) →
      Leads exec law E G (onAnswer (fun more => F (acts ++ more)) fun more => Q (acts ++ more)) t (f a).run) :
    Leads exec law E G (onAnswer F Q) s (x >>= f).run := by
  refine Leads.bind (p := x.run) hx fun acts t r hst hr => ?_
  cases r with
  | error e =>
    refine leads_done fun u hu => ?_
    rw [List.append_nil]
    exact hF acts u e (law.trans hst hu) (hr u hu)
  | ok a =>
    refine (hf acts t a hst hr).mono fun more u r _ h => ?_
    cases r <;> exact h

/-- A result that needs no operation, in front of a program. -/
theorem Leads.checkBind {x : Except ε α} {f : α → Try Answer ε β}
    (herror : ∀ e, x = .error e → ∀ t, law.rel s t → F [] t e)
    (hf : ∀ a, x = .ok a → Leads exec law E G (onAnswer F Q) s (f a).run) :
    Leads exec law E G (onAnswer F Q) s (check x >>= f).run := by
  cases hx : x with
  | error e => exact fun t hst => herror e hx t hst
  | ok a => exact hf a hx

/-- A program that cannot fail, in front of one that can. -/
theorem Leads.liftBind {p : Prog Answer α} {f : α → Try Answer ε β} (hp : Leads exec law E G R s p)
    (hf : ∀ acts t a, law.rel s t → (∀ u, law.rel t u → R acts u a) →
      Leads exec law E G (onAnswer (fun more => F (acts ++ more)) fun more => Q (acts ++ more)) t (f a).run) :
    Leads exec law E G (onAnswer F Q) s ((liftM p : Try Answer ε α) >>= f).run := by
  refine Leads.tryBind (H := fun _ _ _ => False) (R := R) ?_ (fun _ _ _ _ h => h.elim) hf
  refine Leads.bind hp fun acts t a _ ha => leads_done fun u hu => ?_
  rw [List.append_nil]
  exact ha u hu

theorem Leads.mapErr {ε' : Type} {F' : List (Act Op Env State) → State → ε' → Prop} {f : ε → ε'} {x : Try Answer ε α}
    (hx : Leads exec law E G (onAnswer F R) s x.run) (hf : ∀ acts t e, law.rel s t → F acts t e → F' acts t (f e)) :
    Leads exec law E G (onAnswer F' R) s (Prog.mapErr f x).run := by
  refine Leads.bind (p := x.run) hx fun acts t r hst hr => leads_done fun u hu => ?_
  rw [List.append_nil]
  cases r with
  | error e => exact hf acts u e (law.trans hst hu) (hr u hu)
  | ok a => exact hr u hu

end Leads

/-! ### Calls of a pool -/

namespace Pool

/-- The operations the `i`-th call issued. -/
def actsOf (log : List (Issued Op Env State)) (i : Nat) : List (Act Op Env State) :=
  (log.filter fun x => x.call = i).map fun x => ⟨x.op, x.env, x.before⟩

theorem actsOf_append (log more : List (Issued Op Env State)) (i : Nat) :
    actsOf (log ++ more) i = actsOf log i ++ actsOf more i := by
  unfold actsOf
  rw [List.filter_append, List.map_append]

theorem actsOf_of_bounded {log : List (Issued Op Env State)} {n : Nat} (h : ∀ x ∈ log, x.call < n) :
    actsOf log n = [] := by
  unfold actsOf
  rw [List.map_eq_nil_iff, List.filter_eq_nil_iff]
  intro x hx
  have := h x hx
  rw [decide_eq_true_eq]
  omega

theorem mem_actsOf {log : List (Issued Op Env State)} {x : Issued Op Env State} (hx : x ∈ log) :
    ⟨x.op, x.env, x.before⟩ ∈ actsOf log x.call :=
  List.mem_map.2 ⟨x, List.mem_filter.2 ⟨hx, decide_eq_true rfl⟩, rfl⟩

/-- A call that ended stays so. -/
theorem ended_step (exec : (op : Op) → Env → State → State × Answer op) {pool : Pool Answer State α} {i : Nat} {a : α}
    (h : pool.calls[i]? = some (done a)) (event : Event Answer Env α) :
    (pool.step exec event).calls[i]? = some (done a) := by
  cases event with
  | start p =>
    simp only [Pool.step]
    rw [List.getElem?_append_left (List.getElem?_eq_some_iff.1 h).1]
    exact h
  | step j env =>
    simp only [Pool.step]
    split
    · rename_i op next hcall
      have hne : j ≠ i := by
        rintro rfl
        have hsame := h.symm.trans hcall
        cases hsame
      rw [List.getElem?_set_ne hne]
      exact h
    · exact h

/-- What is promised of a call: where it issues its operations, and what relates them to its answer. -/
structure Promise (Op Env State α : Type) where
  grants : Op → Env → State → Prop
  relates : List (Act Op Env State) → State → α → Prop

section Led

variable (exec : (op : Op) → Env → State → State × Answer op) (law : Law State) (E : Env → Prop)

/-- Every call issued its operations of the log where it promised to, and after them leads to what it promised. -/
structure Led (promises : List (Promise Op Env State α)) (log : List (Issued Op Env State))
    (pool : Pool Answer State α) : Prop where
  length : promises.length = pool.calls.length
  issued : ∀ x ∈ log, ∃ promise, promises[x.call]? = some promise ∧ promise.grants x.op x.env x.before
  calls : ∀ (i : Nat) (p : Prog Answer α) (promise : Promise Op Env State α),
    pool.calls[i]? = some p → promises[i]? = some promise →
      Leads exec law E promise.grants (fun acts => promise.relates (actsOf log i ++ acts)) pool.state p

variable {exec law E} {promises : List (Promise Op Env State α)} {log : List (Issued Op Env State)}
  {pool : Pool Answer State α}

theorem led_idle (s : State) : Led exec law E [] [] (idle s : Pool Answer State α) where
  length := rfl
  issued _ hx := nomatch hx
  calls _ _ _ hp := nomatch hp

theorem Led.bounded (h : Led exec law E promises log pool) : ∀ x ∈ log, x.call < pool.calls.length := by
  intro x hx
  obtain ⟨promise, hpromise, -⟩ := h.issued x hx
  rw [← h.length]
  exact (List.getElem?_eq_some_iff.1 hpromise).1

theorem Led.start (h : Led exec law E promises log pool) {p : Prog Answer α} {promise : Promise Op Env State α}
    (hp : Leads exec law E promise.grants promise.relates pool.state p) :
    Led exec law E (promises ++ [promise]) log (pool.step exec (.start p : Event Answer Env α)) where
  length := by simp [Pool.step, h.length]
  issued x hx := by
    obtain ⟨old, hold, hgrants⟩ := h.issued x hx
    refine ⟨old, ?_, hgrants⟩
    rw [List.getElem?_append_left (List.getElem?_eq_some_iff.1 hold).1]
    exact hold
  calls i q other hq hother := by
    simp only [Pool.step, List.getElem?_append] at hq
    rw [List.getElem?_append, h.length] at hother
    by_cases hi : i < pool.calls.length
    · rw [if_pos hi] at hq hother
      exact h.calls i q other hq hother
    · rw [if_neg hi] at hq hother
      obtain rfl := List.mem_singleton.1 (List.mem_of_getElem? hq)
      obtain rfl := List.mem_singleton.1 (List.mem_of_getElem? hother)
      have hplace : i - pool.calls.length = 0 := by
        have := (List.getElem?_eq_some_iff.1 hq).1
        simpa using this
      obtain rfl : i = pool.calls.length := by omega
      rw [actsOf_of_bounded h.bounded]
      exact hp

/-- The operation of a call is one of its own, and inside the law for the others. -/
theorem Led.step (h : Led exec law E promises log pool) {i : Nat} {env : Env} (henv : E env) :
    law.rel pool.state (pool.step exec (.step i env : Event Answer Env α)).state ∧
      Led exec law E promises (log ++ pool.issued (.step i env)) (pool.step exec (.step i env)) := by
  rcases issued_cases exec pool (.step i env) with ⟨hissued, -⟩ | ⟨j, op, e, next, hev, hcall, hissued, hnext⟩
  · have hsame : pool.step exec (.step i env : Event Answer Env α) = pool := by
      simp only [Pool.step, Pool.issued] at hissued ⊢
      split
      · rename_i op next hcall
        rw [hcall] at hissued
        cases hissued
      · rfl
    rw [hissued, hsame, List.append_nil]
    exact ⟨law.refl _, h⟩
  · cases hev
    rw [hissued, hnext]
    obtain ⟨promise, hpromise⟩ : ∃ promise, promises[i]? = some promise := by
      have hi : i < promises.length := by
        rw [h.length]
        exact (List.getElem?_eq_some_iff.1 hcall).1
      exact ⟨promises[i], List.getElem?_eq_getElem hi⟩
    obtain ⟨hgrants, hlaw, hrest⟩ := h.calls i _ promise hcall hpromise pool.state (law.refl _) env henv
    refine ⟨hlaw, by rw [List.length_set]; exact h.length, fun x hx => ?_, fun k p other hp hother => ?_⟩
    · rcases List.mem_append.1 hx with hx | hx
      · exact h.issued x hx
      · rw [List.mem_singleton.1 hx]
        exact ⟨promise, hpromise, hgrants⟩
    · rw [List.getElem?_set] at hp
      rw [actsOf_append]
      by_cases hik : i = k
      · subst hik
        rw [if_pos rfl, if_pos (List.getElem?_eq_some_iff.1 hcall).1] at hp
        obtain rfl := Option.some.inj hp
        obtain rfl := Option.some.inj (hpromise.symm.trans hother)
        have hown : actsOf [(⟨i, op, env, pool.state⟩ : Issued Op Env State)] i = [⟨op, env, pool.state⟩] := by
          simp [actsOf]
        rw [hown]
        simpa using hrest
      · rw [if_neg hik] at hp
        have hforeign : actsOf [(⟨i, op, env, pool.state⟩ : Issued Op Env State)] k = [] := by
          simp [actsOf, hik]
        rw [hforeign, List.append_nil]
        exact (h.calls k p other hp hother).later hlaw

/-- What a call that ended answered. -/
theorem Led.answer (h : Led exec law E promises log pool) {i : Nat} {a : α} {promise : Promise Op Env State α}
    (ha : pool.calls[i]? = some (done a)) (hpromise : promises[i]? = some promise) {t : State}
    (ht : law.rel pool.state t) : promise.relates (actsOf log i) t a := by
  have hdone : promise.relates (actsOf log i ++ []) t a := h.calls i _ promise ha hpromise t ht
  rwa [List.append_nil] at hdone

end Led

end Pool

end Prog
