import Verdant.Library.Result
import Verdant.Library.TryProg

/-!
# What a program answers

`Yields Q p` says that every answer of `p` satisfies `Q`, whatever its operations are answered; `Refuses F x` is the same of
the errors of a fallible program.
-/

namespace Prog

variable {Op : Type} {Answer : Op → Type} {Env State ε α β : Type}

def Yields (Q : α → Prop) : Prog Answer α → Prop
  | done a => Q a
  | call _ next => ∀ answer, (next answer).Yields Q

theorem Yields.bind {R : α → Prop} {Q : β → Prop} {p : Prog Answer α} {f : α → Prog Answer β} (hp : p.Yields R)
    (hf : ∀ a, R a → (f a).Yields Q) : (p >>= f).Yields Q := by
  induction p with
  | done a => exact hf a hp
  | call op next ih => exact fun answer => ih answer (hp answer)

/-- What depends on an answer issues what it issues after such an answer. -/
theorem Issues.bindYields {I : Op → Prop} {R : α → Prop} {p : Prog Answer α} {f : α → Prog Answer β} (hp : p.Issues I)
    (hy : p.Yields R) (hf : ∀ a, R a → (f a).Issues I) : (p >>= f).Issues I := by
  induction p with
  | done a => exact hf a hy
  | call op next ih => exact ⟨hp.1, fun answer => ih answer (hp.2 answer) (hy answer)⟩

theorem Yields.mono {R Q : α → Prop} (h : ∀ a, R a → Q a) {p : Prog Answer α} (hp : p.Yields R) : p.Yields Q := by
  induction p with
  | done a => exact h a hp
  | call op next ih => exact fun answer => ih answer (hp answer)

/-- A run that ends, ends with such an answer. -/
theorem Yields.run {Q : α → Prop} {p : Prog Answer α} (hp : p.Yields Q)
    {exec : (op : Op) → Env → State → State × Answer op} {es rest : List Env} {s t : State} {a : α}
    (h : p.run exec es s = (t, some (a, rest))) : Q a := by
  induction p generalizing es s with
  | done b =>
    have hb : (s, some (b, es)) = (t, some (a, rest)) := by
      cases es <;> exact h
    cases hb
    exact hp
  | call op next ih =>
    cases es with
    | nil => exact nomatch h
    | cons e es => exact ih _ (hp _) h

/-- The values of a fallible program. -/
def Returns (R : α → Prop) (x : Try Answer ε α) : Prop := x.run.Yields fun r => ∀ a, r = .ok a → R a

theorem returns_check {x : Except ε α} : Returns (fun a => x = .ok a) (check x : Try Answer ε α) := fun _ h => h

theorem Returns.mono {R Q : α → Prop} {x : Try Answer ε α} (hx : Returns R x) (h : ∀ a, R a → Q a) : Returns Q x :=
  Yields.mono (fun _ hr a ha => h a (hr a ha)) hx

theorem Returns.tryBind {R : α → Prop} {Q : β → Prop} {x : Try Answer ε α} {f : α → Try Answer ε β} (hx : Returns R x)
    (hf : ∀ a, R a → Returns Q (f a)) : Returns Q (x >>= f) := by
  refine Yields.bind (p := x.run) hx fun r hr => ?_
  cases r with
  | error e => exact fun b h => nomatch h
  | ok a => exact hf a (hr a rfl)

theorem Issues.tryReturns {I : Op → Prop} {R : α → Prop} {x : Try Answer ε α} {f : α → Try Answer ε β}
    (hx : x.run.Issues I) (hr : Returns R x) (hf : ∀ a, R a → (f a).run.Issues I) : (x >>= f).run.Issues I := by
  refine Issues.bindYields (p := x.run) hx hr fun r hr => ?_
  cases r with
  | error e => exact trivial
  | ok a => exact hf a (hr a rfl)

/-- What every step of a fold keeps, the fold returns. -/
theorem returns_foldlM {I : β → Prop} {f : β → α → Try Answer ε β} (hf : ∀ b a, I b → Returns I (f b a)) {b : β} (hb : I b)
    {xs : List α} : Returns I (xs.foldlM f b) := by
  induction xs generalizing b with
  | nil =>
    rintro c ⟨⟩
    exact hb
  | cons x xs ih =>
    rw [List.foldlM_cons]
    exact Returns.tryBind (hf b x hb) fun c hc => ih hc

theorem issues_foldlM {I : Op → Prop} {f : β → α → Try Answer ε β} (hf : ∀ b a, (f b a).run.Issues I) {b : β}
    {xs : List α} : (xs.foldlM f b).run.Issues I := by
  induction xs generalizing b with
  | nil => exact trivial
  | cons x xs ih =>
    rw [List.foldlM_cons]
    exact Issues.tryBind (hf b x) fun c => ih

/-- The errors of a fallible program. -/
def Refuses (F : ε → Prop) (x : Try Answer ε α) : Prop := x.run.Yields (Result.Fails F)

variable {F : ε → Prop}

theorem refuses_check {x : Except ε α} (h : Result.Fails F x) : Refuses F (check x : Try Answer ε α) := h

theorem refuses_issue {op : Op} : Refuses F (liftM (issue op) : Try Answer ε (Answer op)) := fun _ => .ok

theorem Refuses.tryBind {x : Try Answer ε α} {f : α → Try Answer ε β} (hx : Refuses F x) (hf : ∀ a, Refuses F (f a)) :
    Refuses F (x >>= f) := by
  refine Yields.bind (p := x.run) hx fun r hr => ?_
  cases r with
  | error e =>
    have herror : Result.Fails F (Except.error e : Except ε β) := .error (hr e rfl)
    exact herror
  | ok a => exact hf a

theorem refuses_pure (a : α) : Refuses F (pure a : Try Answer ε α) := .ok

end Prog
