import Verdant.Library.Prog

/-!
# Fallible client programs

A fallible program is a program that ends with an error or a value; `ExceptT` sequences it, so an error ends the whole
program.  The rules here take a run that ended with a value apart along the sequence, and walk the operations a fallible
program issues.
-/

namespace Prog

variable {Op : Type} {Answer : Op → Type} {Env State ε ε' α β : Type}

/-- A fallible program. -/
abbrev Try (Answer : Op → Type) (ε α : Type) := ExceptT ε (Prog Answer) α

/-- The program of a result that needs no operation. -/
def check (x : Except ε α) : Try Answer ε α := ExceptT.mk (done x)

/-- A program whose answers are results. -/
def attempt (p : Prog Answer (Except ε α)) : Try Answer ε α := ExceptT.mk p

/-- The program with its error renamed. -/
def mapErr (f : ε → ε') (x : Try Answer ε α) : Try Answer ε' α := ExceptT.mk (x.run >>= fun a => done (a.mapError f))

section Runs

variable {exec : (op : Op) → Env → State → State × Answer op} {E : Env → Prop} {s t : State}

theorem runs_check {x : Except ε α} {result : Option (Except ε α)} :
    Runs exec E (check x : Try Answer ε α).run s t result ↔ t = s ∧ result = some x := runs_done

theorem run_try_bind (exec : (op : Op) → Env → State → State × Answer op) (x : Try Answer ε α) (f : α → Try Answer ε β)
    (es : List Env) (s : State) :
    (x >>= f).run.run exec es s =
      match x.run.run exec es s with
      | (t, none) => (t, none)
      | (t, some (.error e, rest)) => (t, some (.error e, rest))
      | (t, some (.ok a, rest)) => (f a).run.run exec rest t := by
  refine (run_bind exec x.run _ es s).trans ?_
  rcases x.run.run exec es s with ⟨t, _ | ⟨e | a, rest⟩⟩
  · rfl
  · rfl
  · rfl

theorem run_try_ok {exec : (op : Op) → Env → State → State × Answer op} {x : Try Answer ε α} {f : α → Try Answer ε β}
    {es rest : List Env} {s t : State} {b : β} :
    (x >>= f).run.run exec es s = (t, some (.ok b, rest)) ↔
      ∃ a u more, x.run.run exec es s = (u, some (.ok a, more)) ∧
        (f a).run.run exec more u = (t, some (.ok b, rest)) := by
  rw [run_try_bind]
  rcases x.run.run exec es s with ⟨u, _ | ⟨e | a, more⟩⟩
  · simp
  · simp
  · simp

/-- A run that ended with a value ends with it under another name for errors. -/
theorem run_mapErr_ok {exec : (op : Op) → Env → State → State × Answer op} {x : Try Answer ε α} {es rest : List Env}
    {s t : State} {a : α} (h : x.run.run exec es s = (t, some (.ok a, rest))) (f : ε → ε') :
    (mapErr f x).run.run exec es s = (t, some (.ok a, rest)) := by
  refine (run_bind exec x.run _ es s).trans ?_
  rw [h]
  rfl

theorem check_bind_ok (a : α) (f : α → Try Answer ε β) : (check (.ok a) : Try Answer ε α) >>= f = f a := rfl

/-- A sequence that ended with a value: its first part did, and the rest from where it stopped. -/
theorem runs_try_ok {x : Try Answer ε α} {f : α → Try Answer ε β} {b : β}
    (h : Runs exec E (x >>= f).run s t (some (.ok b))) :
    ∃ a u, Runs exec E x.run s u (some (.ok a)) ∧ Runs exec E (f a).run u t (some (.ok b)) := by
  rcases runs_bind h with ⟨-, hnone⟩ | ⟨r, u, hx, hf⟩
  · exact nomatch hnone
  cases r with
  | error e =>
    obtain ⟨-, hresult⟩ := runs_done.1 hf
    exact nomatch hresult
  | ok a => exact ⟨a, u, hx, hf⟩

theorem runs_check_ok {x : Except ε α} {f : α → Try Answer ε β} {b : β}
    (h : Runs exec E (check x >>= f).run s t (some (.ok b))) :
    ∃ a, x = .ok a ∧ Runs exec E (f a).run s t (some (.ok b)) := by
  obtain ⟨a, u, hx, hf⟩ := runs_try_ok h
  obtain ⟨rfl, hresult⟩ := runs_check.1 hx
  exact ⟨a, (Option.some.inj hresult).symm, hf⟩

theorem runs_lift_ok {p : Prog Answer α} {f : α → Try Answer ε β} {b : β}
    (h : Runs exec E ((liftM p : Try Answer ε α) >>= f).run s t (some (.ok b))) :
    ∃ a u, Runs exec E p s u (some a) ∧ Runs exec E (f a).run u t (some (.ok b)) := by
  obtain ⟨a, u, hx, hf⟩ := runs_try_ok h
  rcases runs_bind hx with ⟨-, hnone⟩ | ⟨c, v, hp, hc⟩
  · exact nomatch hnone
  obtain ⟨rfl, hresult⟩ := runs_done.1 hc
  obtain rfl : a = c := by simpa using hresult
  exact ⟨a, u, hp, hf⟩

/-- A sequence that did not end with a value: its first part did not, or the rest did not. -/
theorem runs_try_stop {x : Try Answer ε α} {f : α → Try Answer ε β} {result : Option (Except ε β)}
    (h : Runs exec E (x >>= f).run s t result) :
    (Runs exec E x.run s t none ∧ result = none) ∨
      (∃ e, Runs exec E x.run s t (some (.error e)) ∧ result = some (.error e)) ∨
      ∃ a u, Runs exec E x.run s u (some (.ok a)) ∧ Runs exec E (f a).run u t result := by
  rcases runs_bind h with ⟨hx, hnone⟩ | ⟨r, u, hx, hf⟩
  · exact .inl ⟨hx, hnone⟩
  cases r with
  | error e =>
    obtain ⟨rfl, rfl⟩ := runs_done.1 hf
    exact .inr (.inl ⟨e, hx, rfl⟩)
  | ok a => exact .inr (.inr ⟨a, u, hx, hf⟩)

theorem runs_mapErr_ok {f : ε → ε'} {x : Try Answer ε α} {a : α}
    (h : Runs exec E (mapErr f x).run s t (some (.ok a))) : Runs exec E x.run s t (some (.ok a)) := by
  rcases runs_bind h with ⟨-, hnone⟩ | ⟨r, u, hx, hf⟩
  · exact nomatch hnone
  obtain ⟨rfl, hr⟩ := runs_done.1 hf
  cases r with
  | error e => exact nomatch hr
  | ok b =>
    cases hr
    exact hx

theorem runs_mapErr_error {f : ε → ε'} {x : Try Answer ε α} {e' : ε'}
    (h : Runs exec E (mapErr f x).run s t (some (.error e'))) :
    ∃ e, e' = f e ∧ Runs exec E x.run s t (some (.error e)) := by
  rcases runs_bind h with ⟨-, hnone⟩ | ⟨r, u, hx, hf⟩
  · exact nomatch hnone
  obtain ⟨rfl, hr⟩ := runs_done.1 hf
  cases r with
  | error e =>
    cases hr
    exact ⟨e, rfl, hx⟩
  | ok b => exact nomatch hr

end Runs

section Issues

variable {Q : Op → Prop}

theorem issues_check {x : Except ε α} : (check x : Try Answer ε α).run.Issues Q := trivial

theorem Issues.tryBind {x : Try Answer ε α} {f : α → Try Answer ε β} (hx : x.run.Issues Q)
    (hf : ∀ a, (f a).run.Issues Q) : (x >>= f).run.Issues Q := by
  refine Issues.bind (p := x.run) hx fun r => ?_
  cases r with
  | error e => exact trivial
  | ok a => exact hf a

theorem issues_lift {p : Prog Answer α} (h : p.Issues Q) : (liftM p : Try Answer ε α).run.Issues Q :=
  Issues.bind h fun _ => trivial

theorem Issues.mapErr {f : ε → ε'} {x : Try Answer ε α} (hx : x.run.Issues Q) : (Prog.mapErr f x).run.Issues Q :=
  Issues.bind (p := x.run) hx fun _ => trivial

end Issues

end Prog
