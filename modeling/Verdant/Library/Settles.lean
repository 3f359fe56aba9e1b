import Verdant.Library.TryProg

/-!
# Programs that only read

A fallible program settles on a result in a state when it leaves the state, answers that result in every calm
environment, and in any other environment answers it or fails.  Programs that only read settle; the rules here build
their results along the program.
-/

namespace Prog

variable {Op : Type} {Answer : Op → Type} {Env State ε ε' α β : Type}

/-- Every program has a run to its end. -/
theorem exists_run {exec : (op : Op) → Env → State → State × Answer op} {E : Env → Prop} (hE : ∃ e, E e)
    (p : Prog Answer α) (s : State) : ∃ t a, Runs exec E p s t (some a) := by
  obtain ⟨e, he⟩ := hE
  induction p generalizing s with
  | done a => exact ⟨s, a, runs_done.2 ⟨rfl, rfl⟩⟩
  | call op next ih =>
    obtain ⟨t, a, hrun⟩ := ih (exec op e s).2 (exec op e s).1
    exact ⟨t, a, runs_call.2 (.inr ⟨e, he, hrun⟩)⟩

/-- In `s` the program changes nothing, and answers `x` unless the environment makes it fail. -/
structure Settles (exec : (op : Op) → Env → State → State × Answer op) (Calm : Env → Prop) (p : Try Answer ε α)
    (s : State) (x : Except ε α) : Prop where
  value : ∀ (E : Env → Prop) (t : State) (a : α), Runs exec E p.run s t (some (.ok a)) → t = s ∧ x = .ok a
  calm : ∀ (E : Env → Prop) (t : State) (r : Except ε α), (∀ e, E e → Calm e) → Runs exec E p.run s t (some r) →
    t = s ∧ r = x

section Rules

variable {exec : (op : Op) → Env → State → State × Answer op} {Calm : Env → Prop} {s : State}

theorem settles_check (x : Except ε α) : Settles exec Calm (check x : Try Answer ε α) s x where
  value E t a h := by
    obtain ⟨rfl, hx⟩ := runs_check.1 h
    exact ⟨rfl, (Option.some.inj hx).symm⟩
  calm E t r _ h := by
    obtain ⟨rfl, hx⟩ := runs_check.1 h
    exact ⟨rfl, Option.some.inj hx⟩

theorem Settles.bind {p : Try Answer ε α} {f : α → Try Answer ε β} {x : Except ε α} {g : α → Except ε β}
    (hp : Settles exec Calm p s x) (hf : ∀ a, x = .ok a → Settles exec Calm (f a) s (g a)) :
    Settles exec Calm (p >>= f) s (x >>= g) where
  value E t b h := by
    obtain ⟨a, u, hfirst, hrest⟩ := runs_try_ok h
    obtain ⟨rfl, rfl⟩ := hp.value E u a hfirst
    exact (hf a rfl).value E t b hrest
  calm E t r hE h := by
    rcases runs_try_stop h with ⟨-, hnone⟩ | ⟨e, hfirst, hr⟩ | ⟨a, u, hfirst, hrest⟩
    · exact nomatch hnone
    · obtain ⟨rfl, rfl⟩ := hp.calm E t _ hE hfirst
      exact ⟨rfl, Option.some.inj hr⟩
    · obtain ⟨rfl, rfl⟩ := hp.calm E u _ hE hfirst
      exact (hf a rfl).calm E t r hE hrest

theorem Settles.mapErr {p : Try Answer ε α} {x : Except ε α} (hp : Settles exec Calm p s x) (f : ε → ε') :
    Settles exec Calm (Prog.mapErr f p) s (x.mapError f) where
  value E t a h := by
    obtain ⟨ht, hx⟩ := hp.value E t a (runs_mapErr_ok h)
    rw [hx]
    exact ⟨ht, rfl⟩
  calm E t r hE h := by
    rcases runs_bind h with ⟨-, hnone⟩ | ⟨y, u, hrun, hdone⟩
    · exact nomatch hnone
    · obtain ⟨rfl, rfl⟩ := hp.calm E u y hE hrun
      obtain ⟨rfl, hr⟩ := runs_done.1 hdone
      exact ⟨rfl, Option.some.inj hr⟩

theorem Settles.foldlM {f : β → α → Try Answer ε β} {g : β → α → Except ε β} {xs : List α}
    (h : ∀ a ∈ xs, ∀ b, Settles exec Calm (f b a) s (g b a)) (b : β) :
    Settles exec Calm (xs.foldlM f b) s (xs.foldlM g b) := by
  induction xs generalizing b with
  | nil => exact settles_check (.ok b)
  | cons x xs ih =>
    rw [List.foldlM_cons, List.foldlM_cons]
    exact (h x List.mem_cons_self b).bind fun c _ => ih (fun a ha => h a (List.mem_cons_of_mem _ ha)) c

end Rules

end Prog
