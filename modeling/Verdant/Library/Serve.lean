import Verdant.Library.TryProg

/-!
# Programs on a resource of their own

Where the resource decides every answer by itself, a program has one run to its end (`Prog.serve`).  It is the run of any
environments that leave the answers as they are (`Prog.runs_iff_serve`).
-/

namespace Prog

variable {Op : Type} {Answer : Op → Type} {Env State ε α β : Type}

/-- Runs the program to its end. -/
def serve (answer : (op : Op) → State → State × Answer op) : Prog Answer α → State → State × α
  | done a, s => (s, a)
  | call op next, s => (next (answer op s).2).serve answer (answer op s).1

variable {answer : (op : Op) → State → State × Answer op}

theorem serve_bind (p : Prog Answer α) (f : α → Prog Answer β) (s : State) :
    (p >>= f).serve answer s = (f (p.serve answer s).2).serve answer (p.serve answer s).1 := by
  induction p generalizing s with
  | done a => rfl
  | call op next ih => exact ih (answer op s).2 (answer op s).1

theorem serve_try_ok {x : Try Answer ε α} {f : α → Try Answer ε β} {s t : State} {a : α}
    (h : x.run.serve answer s = (t, .ok a)) : (x >>= f).run.serve answer s = (f a).run.serve answer t := by
  refine (serve_bind x.run _ s).trans ?_
  rw [h]
  rfl

theorem serve_try_error {x : Try Answer ε α} {f : α → Try Answer ε β} {s t : State} {e : ε}
    (h : x.run.serve answer s = (t, .error e)) : (x >>= f).run.serve answer s = (t, .error e) := by
  refine (serve_bind x.run _ s).trans ?_
  rw [h]
  rfl

/-- Environments that leave the resource to answer give the one run there is. -/
theorem runs_iff_serve {exec : (op : Op) → Env → State → State × Answer op} {E : Env → Prop} (hE : ∃ e, E e)
    (hexec : ∀ op e s, E e → exec op e s = answer op s) {p : Prog Answer α} {s t : State} {a : α} :
    Runs exec E p s t (some a) ↔ p.serve answer s = (t, a) := by
  obtain ⟨e₀, he₀⟩ := hE
  induction p generalizing s with
  | done b =>
    rw [runs_done]
    constructor
    · rintro ⟨rfl, hb⟩
      rw [Option.some.inj hb]
      rfl
    · intro h
      cases h
      exact ⟨rfl, rfl⟩
  | call op next ih =>
    rw [runs_call]
    constructor
    · rintro (⟨-, hnone⟩ | ⟨e, he, hrun⟩)
      · exact nomatch hnone
      · rw [hexec op e s he] at hrun
        exact (ih _).1 hrun
    · intro h
      refine .inr ⟨e₀, he₀, ?_⟩
      rw [hexec op e₀ s he₀]
      exact (ih _).2 h

end Prog
