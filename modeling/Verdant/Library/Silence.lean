import Verdant.Library.TryProg

/-!
# What a program tells of the state

A view is the part of a state a caller may know.  An operation is blind to the rest when it leaves the state and answers
alike on states of one view, and a program of blind operations runs alike on them (`Issues.blind`).  A fallible program is
silent on a view when it changes none of the states of the view and ends with one error on all of them: a sequence is, if
its first part is, or if its first part is blind and every rest it goes on with is.
-/

namespace Prog

variable {Op : Type} {Answer : Op → Type} {Env State View ε ε' α β : Type}
  {exec : (op : Op) → Env → State → State × Answer op} {view : State → View} {E : Env → Prop} {v : View}

/-! ### Blind operations -/

variable (exec view) in
/-- The operation writes nothing and sees the view only. -/
def Blind (op : Op) : Prop :=
  ∀ e s t, view s = view t → (exec op e s).1 = s ∧ (exec op e s).2 = (exec op e t).2

/-- A program of blind operations leaves the state and runs alike on states of one view. -/
theorem Issues.blind {p : Prog Answer α} (hp : p.Issues (Blind exec view)) {s t : State} (h : view s = view t)
    (es : List Env) : (p.run exec es s).1 = s ∧ (p.run exec es s).2 = (p.run exec es t).2 := by
  induction p generalizing es with
  | done a => exact ⟨rfl, rfl⟩
  | call op next ih =>
    cases es with
    | nil => exact ⟨rfl, rfl⟩
    | cons e es =>
      obtain ⟨hs, hanswer⟩ := hp.1 e s t h
      obtain ⟨ht, -⟩ := hp.1 e t s h.symm
      have hrest := ih (exec op e s).2 (hp.2 _) es
      simp only [run]
      rw [hs, ht, ← hanswer]
      exact hrest

/-! ### Silent programs -/

variable (exec view E v) in
/-- On the states of the view, in environments of `E`: nothing is written, and the program ends with one error. -/
structure Silent (x : Try Answer ε α) : Prop where
  stays : ∀ s, view s = v → ∀ es, (∀ e ∈ es, E e) → (x.run.run exec es s).1 = s
  same : ∀ s t, view s = v → view t = v → ∀ es, (∀ e ∈ es, E e) → (x.run.run exec es s).2 = (x.run.run exec es t).2
  denies : ∀ s, view s = v → ∀ es, (∀ e ∈ es, E e) → ∀ a rest, (x.run.run exec es s).2 ≠ some (.ok a, rest)

variable {x : Try Answer ε α} {f : α → Try Answer ε β}

/-- The end of a sequence whose first part gave no value. -/
def denied : Option (Except ε α × List Env) → Option (Except ε β × List Env)
  | some (.error e, rest) => some (.error e, rest)
  | _ => none

theorem denied_ne_ok (result : Option (Except ε α × List Env)) (b : β) (rest : List Env) :
    denied result ≠ some (.ok b, rest) := by
  rcases result with _ | ⟨e | a, more⟩ <;> simp [denied]

/-- After a first part without a value nothing runs. -/
theorem run_try_denied (f : α → Try Answer ε β) {es : List Env} {s : State}
    (h : ∀ a rest, (x.run.run exec es s).2 ≠ some (.ok a, rest)) :
    (x >>= f).run.run exec es s = ((x.run.run exec es s).1, denied (x.run.run exec es s).2) := by
  rw [run_try_bind]
  rcases hrun : x.run.run exec es s with ⟨t, _ | ⟨e | a, rest⟩⟩
  · rfl
  · rfl
  · rw [hrun] at h
    exact absurd rfl (h a rest)

theorem Silent.bind (hx : Silent exec view E v x) : Silent exec view E v (x >>= f) where
  stays s hs es hes := by
    rw [run_try_denied f (hx.denies s hs es hes)]
    exact hx.stays s hs es hes
  same s t hs ht es hes := by
    rw [run_try_denied f (hx.denies s hs es hes), run_try_denied f (hx.denies t ht es hes), hx.same s t hs ht es hes]
  denies s hs es hes a rest := by
    rw [run_try_denied f (hx.denies s hs es hes)]
    exact denied_ne_ok _ a rest

/-- After a blind part the rest decides. -/
theorem Silent.after (hx : x.run.Issues (Blind exec view))
    (hf : ∀ a, (∃ s es rest, view s = v ∧ (∀ e ∈ es, E e) ∧ (x.run.run exec es s).2 = some (.ok a, rest)) →
      Silent exec view E v (f a)) : Silent exec view E v (x >>= f) := by
  -- a run of the sequence is that of the first part, or goes on in the same state
  have hcases : ∀ s, view s = v → ∀ es, (∀ e ∈ es, E e) →
      (∀ a rest, (x.run.run exec es s).2 ≠ some (.ok a, rest)) ∨
        ∃ a rest, (x.run.run exec es s).2 = some (.ok a, rest) ∧ (∀ e ∈ rest, E e) ∧ Silent exec view E v (f a) ∧
          (x >>= f).run.run exec es s = (f a).run.run exec rest s := by
    intro s hs es hes
    by_cases hok : ∃ a rest, (x.run.run exec es s).2 = some (.ok a, rest)
    · obtain ⟨a, rest, hanswer⟩ := hok
      have hrun : x.run.run exec es s = (s, some (.ok a, rest)) := Prod.ext (hx.blind rfl es).1 hanswer
      refine .inr ⟨a, rest, hanswer, fun e he => hes e (run_subset hrun e he), hf a ⟨s, es, rest, hs, hes, hanswer⟩, ?_⟩
      rw [run_try_bind, hrun]
    · push Not at hok
      exact .inl hok
  constructor
  · intro s hs es hes
    rcases hcases s hs es hes with hnone | ⟨a, rest, -, hrest, hsilent, hrun⟩
    · rw [run_try_denied f hnone]
      exact (hx.blind rfl es).1
    · rw [hrun]
      exact hsilent.stays s hs rest hrest
  · intro s t hs ht es hes
    have hfirst := (hx.blind (hs.trans ht.symm) es).2
    rcases hcases s hs es hes with hnone | ⟨a, rest, hanswer, hrest, hsilent, hrun⟩
    · rw [run_try_denied f hnone, run_try_denied f (hfirst ▸ hnone), hfirst]
    · have hrun' : (x >>= f).run.run exec es t = (f a).run.run exec rest t := by
        have hx' : x.run.run exec es t = (t, some (.ok a, rest)) :=
          Prod.ext (hx.blind rfl es).1 (hfirst.symm.trans hanswer)
        rw [run_try_bind, hx']
      rw [hrun, hrun']
      exact hsilent.same s t hs ht rest hrest
  · intro s hs es hes b more
    rcases hcases s hs es hes with hnone | ⟨a, rest, -, hrest, hsilent, hrun⟩
    · rw [run_try_denied f hnone]
      exact denied_ne_ok _ b more
    · rw [hrun]
      exact hsilent.denies s hs rest hrest b more

/-- A blind program that gives no value is silent. -/
theorem Silent.of_blind (hx : x.run.Issues (Blind exec view))
    (h : ∀ s, view s = v → ∀ es, (∀ e ∈ es, E e) → ∀ a rest, (x.run.run exec es s).2 ≠ some (.ok a, rest)) :
    Silent exec view E v x where
  stays _ _ es _ := (hx.blind rfl es).1
  same _ _ hs ht es _ := (hx.blind (hs.trans ht.symm) es).2
  denies := h

theorem silent_throw (e : ε) : Silent exec view E v (throw e : Try Answer ε α) where
  stays _ _ _ _ := rfl
  same _ _ _ _ _ _ := rfl
  denies _ _ _ _ _ _ h := nomatch h

theorem run_mapErr (g : ε → ε') (x : Try Answer ε α) (es : List Env) (s : State) :
    (mapErr g x).run.run exec es s =
      ((x.run.run exec es s).1, (x.run.run exec es s).2.map fun out => (out.1.mapError g, out.2)) := by
  refine (run_bind exec x.run _ es s).trans ?_
  rcases x.run.run exec es s with ⟨t, _ | ⟨a, rest⟩⟩ <;> rfl

/-- A program run for its answer gives it as a value. -/
theorem run_lift (p : Prog Answer α) (es : List Env) (s : State) :
    (liftM p : Try Answer ε α).run.run exec es s =
      ((p.run exec es s).1, (p.run exec es s).2.map fun out => (.ok out.1, out.2)) := by
  refine (run_bind exec p (fun a => done (Except.ok a)) es s).trans ?_
  rcases p.run exec es s with ⟨t, _ | ⟨a, rest⟩⟩ <;> rfl

theorem Silent.mapErr {g : ε → ε'} (hx : Silent exec view E v x) : Silent exec view E v (mapErr g x) where
  stays s hs es hes := by
    rw [run_mapErr]
    exact hx.stays s hs es hes
  same s t hs ht es hes := by
    rw [run_mapErr, run_mapErr, hx.same s t hs ht es hes]
  denies s hs es hes a rest h := by
    rw [run_mapErr] at h
    obtain ⟨⟨answer, more⟩, hanswer, hpair⟩ := Option.map_eq_some_iff.1 h
    cases answer with
    | error e => exact nomatch hpair
    | ok b => exact hx.denies s hs es hes b more hanswer

end Prog
