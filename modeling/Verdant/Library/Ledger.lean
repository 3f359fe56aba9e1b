import Mathlib

/-!
# Histories of keyed effects

A state that changes only by effects, each applied under a key at most once.  `History key apply start log now` says
that `log` is such a history: its keys are distinct and replaying its effects in order from `start` gives `now`.  A
machine refines this picture by showing that each of its steps either leaves the state alone or appends one entry
whose key is fresh (`History.append`); what an effect preserves or records then holds of the whole history
(`History.invariant`, `History.recorded`).
-/

namespace Ledger

variable {σ ε κ γ : Type*}

/-- A split of a log with one more entry: at the new entry, or before it. -/
theorem split_concat {log a b : List ε} {e d : ε} (h : log ++ [d] = a ++ e :: b) :
    (b = [] ∧ a = log ∧ e = d) ∨ ∃ c, b = c ++ [d] ∧ log = a ++ e :: c := by
  rcases List.eq_nil_or_concat b with rfl | ⟨c, x, rfl⟩
  · obtain ⟨rfl, hlast⟩ := List.append_inj' h rfl
    exact .inl ⟨rfl, rfl, (List.cons.inj hlast).1.symm⟩
  · have hassoc : log ++ [d] = (a ++ e :: c) ++ [x] := by
      rw [h]
      simp
    obtain ⟨hfront, hlast⟩ := List.append_inj' hassoc rfl
    obtain rfl := (List.cons.inj hlast).1
    exact .inr ⟨c, by simp, hfront⟩

/-- Runs the effects of a log in order. -/
def replay (apply : ε → σ → Option σ) : List ε → σ → Option σ
  | [], s => some s
  | e :: log, s => (apply e s).bind (replay apply log)

theorem replay_append (apply : ε → σ → Option σ) (a b : List ε) (s : σ) :
    replay apply (a ++ b) s = (replay apply a s).bind (replay apply b) := by
  induction a generalizing s with
  | nil => simp [replay]
  | cons e a ih =>
    simp only [List.cons_append, replay, Option.bind_assoc]
    congr 1
    funext t
    exact ih t

/-- The effects of `log`, under distinct keys, lead from `start` to `now`. -/
structure History (key : ε → κ) (apply : ε → σ → Option σ) (start : σ) (log : List ε) (now : σ) : Prop where
  once : (log.map key).Nodup
  replays : replay apply log start = some now

namespace History

variable {key : ε → κ} {apply : ε → σ → Option σ} {start now next : σ} {log : List ε}

theorem nil (key : ε → κ) (apply : ε → σ → Option σ) (start : σ) : History key apply start [] start :=
  ⟨List.nodup_nil, rfl⟩

/-- One more effect under a fresh key. -/
theorem append (h : History key apply start log now) {e : ε} (fresh : key e ∉ log.map key)
    (he : apply e now = some next) : History key apply start (log ++ [e]) next := by
  refine ⟨?_, ?_⟩
  · rw [List.map_append, List.nodup_append]
    refine ⟨h.once, by simp, ?_⟩
    intro a ha b hb
    simp only [List.map_cons, List.map_nil, List.mem_cons, List.not_mem_nil, or_false] at hb
    rintro rfl
    exact fresh (hb ▸ ha)
  · rw [replay_append, h.replays]
    simp [replay, he]

/-- Two entries under one key are the same entry. -/
theorem entry_unique (h : History key apply start log now) {a b : ε} (ha : a ∈ log) (hb : b ∈ log)
    (hk : key a = key b) : a = b :=
  List.inj_on_of_nodup_map h.once ha hb hk

private theorem replay_invariant {inv : σ → Prop} (hstep : ∀ e s t, apply e s = some t → inv s → inv t)
    {log : List ε} {s t : σ} (h : replay apply log s = some t) (hs : inv s) : inv t := by
  induction log generalizing s with
  | nil =>
    cases h
    exact hs
  | cons e log ih =>
    rw [replay, Option.bind_eq_some_iff] at h
    obtain ⟨u, hu, hrest⟩ := h
    exact ih hrest (hstep e s u hu hs)

/-- What every effect preserves holds at the end. -/
theorem invariant (h : History key apply start log now) {inv : σ → Prop} (hstart : inv start)
    (hstep : ∀ e s t, apply e s = some t → inv s → inv t) : inv now :=
  replay_invariant hstep h.replays hstart

private theorem replay_recorded {view : σ → List γ} {entry : ε → γ}
    (hstep : ∀ e s t, apply e s = some t → view t = view s ++ [entry e]) {log : List ε} {s t : σ}
    (h : replay apply log s = some t) : view t = view s ++ log.map entry := by
  induction log generalizing s with
  | nil =>
    cases h
    simp
  | cons e log ih =>
    rw [replay, Option.bind_eq_some_iff] at h
    obtain ⟨u, hu, hrest⟩ := h
    rw [ih hrest, hstep e s u hu]
    simp

/-- A view that every effect extends by its own record is the record of the whole history. -/
theorem recorded (h : History key apply start log now) {view : σ → List γ} {entry : ε → γ}
    (hstep : ∀ e s t, apply e s = some t → view t = view s ++ [entry e]) :
    view now = view start ++ log.map entry :=
  replay_recorded hstep h.replays

end History

end Ledger
