import Mathlib.Data.List.Induction

namespace SwitchLdnZt.Library

variable {σ ε : Type}

/-- Fold a guarded step over an event list; `none` is an event that was not
enabled where it was scheduled. -/
def run (step : σ → ε → Option σ) (s : σ) : List ε → Option σ
  | [] => some s
  | e :: es => (step s e).bind (fun t => run step t es)

variable {step : σ → ε → Option σ}

@[simp] theorem run_nil (s : σ) : run step s [] = some s := rfl

theorem run_cons {s : σ} {e : ε} {es : List ε} {u : σ} :
    run step s (e :: es) = some u ↔ ∃ t, step s e = some t ∧ run step t es = some u := by
  simp [run, Option.bind_eq_some_iff]

theorem run_append {s : σ} {es fs : List ε} {u : σ} :
    run step s (es ++ fs) = some u ↔ ∃ t, run step s es = some t ∧ run step t fs = some u := by
  induction es generalizing s with
  | nil => simp
  | cons e es ih =>
    simp only [List.cons_append, run_cons, ih]
    constructor
    · intro h
      rcases h with ⟨m, hm, t, ht, hu⟩
      exact ⟨t, ⟨m, hm, ht⟩, hu⟩
    · intro h
      rcases h with ⟨t, ⟨m, hm, ht⟩, hu⟩
      exact ⟨m, hm, t, ht, hu⟩

theorem run_snoc {s : σ} {es : List ε} {e : ε} {u : σ} :
    run step s (es ++ [e]) = some u ↔ ∃ t, run step s es = some t ∧ step t e = some u := by
  simp [run_append, run_cons]

/-- A property of the state together with the events so far, true at the start
and kept by each enabled step, holds at the end of every run. -/
theorem run_history {P : List ε → σ → Prop} {s : σ} (start : P [] s)
    (keep : ∀ es t e u, run step s es = some t → P es t → step t e = some u → P (es ++ [e]) u)
    {es : List ε} {u : σ} (hr : run step s es = some u) : P es u := by
  induction es using List.reverseRecOn generalizing u with
  | nil =>
    cases hr
    exact start
  | append_singleton es e ih =>
    obtain ⟨t, ht, he⟩ := run_snoc.mp hr
    exact keep es t e u ht (ih ht) he

theorem run_invariant {P : σ → Prop} {s : σ} (start : P s)
    (keep : ∀ t e u, P t → step t e = some u → P u)
    {es : List ε} {u : σ} (hr : run step s es = some u) : P u :=
  run_history (P := fun _ t => P t) start (fun _ t e u _ ht he => keep t e u ht he) hr

/-- The step restricted to where `ok` holds: its runs are the runs whose every
step meets `ok` in the state it is taken from. -/
def guarded (ok : σ → ε → Bool) (step : σ → ε → Option σ) (s : σ) (e : ε) : Option σ :=
  if ok s e then step s e else none

theorem guarded_eq_some {ok : σ → ε → Bool} {s : σ} {e : ε} {t : σ} :
    guarded ok step s e = some t ↔ ok s e = true ∧ step s e = some t := by
  unfold guarded
  split <;> simp_all

theorem run_of_guarded {ok : σ → ε → Bool} {s : σ} {es : List ε} {u : σ}
    (hr : run (guarded ok step) s es = some u) : run step s es = some u := by
  induction es generalizing s with
  | nil => exact hr
  | cons e es ih =>
    obtain ⟨t, ht, hu⟩ := run_cons.mp hr
    exact run_cons.mpr ⟨t, (guarded_eq_some.mp ht).2, ih hu⟩

theorem run_guarded {P : σ → Prop} {ok : σ → ε → Bool} {s : σ} (start : P s)
    (keep : ∀ t e u, P t → ok t e = true → step t e = some u → P u)
    {es : List ε} {u : σ} (hr : run (guarded ok step) s es = some u) : P u := by
  apply run_invariant start ?_ hr
  intro t e u ht he
  obtain ⟨hok, hs⟩ := guarded_eq_some.mp he
  exact keep t e u ht hok hs

/-- What is drawn from a run's events grows with each event that has something. -/
theorem filterMap_snoc {α : Type} (f : ε → Option α) (es : List ε) (e : ε) :
    (es ++ [e]).filterMap f = es.filterMap f ++ (f e).toList := by
  rw [List.filterMap_append]
  cases he : f e <;> simp [he]

end SwitchLdnZt.Library
