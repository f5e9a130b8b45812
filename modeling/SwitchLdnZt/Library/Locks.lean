import Mathlib.Logic.Function.Basic
import SwitchLdnZt.Library.Run

namespace SwitchLdnZt.Library

/-- A thread's next operation: take a mutex, give it back, or anything else. -/
inductive LockOp (M A : Type)
  | lock (m : M)
  | unlock (m : M)
  | act (a : A)
  deriving DecidableEq

/-- What each thread still has to do, and who holds each (non-recursive) mutex. -/
structure Threads (T M A : Type) where
  todo : T → List (LockOp M A)
  owner : M → Option T

variable {T M A : Type}

def Threads.goOn [DecidableEq T] (s : Threads T M A) (t : T) (ops : List (LockOp M A)) :
    Threads T M A :=
  { s with todo := Function.update s.todo t ops }

def Threads.own [DecidableEq M] (s : Threads T M A) (m : M) (o : Option T) : Threads T M A :=
  { s with owner := Function.update s.owner m o }

section
variable [DecidableEq T] [DecidableEq M] (stops : A → Bool)

/-- One operation of one thread; a thread waits at a held mutex, and what it does
at an action that may not come back is not said here. -/
def Threads.tick (s : Threads T M A) (t : T) : Option (Threads T M A) :=
  match s.todo t with
  | [] => none
  | .lock m :: rest => if s.owner m = none then some ((s.goOn t rest).own m (some t)) else none
  | .unlock m :: rest => some ((s.goOn t rest).own m none)
  | .act a :: rest => if stops a then none else some (s.goOn t rest)

/-- From holding `held` a thread takes one mutex at a time, gives back what it
took, and comes to no stopping action before it has. -/
def wellLocked : Option M → List (LockOp M A) → Bool
  | none, [] => true
  | some _, [] => false
  | none, .lock m :: ops => wellLocked (some m) ops
  | some _, .lock _ :: _ => false
  | some m, .unlock n :: ops => m == n && wellLocked none ops
  | none, .unlock _ :: _ => false
  | none, .act _ :: ops => wellLocked none ops
  | some m, .act a :: ops => !stops a && wellLocked (some m) ops

def goesOn : LockOp M A → Bool
  | .act a => !stops a
  | _ => true

/-- Every thread is well locked from exactly the mutex it holds. -/
def Disciplined (s : Threads T M A) : Prop :=
  ∀ t, ∃ held, wellLocked stops held (s.todo t) = true ∧ ∀ m, s.owner m = some t ↔ held = some m

end

variable {stops : A → Bool}

theorem wellLocked_append [DecidableEq M] {ops ops' : List (LockOp M A)} {held : Option M}
    (h : wellLocked stops held ops = true) (h' : wellLocked stops none ops' = true) :
    wellLocked stops held (ops ++ ops') = true := by
  induction ops generalizing held with
  | nil =>
    cases held with
    | none => exact h'
    | some m => cases h
  | cons op ops ih =>
    cases held <;> cases op <;> simp_all [wellLocked]

theorem wellLocked_replicate [DecidableEq M] {op : LockOp M A} {held : Option M}
    {ops : List (LockOp M A)} (n : Nat)
    (hop : ∀ ops, wellLocked stops held ops = true → wellLocked stops held (op :: ops) = true)
    (h : wellLocked stops held ops = true) :
    wellLocked stops held (List.replicate n op ++ ops) = true := by
  induction n with
  | zero => exact h
  | succ n ih => exact hop _ ih

@[simp] theorem goOn_todo_self [DecidableEq T] (s : Threads T M A) (t : T)
    (ops : List (LockOp M A)) :
    (s.goOn t ops).todo t = ops := Function.update_self _ _ _

theorem goOn_todo_other [DecidableEq T] (s : Threads T M A) {t u : T} (ops : List (LockOp M A))
    (h : u ≠ t) :
    (s.goOn t ops).todo u = s.todo u := Function.update_of_ne h _ _

@[simp] theorem goOn_owner [DecidableEq T] (s : Threads T M A) (t : T) (ops : List (LockOp M A)) :
    (s.goOn t ops).owner = s.owner := rfl

@[simp] theorem own_todo [DecidableEq M] (s : Threads T M A) (m : M) (o : Option T) :
    (s.own m o).todo = s.todo := rfl

@[simp] theorem own_owner_self [DecidableEq M] (s : Threads T M A) (m : M) (o : Option T) :
    (s.own m o).owner m = o := Function.update_self _ _ _

theorem own_owner_other [DecidableEq M] (s : Threads T M A) {m n : M} (o : Option T) (h : n ≠ m) :
    (s.own m o).owner n = s.owner n := Function.update_of_ne h _ _

/-- No thread comes to lock what it already holds. -/
theorem Disciplined.no_self_lock [DecidableEq M] {s : Threads T M A} (h : Disciplined stops s)
    {t : T} {m : M} {rest : List (LockOp M A)} (ht : s.todo t = .lock m :: rest) :
    s.owner m ≠ some t := by
  obtain ⟨held, hw, ho⟩ := h t
  intro hm
  rw [ht, (ho m).mp hm] at hw
  cases hw

/-- A thread at a stopping action holds nothing. -/
theorem Disciplined.stopped_free [DecidableEq M] {s : Threads T M A} (h : Disciplined stops s)
    {t : T} {a : A} {rest : List (LockOp M A)} (ht : s.todo t = .act a :: rest)
    (ha : stops a = true) (m : M) :
    s.owner m ≠ some t := by
  obtain ⟨held, hw, ho⟩ := h t
  intro hm
  rw [ht, (ho m).mp hm] at hw
  simp [wellLocked, ha] at hw

variable [DecidableEq T] [DecidableEq M]

/-- A step of a thread takes the first of what it has to do, and leaves the others alone. -/
theorem tick_todo {s s' : Threads T M A} {t : T} (h : s.tick stops t = some s') :
    ∃ op, s.todo t = op :: s'.todo t ∧ ∀ u, u ≠ t → s'.todo u = s.todo u := by
  unfold Threads.tick at h
  split at h
  next => cases h
  next m rest hops =>
    split at h
    · cases h
      exact ⟨.lock m, by simpa using hops, fun u hu => by simpa using goOn_todo_other s rest hu⟩
    · cases h
  next m rest hops =>
    cases h
    exact ⟨.unlock m, by simpa using hops, fun u hu => by simpa using goOn_todo_other s rest hu⟩
  next a rest hops =>
    split at h
    · cases h
    · cases h
      exact ⟨.act a, by simpa using hops, fun u hu => goOn_todo_other s rest hu⟩

/-- A thread that holds nothing may be set to any well-locked program. -/
theorem Disciplined.restart {s : Threads T M A} (h : Disciplined stops s) {t : T}
    {ops : List (LockOp M A)} (hw : wellLocked stops none ops = true)
    (hfree : ∀ m, s.owner m ≠ some t) : Disciplined stops (s.goOn t ops) := by
  intro u
  by_cases hu : u = t
  · subst hu
    exact ⟨none, by simpa using hw, fun m => by simp [hfree m]⟩
  · simpa [goOn_todo_other s ops hu] using h u

/-- The thread that moved accounts for the change of ownership. -/
theorem Disciplined.move {s : Threads T M A} (h : Disciplined stops s) {t : T} {m : M}
    {o held' : Option T} {held : Option M} {ops : List (LockOp M A)}
    (hw : wellLocked stops held ops = true) (hown : held' = o)
    (hself : ∀ n, (Function.update s.owner m o) n = some t ↔ held = some n)
    (hother : ∀ u, u ≠ t → (o = some u ↔ s.owner m = some u)) :
    Disciplined stops ((s.goOn t ops).own m held') := by
  subst hown
  intro u
  by_cases hu : u = t
  · subst hu
    exact ⟨held, by simpa using hw, hself⟩
  · obtain ⟨hd, hwu, hou⟩ := h u
    refine ⟨hd, by simpa [goOn_todo_other s ops hu] using hwu, ?_⟩
    intro n
    rw [← hou n]
    by_cases hn : n = m
    · subst hn
      simpa using hother u hu
    · rw [own_owner_other _ _ hn, goOn_owner]

theorem Disciplined.tick {s s' : Threads T M A} (h : Disciplined stops s) {t : T}
    (ht : s.tick stops t = some s') : Disciplined stops s' := by
  obtain ⟨held, hw, ho⟩ := h t
  unfold Threads.tick at ht
  split at ht
  next => cases ht
  next m rest hops =>
    split at ht
    next hnone =>
      cases ht
      rw [hops] at hw
      cases held with
      | some n => cases hw
      | none =>
        refine h.move hw rfl ?_ ?_
        · intro n
          by_cases hn : n = m
          · subst hn
            simp
          · have := ho n
            simp [Function.update_of_ne hn, this, Ne.symm hn]
        · intro u hu
          simp [hnone, Ne.symm hu]
    next => cases ht
  next m rest hops =>
    cases ht
    rw [hops] at hw
    cases held with
    | none => cases hw
    | some n =>
      simp only [wellLocked, Bool.and_eq_true, beq_iff_eq] at hw
      obtain ⟨rfl, hw⟩ := hw
      refine h.move hw rfl ?_ ?_
      · intro k
        by_cases hk : k = n
        · subst hk
          simp
        · have := ho k
          simp [Function.update_of_ne hk, this, Ne.symm hk]
      · intro u hu
        have := (ho n).mpr rfl
        simp [this, Ne.symm hu]
  next a rest hops =>
    split at ht
    next => cases ht
    next hgo =>
      cases ht
      rw [hops] at hw
      intro u
      by_cases hu : u = t
      · subst hu
        refine ⟨held, ?_, by simpa using ho⟩
        cases held <;> simp_all [wellLocked]
      · simpa [goOn_todo_other s rest hu] using h u

/-- The holder of a mutex can be run, by itself, to where it has given it back. -/
theorem release_run {u : T} {m : M} (ops : List (LockOp M A)) {s : Threads T M A}
    (hops : s.todo u = ops) (hw : wellLocked stops (some m) ops = true)
    (hm : s.owner m = some u) :
    ∃ k s', run (Threads.tick stops) s (List.replicate k u) = some s' ∧ s'.owner m = none ∧
      ∀ v, v ≠ u → s'.todo v = s.todo v := by
  induction ops generalizing s with
  | nil => cases hw
  | cons op ops ih =>
    cases op with
    | lock n => cases hw
    | unlock n =>
      simp only [wellLocked, Bool.and_eq_true, beq_iff_eq] at hw
      obtain ⟨rfl, hw⟩ := hw
      refine ⟨1, (s.goOn u ops).own m none, ?_, own_owner_self _ _ _, ?_⟩
      · simp [run, Threads.tick, hops]
      · intro v hv
        simpa using goOn_todo_other s ops hv
    | act a =>
      simp only [wellLocked, Bool.and_eq_true, Bool.not_eq_true'] at hw
      obtain ⟨k, s', hr, hn, hv⟩ := ih (s := s.goOn u ops) (goOn_todo_self s u ops) hw.2 hm
      refine ⟨k + 1, s', ?_, hn, ?_⟩
      · simpa [List.replicate_succ, run, Threads.tick, hops, hw.1] using hr
      · intro v hvu
        rw [hv v hvu, goOn_todo_other s ops hvu]

/-- Whatever a thread has to do up to its next stopping action, some schedule
does: a mutex in its way has a holder that can be run to its release. -/
theorem Disciplined.finish {t : T} (pre : List (LockOp M A)) {post : List (LockOp M A)}
    {s : Threads T M A} (h : Disciplined stops s) (ht : s.todo t = pre ++ post)
    (hpre : ∀ op ∈ pre, goesOn stops op = true) :
    ∃ ts s', run (Threads.tick stops) s ts = some s' ∧ s'.todo t = post := by
  induction pre generalizing s with
  | nil => exact ⟨[], s, rfl, ht⟩
  | cons op pre ih =>
    have step : ∀ s₁ s₂ : Threads T M A, Disciplined stops s₁ → s₁.tick stops t = some s₂ →
        s₂.todo t = pre ++ post →
        ∃ ts s', run (Threads.tick stops) s₁ ts = some s' ∧ s'.todo t = post := by
      intro s₁ s₂ h₁ h₂ ht₂
      obtain ⟨ts, s', hr, hp⟩ :=
        ih (h₁.tick h₂) ht₂ (fun o ho => hpre o (List.mem_cons_of_mem _ ho))
      exact ⟨t :: ts, s', run_cons.mpr ⟨s₂, h₂, hr⟩, hp⟩
    have hlock : ∀ (m : M) (s₁ : Threads T M A), Disciplined stops s₁ →
        s₁.todo t = .lock m :: (pre ++ post) → s₁.owner m = none →
        ∃ ts s', run (Threads.tick stops) s₁ ts = some s' ∧ s'.todo t = post := by
      intro m s₁ h₁ ht₁ hm
      refine step s₁ ((s₁.goOn t (pre ++ post)).own m (some t)) h₁ ?_ (by simp)
      simp [Threads.tick, ht₁, hm]
    cases op with
    | lock m =>
      cases hm : s.owner m with
      | none => exact hlock m s h ht hm
      | some u =>
        have hut : t ≠ u := by
          intro he
          cases he
          exact h.no_self_lock ht hm
        obtain ⟨held, hw, ho⟩ := h u
        rw [(ho m).mp hm] at hw
        obtain ⟨k, s₁, hr, hfree, hrest⟩ := release_run _ rfl hw hm
        have h₁ : Disciplined stops s₁ := run_invariant h (fun _ _ _ hd hs => hd.tick hs) hr
        obtain ⟨ts, s', hr', hp⟩ := hlock m s₁ h₁ ((hrest t hut).trans ht) hfree
        exact ⟨List.replicate k u ++ ts, s', run_append.mpr ⟨s₁, hr, hr'⟩, hp⟩
    | unlock m =>
      refine step s ((s.goOn t (pre ++ post)).own m none) h ?_ (by simp)
      simp [Threads.tick, ht]
    | act a =>
      have hgo : stops a = false := by simpa [goesOn] using hpre (.act a) (by simp)
      exact step s (s.goOn t (pre ++ post)) h (by simp [Threads.tick, ht, hgo]) (by simp)

end SwitchLdnZt.Library
