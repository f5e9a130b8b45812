import SwitchLdnZt.Sysmodule.Heap

namespace SwitchLdnZt.Proofs.HeapOnce
open Library Sysmodule

variable {T : Type} [DecidableEq T] {s s' : Heap T} {e : HeapEvent T} {t u : T}

/-- What thread `t` asked of the heap in these events. -/
def called (t : T) (es : List (HeapEvent T)) : List HeapOp :=
  es.filterMap fun e => match e with
    | .call u c => if u = t then some c.op else none
    | _ => none

theorem put_place (s : Heap T) (t u : T) (a : HeapAt) :
    (s.put t a).place u = if u = t then a else s.place u := Function.update_apply ..

/-- What an event can do: the creation moves by itself, or with a call of it that is
entered or left, or an operation is done. -/
theorem step_cases (hs : s.step e = some s') :
    (∃ t c o, e = .call t c ∧ s.place t = .idle ∧ s.init.step (.enter t) = some o ∧
      s' = { s.put t (.getting c.op) with init := o }) ∨
    (∃ o e', s.init.step e' = some o ∧ (∀ t, e' ≠ .enter t ∧ e' ≠ .leave t) ∧
      (∀ t, called t [e] = []) ∧ s' = { s with init := o }) ∨
    (∃ t op o, e = .getHeapHandle t ∧ s.place t = .getting op ∧
      s.init.step (.leave t) = some o ∧
      s' = { s.put t (.got op s.init.value) with init := o }) ∨
    (∃ t op handle, e = .perform t ∧ s.place t = .got op handle ∧
      s' = { s.put t .idle with done := s.done ++ [(t, handle, op)] }) := by
  cases e with
  | call t c =>
    simp only [Heap.step] at hs
    split at hs
    next hp =>
      obtain ⟨o, ho, rfl⟩ := Option.map_eq_some_iff.mp hs
      exact .inl ⟨t, c, o, rfl, hp, ho, rfl⟩
    next => cases hs
  | tick t =>
    obtain ⟨o, ho, rfl⟩ := Option.map_eq_some_iff.mp hs
    exact .inr (.inl ⟨o, .tick t, ho, by simp, fun _ => rfl, rfl⟩)
  | createExpHeap t handle =>
    obtain ⟨o, ho, rfl⟩ := Option.map_eq_some_iff.mp hs
    exact .inr (.inl ⟨o, .made t handle, ho, by simp, fun _ => rfl, rfl⟩)
  | getHeapHandle t =>
    simp only [Heap.step] at hs
    split at hs
    next op hp =>
      obtain ⟨o, ho, rfl⟩ := Option.map_eq_some_iff.mp hs
      exact .inr (.inr (.inl ⟨t, op, o, rfl, hp, ho, rfl⟩))
    next => cases hs
  | perform t =>
    simp only [Heap.step] at hs
    split at hs
    next op handle hp =>
      cases hs
      exact .inr (.inr (.inr ⟨t, op, handle, rfl, hp, rfl⟩))
    next => cases hs

/-- Every handle that anyone has, or has used, is that of the one heap. -/
structure Inv (s : Heap T) : Prop where
  init : s.init.Inv
  got : ∀ t op handle, s.place t = .got op handle → s.init.made = [handle]
  done : ∀ d ∈ s.done, s.init.made = [d.2.1]
  inside : ∀ t, s.init.pc t ≠ .away ↔ ∃ op, s.place t = .getting op

omit [DecidableEq T] in
theorem boot_inv : Inv (Heap.boot : Heap T) := by
  refine ⟨Once.start_inv 0, ?_, ?_, ?_⟩
  · intro t op handle h
    cases h
  · intro d hd
    cases hd
  · intro t
    simp [Heap.boot, Once.start]

theorem Inv.step (h : Inv s) (hs : s.step e = some s') : Inv s' := by
  obtain ⟨t, c, o, rfl, hp, ho, rfl⟩ | ⟨o, e', ho, he, -, rfl⟩ | ⟨t, op, o, rfl, hp, ho, rfl⟩ |
    ⟨t, op, handle, rfl, hp, rfl⟩ := step_cases hs
  · have hinit := h.init.step ho
    obtain ⟨-, rfl⟩ := Once.step_enter ho
    refine ⟨hinit, ?_, h.done, ?_⟩
    · intro u op handle hu
      rw [put_place] at hu
      split at hu
      next => cases hu
      next => exact h.got u op handle hu
    · intro u
      rw [Once.go_pc, put_place]
      split
      next => simp
      next => exact h.inside u
  · refine ⟨h.init.step ho, fun u op handle hu => h.init.kept ho (h.got u op handle hu),
      fun d hd => h.init.kept ho (h.done d hd), ?_⟩
    intro u
    rw [← h.inside u, ne_eq, ne_eq, Once.step_away ho (he u).1 (he u).2]
  · have hinit := h.init.step ho
    obtain ⟨hread, rfl⟩ := Once.step_leave ho
    refine ⟨hinit, ?_, h.done, ?_⟩
    · intro u op' handle hu
      rw [put_place] at hu
      split at hu
      next =>
        cases hu
        exact h.init.leaves hread
      next => exact h.got u op' handle hu
    · intro u
      rw [Once.go_pc, put_place]
      split
      next => simp
      next => exact h.inside u
  · refine ⟨h.init, ?_, ?_, ?_⟩
    · intro u op' handle' hu
      rw [put_place] at hu
      split at hu
      next => cases hu
      next => exact h.got u op' handle' hu
    · intro d hd
      rcases List.mem_append.mp hd with hd | hd
      · exact h.done d hd
      · cases List.mem_singleton.mp hd
        exact h.got t op handle hp
    · intro u
      rw [put_place]
      split
      next hu =>
        rw [hu]
        exact (h.inside t).trans (by rw [hp]; simp)
      next => exact h.inside u

/-- One waits at the mutex while the other is about to make the heap. -/
def waiting : List (HeapEvent Bool) :=
  [.call true (operatorNew 16), .call false (operatorNew 32), .tick true, .tick false, .tick true]

end SwitchLdnZt.Proofs.HeapOnce
