import Mathlib.Data.Set.Insert
import SwitchLdnZt.Proofs.PipeStream

namespace SwitchLdnZt.Proofs.PipeAtomic
open Library Compat

def openFds (t : Socks) : Set Int := {fd | (t fd).isSome}

/-- `after` is the table `before` with exactly these descriptors opened in it. -/
structure Grown (before after : Socks) (fds : List Int) : Prop where
  fresh : ∀ fd ∈ fds, before fd = none
  opened : ∀ fd, (after fd).isSome ↔ (before fd).isSome ∨ fd ∈ fds

theorem Grown.refl (t : Socks) : Grown t t [] := ⟨by simp, by simp⟩

theorem Grown.same {before t t' : Socks} {fds : List Int} (h : Grown before t fds)
    (hs : ∀ fd, (t' fd).isSome = (t fd).isSome) : Grown before t' fds :=
  ⟨h.fresh, fun fd => by rw [hs, h.opened]⟩

theorem Grown.socket {before t : Socks} {fds : List Int} {k : Int} {s : Sock}
    (h : Grown before t fds) (hk : (t k).isNone) :
    Grown before (Function.update t k (some s)) (fds ++ [k]) := by
  have hnew : before k = none := by
    have ho := h.opened k
    cases hb : before k with
    | none => rfl
    | some u => simp_all
  constructor
  · intro fd hm
    rcases List.mem_append.mp hm with hm | hm
    · exact h.fresh fd hm
    · rw [List.mem_singleton.mp hm]
      exact hnew
  · intro fd
    rcases eq_or_ne fd k with rfl | hne
    · simp
    · simp [h.opened, hne]

theorem Grown.close {before t : Socks} {fds : List Int} {k : Int}
    (h : Grown before t (k :: fds)) :
    Grown before (Function.update t k none) (fds.filter (fun fd => fd ≠ k)) := by
  constructor
  · intro fd hm
    exact h.fresh fd (List.mem_cons_of_mem k (List.mem_filter.mp hm).1)
  · intro fd
    rcases eq_or_ne fd k with rfl | hne
    · simp [h.fresh fd List.mem_cons_self]
    · simp [h.opened, hne]

/-- The descriptors that are open because of this call of `pipe`. -/
def held (w : PipeWorld) : List Int :=
  match w.pc with
  | .returned rc => if rc = 0 then w.ends else []
  | _ => w.ends

structure Atomic (before : Socks) (w : PipeWorld) : Prop where
  table : Grown before w.socks (held w)
  fds : w.pc = .returned 0 ∨ w.fds = some (-1, -1)
  code : ∀ rc, w.pc = .returned rc → rc = -1 ∨ rc = 0

theorem entry_atomic (socks : Socks) (p : Int × Int) (errno : Int) :
    Atomic socks (pipeEntry socks (some p) errno) :=
  ⟨.refl socks, .inr rfl, fun _ h => by cases h⟩

/-- Both sockets are closed again, also where one number stood for the two. -/
theorem fail_atomic {before : Socks} {w : PipeWorld} {a b : Int}
    (table : Grown before w.socks [a, b]) (fds : w.fds = some (-1, -1)) :
    Atomic before (w.fail a b) := by
  refine ⟨?_, .inr fds, ?_⟩
  · rcases eq_or_ne b a with rfl | hne
    · have hb := table.close
      simp only [ne_eq, decide_not, List.filter_cons, decide_true, Bool.not_true,
        Bool.false_eq_true, ↓reduceIte, List.filter_nil] at hb
      exact hb.same (fun fd => by simp [PipeWorld.fail, PipeWorld.set])
    · have ha := table.close
      simp only [ne_eq, List.filter_cons, hne, not_false_eq_true, decide_true, ↓reduceIte,
        List.filter_nil] at ha
      exact ha.close
  · intro rc h
    exact .inl (PipePc.returned.inj h).symm

theorem update_isSome {t : Socks} {k : Int} (f : Sock → Sock) (fd : Int) :
    (Function.update t k ((t k).map f) fd).isSome = (t fd).isSome := by
  rcases eq_or_ne fd k with rfl | hne
  · simp
  · simp [Function.update_of_ne hne]

theorem answer_atomic {before : Socks} {w w' : PipeWorld} {ret : Int} {port : Port}
    (h : Atomic before w) (hs : w.answer ret port = some w') : Atomic before w' := by
  have table := h.table
  have fds := h.fds
  unfold PipeWorld.answer at hs
  split at hs
  next hpc =>
    simp only [held, PipeWorld.ends, hpc, reduceCtorEq, false_or] at table fds
    split at hs
    · cases hs
      exact ⟨table, .inr fds, fun rc h => .inl (PipePc.returned.inj h).symm⟩
    · split at hs
      · next hfree =>
        cases hs
        exact ⟨table.socket hfree, .inr fds, fun _ h => by cases h⟩
      · cases hs
  next a hpc =>
    simp only [held, PipeWorld.ends, hpc, reduceCtorEq, false_or] at table fds
    split at hs
    · cases hs
      exact ⟨table.close, .inr fds, fun rc h => .inl (PipePc.returned.inj h).symm⟩
    · split at hs
      · next hfree =>
        cases hs
        exact ⟨table.socket hfree, .inr fds, fun _ h => by cases h⟩
      · cases hs
  next a b hpc =>
    simp only [held, PipeWorld.ends, hpc, reduceCtorEq, false_or] at table fds
    split at hs
    · cases hs
      exact fail_atomic table fds
    · split at hs
      · cases hs
        exact ⟨table.same (update_isSome _), .inr fds, fun _ h => by cases h⟩
      · cases hs
  next a b hpc =>
    simp only [held, PipeWorld.ends, hpc, reduceCtorEq, false_or] at table fds
    split at hs
    · cases hs
      exact fail_atomic table fds
    · split at hs
      · cases hs
        exact ⟨table.same (update_isSome _), .inr fds, fun _ h => by cases h⟩
      · cases hs
  next a b hpc =>
    simp only [held, PipeWorld.ends, hpc, reduceCtorEq, false_or] at table fds
    split at hs
    · cases hs
      exact fail_atomic table fds
    · obtain ⟨q, _, rfl⟩ := Option.map_eq_some_iff.mp hs
      exact ⟨table, .inr fds, fun _ h => by cases h⟩
  next a b aa hpc =>
    simp only [held, PipeWorld.ends, hpc, reduceCtorEq, false_or] at table fds
    split at hs
    · cases hs
      exact fail_atomic table fds
    · obtain ⟨q, _, rfl⟩ := Option.map_eq_some_iff.mp hs
      exact ⟨table, .inr fds, fun _ h => by cases h⟩
  next a b aa bb hpc =>
    simp only [held, PipeWorld.ends, hpc, reduceCtorEq, false_or] at table fds
    split at hs
    · cases hs
      exact fail_atomic table fds
    · cases hs
      exact ⟨table.same (update_isSome _), .inr fds, fun _ h => by cases h⟩
  next a b aa bb hpc =>
    simp only [held, PipeWorld.ends, hpc, reduceCtorEq, false_or] at table fds
    split at hs
    · cases hs
      exact fail_atomic table fds
    · cases hs
      exact ⟨table.same (update_isSome _), .inl rfl,
        fun rc h => .inr (PipePc.returned.inj h).symm⟩
  next => cases hs

theorem send_isSome (t : Socks) (dst : Port) (d : Datagram) (fd : Int) :
    (t.send dst d fd).isSome = (t fd).isSome := by
  simp [Socks.send]

/-- Up to its return only the calls of `pipe` and the network act. -/
def building : PipeEvent → Bool
  | .call _ _ | .stray _ _ _ => true
  | _ => false

theorem step_atomic {before : Socks} {w w' : PipeWorld} {maxLen : Nat} {e : PipeEvent}
    (h : Atomic before w) (he : building e = true) (hs : w.step maxLen e = some w') :
    Atomic before w' := by
  cases e with
  | call ret port => exact answer_atomic h hs
  | stray src dst payload =>
    simp only [PipeWorld.step] at hs
    split at hs
    · cases hs
      exact ⟨h.table.same (send_isSome _ _ _), h.fds, h.code⟩
    · cases hs
  | write buf | read len | closeWrite => cases he

theorem building_fits (w : PipeWorld) {e : PipeEvent} (he : building e = true) :
    PipeStream.readFits w e = true := by
  cases e with
  | call ret port | stray src dst payload => rfl
  | write buf | read len | closeWrite => cases he

/-- Each of the two is bound, and connected to where the other is bound. -/
structure Crossed (t : Socks) (a b : Int) : Prop where
  ends : ∃ s u p q, t a = some s ∧ t b = some u ∧
    s.bound = some p ∧ s.peer = some q ∧ u.bound = some q ∧ u.peer = some p

theorem Grown.crossed {before : Socks} {w : PipeWorld} {a b : Int}
    (h : Grown before w.socks [a, b]) (hf : PipeStream.Flowing w a b) : Crossed w.socks a b := by
  obtain ⟨p, q, s, hs, hp, hq, _, hb⟩ := hf.ends
  have ho : (w.socks b).isSome := (h.opened b).mpr (.inr (by simp))
  obtain ⟨u, hu⟩ := Option.isSome_iff_exists.mp ho
  obtain ⟨hub, hup⟩ := hb u hu
  exact ⟨s, u, p, q, hs, hu, hp, hq, hub, hup⟩

theorem Grown.openFds {before t : Socks} {fds : List Int} (h : Grown before t fds) :
    openFds t = openFds before ∪ {fd | fd ∈ fds} := by
  ext fd
  exact h.opened fd

/-- When `pipe` returns, it has failed and the table is as it was, or it has
opened two descriptors and handed them out. -/
theorem pipe_atomic {maxLen : Nat} {socks : Socks} {p : Int × Int} {errno rc : Int}
    {es : List PipeEvent} {w : PipeWorld}
    (hr : run (guarded (fun _ => building) (PipeWorld.step maxLen))
      (pipeEntry socks (some p) errno) es = some w)
    (returned : w.pc = .returned rc) :
    (rc = -1 ∧ openFds w.socks = openFds socks ∧ w.fds = some (-1, -1)) ∨
    (rc = 0 ∧ ∃ a b, w.fds = some (a, b) ∧ a ≠ b ∧ a ∉ openFds socks ∧ b ∉ openFds socks ∧
      openFds w.socks = openFds socks ∪ {a, b} ∧ Crossed w.socks a b) := by
  have hatomic : Atomic socks w :=
    run_guarded (entry_atomic socks p errno) (fun _ _ _ h ok hs => step_atomic h ok hs) hr
  have hinv : PipeStream.Inv w :=
    run_guarded (PipeStream.entry_inv socks (some p) errno)
      (fun t _ _ h ok hs => PipeStream.step_inv h (building_fits t ok) hs) hr
  have table := hatomic.table
  rcases hatomic.code rc returned with rfl | rfl
  · refine .inl ⟨rfl, ?_, ?_⟩
    · simp only [held, returned] at table
      simpa using table.openFds
    · rcases hatomic.fds with hz | hf
      · rw [returned] at hz
        cases hz
      · exact hf
  · cases hinv with
    | building quiet sockets =>
      simp [returned, PipeStream.Building] at sockets
    | flowing a b _ hfds ends _ =>
      simp only [held, PipeWorld.ends, returned, hfds, ↓reduceIte] at table
      refine .inr ⟨rfl, a, b, hfds, ends.distinct, ?_, ?_, ?_, table.crossed ends⟩
      · simp [openFds, table.fresh a (by simp)]
      · simp [openFds, table.fresh b (by simp)]
      · rw [table.openFds]
        ext fd
        simp [or_comm, or_assoc]

/-- The calls of a `pipe` whose second connect is refused. -/
def refused : List PipeEvent :=
  [.call 3 0, .call 4 0, .call 0 50000, .call 0 50001, .call 0 0, .call 0 0, .call 0 0,
    .call (-1) 0]

/-- One run fails and leaves the table as it was; the other opens 3 and 4. -/
theorem pipe_atomic_runs :
    (∃ w, run (guarded (fun _ => building) (PipeWorld.step 65507))
        (pipeEntry PipeStream.noSocks (some (0, 0)) 0) refused = some w ∧
      openFds w.socks = openFds PipeStream.noSocks ∧ w.fds = some (-1, -1)) ∧
    ∃ w, run (guarded (fun _ => building) (PipeWorld.step 65507))
        (pipeEntry PipeStream.noSocks (some (0, 0)) 0) PipeStream.opening = some w ∧
      w.fds = some (3, 4) ∧ openFds w.socks = openFds PipeStream.noSocks ∪ {3, 4} ∧
      Crossed w.socks 3 4 := by
  constructor
  · obtain ⟨w, hw⟩ := Option.isSome_iff_exists.mp
      (rfl : (run (guarded (fun _ => building) (PipeWorld.step 65507))
        (pipeEntry PipeStream.noSocks (some (0, 0)) 0) refused).isSome = true)
    have hpc : w.pc = .returned (-1) :=
      (Option.some.inj (congrArg (Option.map PipeWorld.pc) hw)).symm
    rcases pipe_atomic hw hpc with ⟨_, h⟩ | ⟨h, _⟩
    · exact ⟨w, hw, h⟩
    · cases h
  · obtain ⟨w, hw⟩ := Option.isSome_iff_exists.mp
      (rfl : (run (guarded (fun _ => building) (PipeWorld.step 65507))
        (pipeEntry PipeStream.noSocks (some (0, 0)) 0) PipeStream.opening).isSome = true)
    have hpc : w.pc = .returned 0 :=
      (Option.some.inj (congrArg (Option.map PipeWorld.pc) hw)).symm
    have hfds : w.fds = some (3, 4) :=
      (Option.some.inj (congrArg (Option.map PipeWorld.fds) hw)).symm
    rcases pipe_atomic hw hpc with ⟨h, _⟩ | ⟨_, a, b, hab, _, _, _, hopen, hcrossed⟩
    · cases h
    · rw [hfds] at hab
      cases hab
      exact ⟨w, hw, hfds, hopen, hcrossed⟩

end SwitchLdnZt.Proofs.PipeAtomic
