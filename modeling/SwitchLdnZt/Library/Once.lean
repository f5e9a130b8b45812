import Mathlib.Logic.Function.Basic
import SwitchLdnZt.Library.Run

namespace SwitchLdnZt.Library

/-- Where a thread is in a double-checked creation. -/
inductive OncePc
  | away
  | check
  | lock
  | recheck
  | create
  | publish
  | unlock
  | read
deriving DecidableEq

/-- A value that whoever comes first makes, behind a flag and a mutex. `made` is
bookkeeping: every value made so far. -/
structure Once (T V : Type) where
  pc : T → OncePc
  ready : Bool
  value : V
  owner : Option T
  made : List V

inductive OnceEvent (T V : Type)
  | enter (t : T)
  | tick (t : T)
  | made (t : T) (v : V)
  | leave (t : T)

variable {T V : Type}

def Once.start (null : V) : Once T V := ⟨fun _ => .away, false, null, none, []⟩

/-- Between taking the mutex and giving it back. -/
def OncePc.inside : OncePc → Bool
  | .recheck | .create | .publish | .unlock => true
  | .away | .check | .lock | .read => false

section
variable [DecidableEq T]

def Once.go (s : Once T V) (t : T) (pc : OncePc) : Once T V :=
  { s with pc := Function.update s.pc t pc }

def Once.tick (s : Once T V) (t : T) : Option (Once T V) :=
  match s.pc t with
  | .check => some (s.go t (if s.ready then .read else .lock))
  | .lock => if s.owner = none then some { s.go t .recheck with owner := some t } else none
  | .recheck => some (s.go t (if s.ready then .unlock else .create))
  | .publish => some { s.go t .unlock with ready := true }
  | .unlock => some { s.go t .read with owner := none }
  | .away | .create | .read => none

/-- Whoever leaves has the value that is there then. -/
def Once.step (s : Once T V) : OnceEvent T V → Option (Once T V)
  | .enter t => if s.pc t = .away then some (s.go t .check) else none
  | .tick t => s.tick t
  | .made t v =>
    if s.pc t = .create then some { s.go t .publish with value := v, made := s.made ++ [v] }
    else none
  | .leave t => if s.pc t = .read then some (s.go t .away) else none

end

/-- The one who is inside holds the mutex, and until the flag is up the value made, if
any, is still to be announced by its maker. -/
structure Once.Inv (s : Once T V) : Prop where
  owner : ∀ t, (s.pc t).inside = true ↔ s.owner = some t
  made : s.made = [] ∨ s.made = [s.value]
  ready : s.ready = true → s.made ≠ []
  publish : ∀ t, s.pc t = .publish → s.made ≠ []
  owed : s.made ≠ [] → s.ready = true ∨ ∃ t, s.pc t = .publish
  fresh : ∀ t, s.pc t = .create → s.made = []
  known : ∀ t, s.pc t = .unlock ∨ s.pc t = .read → s.ready = true

theorem Once.start_inv (null : V) : (Once.start null : Once T V).Inv := by
  refine ⟨?_, .inl rfl, ?_, ?_, ?_, ?_, ?_⟩
  · intro t
    simp [Once.start, OncePc.inside]
  · intro h
    cases h
  · intro t h
    cases h
  · intro h
    exact absurd rfl h
  · intro t _
    rfl
  · intro t h
    rcases h with h | h <;> cases h

variable {s s' : Once T V} {t u : T}

theorem Once.Inv.alone (h : s.Inv) (ht : (s.pc t).inside = true) (hu : (s.pc u).inside = true) :
    u = t := by
  rw [h.owner] at ht hu
  rw [ht] at hu
  exact (Option.some.inj hu).symm

/-- Nothing is made before the flag is up, unless its maker has yet to announce it. -/
theorem Once.Inv.unmade (h : s.Inv) (hr : s.ready = false) (ht : (s.pc t).inside = true)
    (hp : s.pc t ≠ .publish) : s.made = [] := by
  by_contra hm
  rcases h.owed hm with hr' | ⟨u, hu⟩
  · rw [hr] at hr'
    cases hr'
  · have := h.alone ht (u := u) (by rw [hu]; rfl)
    rw [this] at hu
    exact hp hu

/-- Nobody makes a second one, and whoever leaves leaves with the one made. -/
theorem Once.Inv.leaves (h : s.Inv) (ht : s.pc t = .read) : s.made = [s.value] := by
  rcases h.made with hm | hm
  · exact absurd hm (h.ready (h.known t (.inr ht)))
  · exact hm

variable [DecidableEq T]

theorem Once.go_pc (s : Once T V) (t u : T) (pc : OncePc) :
    (s.go t pc).pc u = if u = t then pc else s.pc u :=
  Function.update_apply ..

@[simp] theorem Once.go_pc_self (s : Once T V) (t : T) (pc : OncePc) : (s.go t pc).pc t = pc :=
  Function.update_self _ _ _

theorem Once.go_pc_other (s : Once T V) (pc : OncePc) (h : u ≠ t) : (s.go t pc).pc u = s.pc u :=
  Function.update_of_ne h _ _

/-- What one thread's move has to account for: where it is then, and what it did to
the rest. -/
theorem Once.Inv.move (h : s.Inv) {c : OncePc} (hpc : s'.pc = (s.go t c).pc)
    (hself : c.inside = true ↔ s'.owner = some t)
    (hothers : ∀ u, u ≠ t → (s'.owner = some u ↔ s.owner = some u))
    (hmade : s'.made = [] ∨ s'.made = [s'.value])
    (hsame : s'.made = s.made ∨ (s.pc t).inside = true)
    (hready : s'.ready = true → s'.made ≠ []) (hup : s.ready = true → s'.ready = true)
    (hpublish : c = .publish → s'.made ≠ []) (hlast : s.made ≠ [] → s'.made ≠ [])
    (howed : s'.made ≠ [] → s'.ready = true ∨ c = .publish ∨ (s.made ≠ [] ∧ s.pc t ≠ .publish))
    (hfresh : c = .create → s'.made = [])
    (hknown : c = .unlock ∨ c = .read → s'.ready = true) : s'.Inv := by
  have hat : ∀ u, s'.pc u = if u = t then c else s.pc u := fun u => by rw [hpc, Once.go_pc]
  refine ⟨?_, hmade, hready, ?_, ?_, ?_, ?_⟩
  · intro u
    rw [hat]
    split
    next hu =>
      rw [hu]
      exact hself
    next hu => rw [h.owner u, hothers u hu]
  · intro u hu
    rw [hat] at hu
    split at hu
    next => exact hpublish hu
    next => exact hlast (h.publish u hu)
  · intro hm
    rcases howed hm with hr | hp | ⟨hm', hp⟩
    · exact .inl hr
    · exact .inr ⟨t, by rw [hat, if_pos rfl, hp]⟩
    · rcases h.owed hm' with hr | ⟨u, hu⟩
      · exact .inl (hup hr)
      · refine .inr ⟨u, ?_⟩
        rw [hat, if_neg ?_, hu]
        rintro rfl
        exact hp hu
  · intro u hu
    rw [hat] at hu
    split at hu
    next => exact hfresh hu
    next hne =>
      rcases hsame with hs | hin
      · rw [hs]
        exact h.fresh u hu
      · exact absurd (h.alone hin (by rw [hu]; rfl)) hne
  · intro u hu
    rw [hat] at hu
    split at hu
    next => exact hknown hu
    next => exact hup (h.known u hu)

/-- A move that leaves the flag, the value and the mutex as they are. -/
theorem Once.Inv.go (h : s.Inv) {pc : OncePc} (hin : pc.inside = (s.pc t).inside)
    (hpub : s.pc t ≠ .publish ∧ pc ≠ .publish) (hfresh : pc = .create → s.made = [])
    (hknown : pc = .unlock ∨ pc = .read → s.ready = true) : (s.go t pc).Inv := by
  refine h.move rfl ?_ (fun _ _ => Iff.rfl) h.made (.inl rfl) h.ready id
    (fun hp => absurd hp hpub.2) id (fun hm => .inr (.inr ⟨hm, hpub.1⟩)) hfresh hknown
  rw [hin]
  exact h.owner t

theorem Once.Inv.tick (h : s.Inv) (ht : s.tick t = some s') : s'.Inv := by
  unfold Once.tick at ht
  split at ht
  next hpc =>
    cases ht
    cases hr : s.ready with
    | true => exact h.go (by rw [hpc]; rfl) (by simp [hpc]) (by simp) (fun _ => hr)
    | false => exact h.go (by rw [hpc]; rfl) (by simp [hpc]) (by simp) (by simp)
  next hpc =>
    split at ht
    next hfree =>
      cases ht
      refine h.move (t := t) (c := .recheck) rfl (by simp [OncePc.inside]) ?_ h.made (.inl rfl)
        h.ready id (by simp) id (fun hm => .inr (.inr ⟨hm, by simp [hpc]⟩)) (by simp) (by simp)
      intro u hu
      simp [hfree, Ne.symm hu]
    next => cases ht
  next hpc =>
    cases ht
    have hin : (s.pc t).inside = true := by rw [hpc]; rfl
    cases hr : s.ready with
    | true => exact h.go (by rw [hpc]; rfl) (by simp [hpc]) (by simp) (fun _ => hr)
    | false =>
      refine h.go (by rw [hpc]; rfl) (by simp [hpc]) (fun _ => ?_) (by simp)
      exact h.unmade hr hin (by simp [hpc])
  next hpc =>
    cases ht
    have hself : OncePc.inside .unlock = true ↔ s.owner = some t := by
      rw [← h.owner t, hpc]
      rfl
    exact h.move (t := t) (c := .unlock) rfl hself (fun _ _ => Iff.rfl) h.made (.inl rfl)
      (fun _ => h.publish t hpc) (fun _ => rfl) (by simp) id (fun _ => .inl rfl) (by simp)
      (fun _ => rfl)
  next hpc =>
    cases ht
    have hown : s.owner = some t := (h.owner t).mp (by rw [hpc]; rfl)
    have hr : s.ready = true := h.known t (.inl hpc)
    refine h.move (t := t) (c := .read) rfl (by simp [OncePc.inside]) ?_ h.made (.inl rfl)
      h.ready id (by simp) id (fun hm => .inr (.inr ⟨hm, by simp [hpc]⟩)) (by simp)
      (fun _ => hr)
    intro u hu
    simp [hown, Ne.symm hu]
  next => cases ht
  next => cases ht
  next => cases ht

theorem Once.Inv.step {e : OnceEvent T V} (h : s.Inv) (hs : s.step e = some s') : s'.Inv := by
  cases e with
  | enter t =>
    simp only [Once.step] at hs
    split at hs
    next hpc =>
      cases hs
      exact h.go (by rw [hpc]; rfl) (by simp [hpc]) (by simp) (by simp)
    next => cases hs
  | tick t => exact h.tick hs
  | made t v =>
    simp only [Once.step] at hs
    split at hs
    next hpc =>
      cases hs
      have hnone := h.fresh t hpc
      have hself : OncePc.inside .publish = true ↔ s.owner = some t := by
        rw [← h.owner t, hpc]
        rfl
      refine h.move (t := t) (c := .publish) rfl hself (fun _ _ => Iff.rfl) ?_
        (.inr (by rw [hpc]; rfl)) (by simp) id (by simp) (by simp) (fun _ => .inr (.inl rfl))
        (by simp) (by simp)
      right
      simp [hnone]
    next => cases hs
  | leave t =>
    simp only [Once.step] at hs
    split at hs
    next hpc =>
      cases hs
      exact h.go (by rw [hpc]; rfl) (by simp [hpc]) (by simp) (by simp)
    next => cases hs

theorem Once.step_enter (hs : s.step (.enter t) = some s') :
    s.pc t = .away ∧ s' = s.go t .check := by
  simp only [Once.step] at hs
  split at hs <;> cases hs
  exact ⟨‹_›, rfl⟩

theorem Once.step_leave (hs : s.step (.leave t) = some s') :
    s.pc t = .read ∧ s' = s.go t .away := by
  simp only [Once.step] at hs
  split at hs <;> cases hs
  exact ⟨‹_›, rfl⟩

/-- What is made once stays. -/
theorem Once.Inv.kept {e : OnceEvent T V} (h : s.Inv) (hs : s.step e = some s') {v : V}
    (hv : s.made = [v]) : s'.made = [v] := by
  cases e with
  | enter t | leave t =>
    simp only [Once.step] at hs
    split at hs <;> cases hs
    exact hv
  | tick t =>
    simp only [Once.step, Once.tick] at hs
    split at hs
    case h_2 =>
      split at hs <;> cases hs
      exact hv
    all_goals
      cases hs
      try exact hv
  | made t w =>
    simp only [Once.step] at hs
    split at hs
    next hpc =>
      have hnone := h.fresh t hpc
      rw [hv] at hnone
      cases hnone
    next => cases hs

/-- A thread comes into a call, and out of it, by its own doing only. -/
theorem Once.step_away {e : OnceEvent T V} (hs : s.step e = some s') (hin : e ≠ .enter u)
    (hout : e ≠ .leave u) : s'.pc u = .away ↔ s.pc u = .away := by
  have hgo : ∀ t pc, (t = u → pc ≠ .away ∧ s.pc t ≠ .away) →
      ((s.go t pc).pc u = .away ↔ s.pc u = .away) := by
    intro t pc hpc
    rw [Once.go_pc]
    split
    next hu =>
      obtain ⟨hnew, hold⟩ := hpc hu.symm
      rw [hu]
      simp [hnew, hold]
    next => exact Iff.rfl
  cases e with
  | enter t =>
    simp only [Once.step] at hs
    split at hs <;> cases hs
    exact hgo t _ (fun ht => absurd (by rw [ht]) hin)
  | leave t =>
    simp only [Once.step] at hs
    split at hs <;> cases hs
    exact hgo t _ (fun ht => absurd (by rw [ht]) hout)
  | tick t =>
    simp only [Once.step, Once.tick] at hs
    split at hs
    next hpc =>
      cases hs
      exact hgo t _ (fun _ => ⟨by split <;> simp, by simp [hpc]⟩)
    next hpc =>
      split at hs <;> cases hs
      exact hgo t _ (fun _ => ⟨by simp, by simp [hpc]⟩)
    next hpc =>
      cases hs
      exact hgo t _ (fun _ => ⟨by split <;> simp, by simp [hpc]⟩)
    next hpc =>
      cases hs
      exact hgo t _ (fun _ => ⟨by simp, by simp [hpc]⟩)
    next hpc =>
      cases hs
      exact hgo t _ (fun _ => ⟨by simp, by simp [hpc]⟩)
    all_goals cases hs
  | made t v =>
    simp only [Once.step] at hs
    split at hs
    next hpc =>
      cases hs
      exact hgo t _ (fun _ => ⟨by simp, by simp [hpc]⟩)
    next => cases hs

/-- By itself, with `v` for a value to be made, the thread comes to where it reads the
value, and the mutex is free then. -/
def Once.Finishes (s : Once T V) (t : T) (v : V) (n : Nat) : Prop :=
  ∃ es s', es.length ≤ n ∧ (∀ e ∈ es, e = .tick t ∨ e = .made t v) ∧
    run Once.step s es = some s' ∧ s'.pc t = .read ∧ ∀ u, u ≠ t → s'.pc u = s.pc u

section
variable {v : V} {n : Nat} {e : OnceEvent T V}

theorem Once.Finishes.next (he : e = .tick t ∨ e = .made t v) (hs : s.step e = some s')
    (hothers : ∀ u, u ≠ t → s'.pc u = s.pc u) (h : s'.Finishes t v n) :
    s.Finishes t v (n + 1) := by
  obtain ⟨es, s'', hlen, hes, hr, hpc, hsame⟩ := h
  refine ⟨e :: es, s'', Nat.succ_le_succ hlen, ?_, run_cons.mpr ⟨s', hs, hr⟩, hpc, ?_⟩
  · intro e' he'
    rcases List.mem_cons.mp he' with rfl | hmem
    · exact he
    · exact hes e' hmem
  · intro u hu
    rw [hsame u hu, hothers u hu]

theorem Once.Finishes.more {m : Nat} (h : s.Finishes t v n) (hm : n ≤ m) : s.Finishes t v m := by
  obtain ⟨es, s', hlen, hrest⟩ := h
  exact ⟨es, s', Nat.le_trans hlen hm, hrest⟩

theorem Once.finishes_read (ht : s.pc t = .read) : s.Finishes t v 0 :=
  ⟨[], s, Nat.le_refl 0, by simp, rfl, ht, fun _ _ => rfl⟩

theorem Once.finishes_unlock (ht : s.pc t = .unlock) : s.Finishes t v 1 := by
  have hs : s.step (.tick t) = some { s.go t .read with owner := none } := by
    simp [Once.step, Once.tick, ht]
  exact .next (.inl rfl) hs (fun u hu => go_pc_other s _ hu) (finishes_read (go_pc_self ..))

theorem Once.finishes_publish (ht : s.pc t = .publish) : s.Finishes t v 2 := by
  have hs : s.step (.tick t) = some { s.go t .unlock with ready := true } := by
    simp [Once.step, Once.tick, ht]
  exact .next (.inl rfl) hs (fun u hu => go_pc_other s _ hu) (finishes_unlock (go_pc_self ..))

theorem Once.finishes_create (ht : s.pc t = .create) : s.Finishes t v 3 := by
  have hs : s.step (.made t v) =
      some { s.go t .publish with value := v, made := s.made ++ [v] } := by
    simp [Once.step, ht]
  exact .next (.inr rfl) hs (fun u hu => go_pc_other s _ hu) (finishes_publish (go_pc_self ..))

theorem Once.finishes_recheck (ht : s.pc t = .recheck) : s.Finishes t v 4 := by
  have hs : s.step (.tick t) = some (s.go t (if s.ready then .unlock else .create)) := by
    simp [Once.step, Once.tick, ht]
  refine .next (.inl rfl) hs (fun u hu => go_pc_other s _ hu) ?_
  cases hr : s.ready with
  | true => exact (finishes_unlock (go_pc_self ..)).more (by omega)
  | false => exact finishes_create (go_pc_self ..)

/-- The holder of the mutex is kept up by nobody. -/
theorem Once.finishes_inside (ht : (s.pc t).inside = true) : s.Finishes t v 4 := by
  cases hpc : s.pc t with
  | recheck => exact finishes_recheck hpc
  | create => exact (finishes_create hpc).more (by omega)
  | publish => exact (finishes_publish hpc).more (by omega)
  | unlock => exact (finishes_unlock hpc).more (by omega)
  | away | check | lock | read =>
    rw [hpc] at ht
    cases ht

theorem Once.finishes_lock (ht : s.pc t = .lock) (hfree : s.owner = none) :
    s.Finishes t v 5 := by
  have hs : s.step (.tick t) = some { s.go t .recheck with owner := some t } := by
    simp [Once.step, Once.tick, ht, hfree]
  exact .next (.inl rfl) hs (fun u hu => go_pc_other s _ hu) (finishes_recheck (go_pc_self ..))

theorem Once.finishes_check (ht : s.pc t = .check) (hfree : s.ready = false → s.owner = none) :
    s.Finishes t v 6 := by
  have hs : s.step (.tick t) = some (s.go t (if s.ready then .read else .lock)) := by
    simp [Once.step, Once.tick, ht]
  refine .next (.inl rfl) hs (fun u hu => go_pc_other s _ hu) ?_
  cases hr : s.ready with
  | true => exact (finishes_read (go_pc_self ..)).more (by omega)
  | false => exact finishes_lock (go_pc_self ..) (hfree hr)

theorem Once.finishes_free (ht : s.pc t ≠ .away) (hfree : s.owner = none) :
    s.Finishes t v 6 := by
  cases hpc : s.pc t with
  | away => exact absurd hpc ht
  | check => exact finishes_check hpc (fun _ => hfree)
  | lock => exact (finishes_lock hpc hfree).more (by omega)
  | read => exact (finishes_read hpc).more (by omega)
  | recheck | create | publish | unlock =>
    exact (finishes_inside (by rw [hpc]; rfl)).more (by omega)

end

/-- No call is ever stuck: from wherever a run has come to, ten moves bring it to its
end, all of them its thread's own or those of who holds the mutex. -/
theorem Once.Inv.finishes (h : s.Inv) (ht : s.pc t ≠ .away) (v : V) :
    ∃ es s', es.length ≤ 10 ∧
      (∀ e ∈ es, ∃ u, (u = t ∨ s.owner = some u) ∧ (e = .tick u ∨ e = .made u v)) ∧
      run Once.step s es = some s' ∧ s'.pc t = .read := by
  cases hown : s.owner with
  | none =>
    obtain ⟨es, s', hlen, hes, hr, hpc, -⟩ := Once.finishes_free (v := v) ht hown
    exact ⟨es, s', by omega, fun e he => ⟨t, .inl rfl, hes e he⟩, hr, hpc⟩
  | some u =>
    have hin := (h.owner u).mpr hown
    obtain ⟨es, s', hlen, hes, hr, hpc, hsame⟩ := Once.finishes_inside (v := v) hin
    by_cases hu : t = u
    · subst hu
      exact ⟨es, s', by omega, fun e he => ⟨t, .inl rfl, hes e he⟩, hr, hpc⟩
    · have h' : s'.Inv := run_invariant h (fun _ _ _ hi hs => hi.step hs) hr
      have hfree : s'.owner = none := by
        cases hown' : s'.owner with
        | none => rfl
        | some w =>
          have hw := (h'.owner w).mpr hown'
          by_cases he : w = u
          · rw [he, hpc] at hw
            cases hw
          · rw [hsame w he] at hw
            exact absurd (h.alone hin hw) he
      obtain ⟨es', s'', hlen', hes', hr', hpc', -⟩ :=
        Once.finishes_free (v := v) (by rwa [hsame t hu]) hfree
      refine ⟨es ++ es', s'', by simp; omega, ?_, run_append.mpr ⟨s', hr, hr'⟩, hpc'⟩
      intro e he
      rcases List.mem_append.mp he with he | he
      · exact ⟨u, .inr rfl, hes e he⟩
      · exact ⟨t, .inl rfl, hes' e he⟩

end SwitchLdnZt.Library
