import SwitchLdnZt.Sysmodule.Main

namespace SwitchLdnZt.Proofs.DeferredInit
open Library Sysmodule

/-- The worker really runs, or has run. -/
def ran : ZtThread → Bool
  | .started | .inside | .exited => true
  | .none | .created => false

def invoked : ZtThread → Nat
  | .inside | .exited => 1
  | .none | .created | .started => 0

structure ExactlyOnce (m : Module) : Prop where
  after : 0 < m.invocations → m.seen = true
  once : m.invocations ≤ 1
  owed : m.pc = .sleep → m.ztInitStarted = true → m.direct = true ∨ ran m.ztThread = true

/-- What `Main` knows at each call that it is about to make. -/
def AtCall (m : Module) : MainPc → Prop
  | .tryStart | .sleep => True
  | .openFile => m.ztInitStarted = false
  | .threadCreate => m.ztInitStarted = true ∧ m.direct = false ∧ m.ztThread = .none
  | .threadStart => m.ztInitStarted = true ∧ m.direct = false ∧ m.ztThread = .created
  | .inline => m.direct = true

structure Inv (m : Module) : Prop where
  seen : m.ztInitStarted = true → m.seen = true
  unstarted : m.ztInitStarted = false → m.direct = false ∧ m.ztThread = .none
  direct : m.direct = true → m.ztThread = .none
  invocations : m.invocations = m.direct.toNat + invoked m.ztThread
  call : AtCall m m.pc

theorem boot_inv : Inv .boot :=
  ⟨fun h => (by cases h), fun _ => ⟨rfl, rfl⟩, fun h => (by cases h), rfl, trivial⟩

theorem Inv.after {m : Module} (h : Inv m) (hi : 0 < m.invocations) : m.seen = true := by
  cases hs : m.ztInitStarted with
  | true => exact h.seen hs
  | false =>
    obtain ⟨hd, ht⟩ := h.unstarted hs
    rw [h.invocations, hd, ht] at hi
    cases hi

theorem Inv.once {m : Module} (h : Inv m) : m.invocations ≤ 1 := by
  rw [h.invocations]
  cases hd : m.direct with
  | false => cases m.ztThread <;> decide
  | true =>
    rw [h.direct hd]
    decide

theorem step_inv {m m' : Module} {e : ModuleEvent} (h : Inv m) (hs : m.step e = some m') :
    Inv m' := by
  have hcall := h.call
  cases e with
  | poll =>
    simp only [Module.step] at hs
    split at hs
    · cases hs
      refine ⟨h.seen, h.unstarted, h.direct, h.invocations, ?_⟩
      cases hst : m.ztInitStarted with
      | true => trivial
      | false => exact rfl
    · cases hs
  | openFile rc =>
    simp only [Module.step] at hs
    split at hs
    next hpc =>
      rw [hpc] at hcall
      obtain ⟨hd, ht⟩ := h.unstarted hcall
      split at hs
      · cases hs
        exact ⟨fun _ => rfl, fun h => (by cases h), h.direct, h.invocations, rfl, hd, ht⟩
      · cases hs
        exact ⟨h.seen, h.unstarted, h.direct, h.invocations, trivial⟩
    next => cases hs
  | threadCreate rc =>
    simp only [Module.step] at hs
    split at hs
    next hpc =>
      rw [hpc] at hcall
      obtain ⟨hst, hd, ht⟩ := hcall
      have hi := h.invocations
      rw [hd, ht] at hi
      split at hs
      · cases hs
        refine ⟨h.seen, fun hn => ?_, fun hd' => ?_, ?_, hst, hd, rfl⟩
        · rw [hst] at hn
          cases hn
        · rw [hd] at hd'
          cases hd'
        · simp [hi, hd, invoked]
      · cases hs
        refine ⟨h.seen, fun hn => ?_, fun _ => ht, ?_, rfl⟩
        · rw [hst] at hn
          cases hn
        · simp [hi, ht, invoked]
    next => cases hs
  | threadStart rc =>
    simp only [Module.step] at hs
    split at hs
    next hpc =>
      rw [hpc] at hcall
      obtain ⟨hst, hd, ht⟩ := hcall
      have hi := h.invocations
      rw [hd, ht] at hi
      cases hs
      refine ⟨h.seen, fun hn => ?_, fun hd' => ?_, ?_, trivial⟩
      · rw [hst] at hn
        cases hn
      · rw [hd] at hd'
        cases hd'
      · rw [hi, hd, ht]
        cases succeeded rc <;> rfl
    next => cases hs
  | inlineReturns rc =>
    simp only [Module.step] at hs
    split at hs
    · cases hs
      exact ⟨h.seen, h.unstarted, h.direct, h.invocations, trivial⟩
    · cases hs
  | threadEnters =>
    simp only [Module.step] at hs
    split at hs
    next ht =>
      cases hs
      have hd : m.direct = false := by
        cases hd : m.direct with
        | false => rfl
        | true => simp [h.direct hd] at ht
      refine ⟨h.seen, fun hn => ?_, fun hd' => ?_, ?_, ?_⟩
      · rw [(h.unstarted hn).2] at ht
        cases ht
      · rw [hd] at hd'
        cases hd'
      · simp [h.invocations, hd, ht, invoked]
      · cases hpc : m.pc <;> simp_all [AtCall]
    next => cases hs
  | threadReturns rc =>
    simp only [Module.step] at hs
    split at hs
    next ht =>
      cases hs
      refine ⟨h.seen, fun hn => ?_, fun hd => ?_, ?_, ?_⟩
      · rw [(h.unstarted hn).2] at ht
        cases ht
      · rw [h.direct hd] at ht
        cases ht
      · rw [Module.finish, h.invocations, ht]
        rfl
      · cases hpc : m.pc <;> simp_all [AtCall, Module.finish]
    next => cases hs
  | wake =>
    simp only [Module.step] at hs
    split at hs
    · cases hs
      exact ⟨h.seen, h.unstarted, h.direct, h.invocations, trivial⟩
    · cases hs

/-- Between two polls a module that is marked as started has an initialisation. -/
def Kept (m : Module) : Prop :=
  m.pc = .sleep ∨ m.pc = .tryStart → m.ztInitStarted = true →
    m.direct = true ∨ ran m.ztThread = true

def starts : ModuleEvent → Bool
  | .threadStart rc => succeeded rc
  | _ => true

theorem step_kept {m m' : Module} {e : ModuleEvent} (h : Inv m) (hk : Kept m)
    (he : starts e = true) (hs : m.step e = some m') : Kept m' := by
  have hcall := h.call
  cases e with
  | poll =>
    simp only [Module.step] at hs
    split at hs
    next hpc =>
      cases hs
      exact fun _ => hk (.inr hpc)
    next => cases hs
  | openFile rc =>
    simp only [Module.step] at hs
    split at hs
    next hpc =>
      rw [hpc] at hcall
      split at hs
      · cases hs
        intro hp
        simp at hp
      · cases hs
        intro _ hst
        rw [show m.ztInitStarted = false from hcall] at hst
        cases hst
    next => cases hs
  | threadCreate rc =>
    simp only [Module.step] at hs
    split at hs
    · split at hs
      · cases hs
        intro hp
        simp at hp
      · cases hs
        intro hp
        simp at hp
    · cases hs
  | threadStart rc =>
    simp only [Module.step] at hs
    split at hs
    · cases hs
      intro _ _
      simp only [starts] at he
      simp [he, ran]
    · cases hs
  | inlineReturns rc =>
    simp only [Module.step] at hs
    split at hs
    next hpc =>
      rw [hpc] at hcall
      cases hs
      exact fun _ _ => .inl hcall
    next => cases hs
  | threadEnters | threadReturns rc =>
    simp only [Module.step] at hs
    split at hs
    · cases hs
      exact fun _ _ => .inr rfl
    · cases hs
  | wake =>
    simp only [Module.step] at hs
    split at hs
    next hpc =>
      cases hs
      exact fun _ => hk (.inl hpc)
    next => cases hs

theorem run_inv {es : List ModuleEvent} {m : Module} (hr : run Module.step .boot es = some m) :
    Inv m :=
  run_invariant boot_inv (fun _ _ _ h hs => step_inv h hs) hr

theorem run_kept {es : List ModuleEvent} {m : Module} (hr : run Module.step .boot es = some m) :
    (∀ e ∈ es, starts e = true) → Kept m := by
  refine run_history (P := fun es m => (∀ e ∈ es, starts e = true) → Kept m) ?_ ?_ hr
  · intro _ _ hst
    cases hst
  · intro es m e m' hr ih hs hall
    refine step_kept (run_inv hr) (ih fun e' he' => hall e' ?_) (hall e ?_) hs
    · exact List.mem_append_left _ he'
    · exact List.mem_append_right _ List.mem_cons_self

/-- A thread that fails to start leaves the module started with nothing to come. -/
theorem failed_start {m m' : Module} {rc : Result} (h : Inv m) (hrc : succeeded rc = false)
    (hs : m.step (.threadStart rc) = some m') : ¬ ExactlyOnce m' := by
  have hcall := h.call
  simp only [Module.step] at hs
  split at hs
  next hpc =>
    rw [hpc] at hcall
    obtain ⟨hst, hd, ht⟩ := hcall
    cases hs
    intro ho
    rcases ho.owed rfl hst with hd' | hran
    · rw [hd] at hd'
      cases hd'
    · simp [hrc, ht, ran] at hran
  next => cases hs

/-- Over every run, polls and interleavings alike: the initialisation happens exactly
once at every point of it exactly when each thread that was created also started. -/
theorem deferred_init {es : List ModuleEvent} {m : Module}
    (hr : run Module.step .boot es = some m) :
    (∀ pre t, pre <+: es → run Module.step .boot pre = some t → ExactlyOnce t) ↔
      ∀ rc, .threadStart rc ∈ es → succeeded rc = true := by
  constructor
  · intro h rc hm
    obtain ⟨pre, post, rfl⟩ := List.append_of_mem hm
    obtain ⟨t, ht, hrest⟩ := run_append.mp hr
    obtain ⟨u, hu, _⟩ := run_cons.mp hrest
    cases hrc : succeeded rc with
    | true => rfl
    | false =>
      have hsnoc : run Module.step .boot (pre ++ [.threadStart rc]) = some u :=
        run_snoc.mpr ⟨t, ht, hu⟩
      exact absurd (h _ u ⟨post, by simp⟩ hsnoc) (failed_start (run_inv ht) hrc hu)
  · intro h pre t hpre ht
    have hinv := run_inv ht
    refine ⟨hinv.after, hinv.once, fun hpc => run_kept ht ?_ (.inl hpc)⟩
    intro e he
    cases e with
    | threadStart rc => exact h rc (hpre.subset he)
    | _ => rfl

/-- The enable file is there at the first poll and the thread does not start. -/
def lostStart : List ModuleEvent := [.poll, .openFile 0, .threadCreate 0, .threadStart 0x1234]

theorem deferred_init_lost :
    ¬ ∀ (es : List ModuleEvent) (m : Module), run Module.step .boot es = some m →
      ∀ pre t, pre <+: es → run Module.step .boot pre = some t → ExactlyOnce t := by
  intro h
  have ho := h lostStart _ rfl lostStart _ (List.prefix_refl _) rfl
  rcases ho.owed rfl rfl with hd | hran
  · cases hd
  · cases hran

/-- It starts, and is not started again after the next poll. -/
theorem deferred_init_twice : ExactlyOnce ⟨.sleep, true, true, 0, .exited, true, false, 1⟩ := by
  let es : List ModuleEvent := [.poll, .openFile 0, .threadCreate 0, .threadStart 0, .threadEnters,
    .threadReturns 0, .wake, .poll]
  have hr : run Module.step .boot es = some ⟨.sleep, true, true, 0, .exited, true, false, 1⟩ := rfl
  exact (deferred_init hr).mpr (by simp [es, succeeded]) es _ (List.prefix_refl es) hr

end SwitchLdnZt.Proofs.DeferredInit
