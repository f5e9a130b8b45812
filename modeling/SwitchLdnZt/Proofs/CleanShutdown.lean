import SwitchLdnZt.PcDiag.Main

namespace SwitchLdnZt.Proofs.CleanShutdown
open Library App PcDiag

/-- Down or waited for, as far as `main` can tell. -/
def Settled (s : Main) : Prop := s.stopped = true ∧ (s.sawDown = true ∨ 3000 ≤ s.rested)

/-- No waiting loop begins an iteration with the flag set, and `main` does not return
before a node that it started is stopped and settled. -/
structure Clean (s : Main) : Prop where
  prompt : ∀ b ∈ s.begun, b.2 = false
  stops : ∀ code, s.pc = .returned code → s.started = true → Settled s

/-- Once the signal has come, the node is online when it is asked, and has its address. -/
def answered (s : Main) : Event → Bool
  | .isOnline yes => !s.shutdownRequested || yes
  | .addrIsAssigned rc => !s.shutdownRequested || rc ≠ 0
  | _ => true

/-- What holds where `main` is. -/
def AtPc (s : Main) : Prop :=
  match s.pc with
  | .readNetworkId | .nodeStart => s.started = false
  | .down | .downSleep => s.stopped = true
  | .returned _ => s.started = true → Settled s
  | _ => True

structure Inv (s : Main) : Prop where
  rested : s.waitedMs ≤ s.rested
  place : AtPc s

variable {a : Args} {rxbuf : Ping.Buffer 256} {s s' : Main} {e : Event}

theorem readNetworkId_inv (h : Inv s) (hp : s.pc = .readNetworkId) (file : Option Bytes) :
    Inv (s.readNetworkId a file) := by
  obtain ⟨hrested, hplace⟩ := h
  rw [AtPc, hp] at hplace
  unfold Main.readNetworkId
  split
  · refine ⟨hrested, ?_⟩
    intro hs
    rw [Main.print, hplace] at hs
    cases hs
  · exact ⟨hrested, hplace⟩

theorem nodeStart_inv (h : Inv s) (hp : s.pc = .nodeStart) (rc : Int) : Inv (s.nodeStart rc) := by
  obtain ⟨hrested, hplace⟩ := h
  rw [AtPc, hp] at hplace
  unfold Main.nodeStart
  dsimp only
  split
  · refine ⟨hrested, ?_⟩
    intro hs
    rw [Main.print, hplace] at hs
    cases hs
  · exact ⟨hrested, trivial⟩

theorem ping_inv (h : Inv s) (rc : Int) : Inv (s.ping a rc) := by
  unfold Main.ping
  split <;> exact ⟨h.rested, trivial⟩

theorem report_inv (h : Inv s) (nodeId : UInt64) (online ready : Int) :
    Inv (s.report nodeId online ready) := by
  unfold Main.report
  split <;> exact ⟨h.rested, trivial⟩

/-- The loop behind `zts_node_stop` ends with the node down or its time over. -/
theorem down_inv (h : Inv s) (hp : s.pc = .down) : Inv s.down := by
  obtain ⟨hrested, hplace⟩ := h
  rw [AtPc, hp] at hplace
  unfold Main.down
  split
  next => exact ⟨hrested, hplace⟩
  next hguard =>
    refine ⟨hrested, ?_⟩
    intro _
    refine ⟨hplace, ?_⟩
    cases hdown : s.nodeDown with
    | true => exact .inl rfl
    | false =>
      right
      simp only [hdown, Bool.not_false, Bool.true_and, decide_eq_true_eq] at hguard
      change 3000 ≤ s.rested
      omega

theorem step_inv (h : Inv s) (hs : s.step a e = some s') : Inv s' := by
  cases e with
  | sigint =>
    cases hs
    exact ⟨h.rested, h.place⟩
  | node self msg =>
    cases hs
    cases msg with
    | none => exact h
    | some msg => exact ⟨h.rested, h.place⟩
  | networkId file =>
    simp only [Main.step] at hs
    split at hs
    next hp =>
      cases hs
      exact readNetworkId_inv h hp file
    next => cases hs
  | nodeStart rc =>
    simp only [Main.step] at hs
    split at hs
    next hp =>
      cases hs
      exact nodeStart_inv h hp rc
    next => cases hs
  | isOnline yes =>
    simp only [Main.step] at hs
    split at hs
    · cases hs
      split <;> exact ⟨h.rested, trivial⟩
    · cases hs
  | netJoin rc =>
    simp only [Main.step] at hs
    split at hs
    · cases hs
      exact ⟨h.rested, trivial⟩
    · cases hs
  | addrIsAssigned rc =>
    simp only [Main.step] at hs
    split at hs
    · cases hs
      split <;> exact ⟨h.rested, trivial⟩
    · cases hs
  | socket ip nodeId fd now =>
    simp only [Main.step] at hs
    split at hs
    · cases hs
      exact ⟨h.rested, trivial⟩
    · cases hs
  | turn now =>
    simp only [Main.step] at hs
    split at hs
    · split at hs <;> cases hs <;> exact ⟨h.rested, trivial⟩
    · cases hs
  | receive incoming =>
    simp only [Main.step] at hs
    split at hs
    · cases hs
      exact ⟨h.rested, trivial⟩
    · cases hs
  | ping rc =>
    simp only [Main.step] at hs
    split at hs
    · cases hs
      exact ping_inv h rc
    · cases hs
  | report nodeId online ready =>
    simp only [Main.step] at hs
    split at hs
    · cases hs
      exact report_inv h nodeId online ready
    · cases hs
  | nodeStop =>
    simp only [Main.step] at hs
    split at hs
    · cases hs
      exact ⟨h.rested, rfl⟩
    · cases hs
  | down =>
    simp only [Main.step] at hs
    split at hs
    next hp =>
      cases hs
      exact down_inv h hp
    next => cases hs
  | slept more =>
    simp only [Main.step] at hs
    split at hs
    next =>
      cases hs
      exact ⟨h.rested, trivial⟩
    next =>
      cases hs
      exact ⟨h.rested, trivial⟩
    next =>
      cases hs
      exact ⟨h.rested, trivial⟩
    next hp =>
      -- each turn adds what it asks to sleep, and has slept no less
      cases hs
      obtain ⟨hrested, hplace⟩ := h
      rw [AtPc, hp] at hplace
      refine ⟨?_, hplace⟩
      change s.waitedMs + 50 ≤ ((s.rested + (50 + more) : Nat) : Int)
      omega
    next => cases hs

@[simp] theorem readNetworkId_begun (s : Main) (file : Option Bytes) :
    (s.readNetworkId a file).begun = s.begun := by
  unfold Main.readNetworkId
  split <;> rfl

@[simp] theorem nodeStart_begun (s : Main) (rc : Int) : (s.nodeStart rc).begun = s.begun := by
  unfold Main.nodeStart
  dsimp only
  split <;> rfl

@[simp] theorem onEvent_begun (s : Main) (self : Self) (msg : Option EventMsg) :
    (s.onEvent self msg).begun = s.begun := by
  cases msg <;> rfl

@[simp] theorem ping_begun (s : Main) (rc : Int) : (s.ping a rc).begun = s.begun := by
  unfold Main.ping
  split <;> rfl

@[simp] theorem report_begun (s : Main) (nodeId : UInt64) (online ready : Int) :
    (s.report nodeId online ready).begun = s.begun := by
  unfold Main.report
  split <;> rfl

@[simp] theorem down_begun (s : Main) : s.down.begun = s.begun := by
  unfold Main.down
  split <;> rfl

/-- The iteration that a step begins. -/
def begins (s : Main) : Event → List (Loop × Bool)
  | .isOnline yes => if yes then [] else [(.online, s.shutdownRequested)]
  | .addrIsAssigned rc => if rc = 0 then [(.addr, s.shutdownRequested)] else []
  | .turn _ => if s.shutdownRequested then [] else [(.ping, s.shutdownRequested)]
  | _ => []

theorem step_begun (hs : s.step a e = some s') : s'.begun = s.begun ++ begins s e := by
  cases e with
  | isOnline yes =>
    simp only [Main.step] at hs
    split at hs <;> cases hs
    cases yes <;> simp [begins, Main.begin]
  | addrIsAssigned rc =>
    simp only [Main.step] at hs
    split at hs <;> cases hs
    by_cases hrc : rc = 0 <;> simp [begins, Main.begin, hrc]
  | turn now =>
    simp only [Main.step] at hs
    split at hs
    · split at hs <;> cases hs <;> simp_all [begins, Main.begin, Main.print]
    · cases hs
  | _ =>
    -- no other step begins one
    simp only [begins, List.append_nil]
    simp only [Main.step] at hs
    first
      | cases hs; simp
      | split at hs <;> cases hs <;> simp [Main.socket, Main.receive, Main.print]

theorem begins_prompt (s : Main) (e : Event) :
    answered s e = true ↔ ∀ b ∈ begins s e, b.2 = false := by
  cases e with
  | isOnline yes => cases yes <;> simp [answered, begins]
  | addrIsAssigned rc => by_cases hrc : rc = 0 <;> simp [answered, begins, hrc]
  | turn now => cases h : s.shutdownRequested <;> simp [answered, begins, h]
  | _ => simp [answered, begins]

theorem boot_inv : Inv (.boot rxbuf) := ⟨Int.le_refl _, rfl⟩

theorem Inv.stops (h : Inv s) {code : Int} (hp : s.pc = .returned code)
    (hs : s.started = true) : Settled s := by
  have hplace := h.place
  rw [AtPc, hp] at hplace
  exact hplace hs

/-- The iterations begun so far all began without the flag exactly in a run whose every
question to the node was answered. -/
theorem prompt_iff {es : List Event} (h : run (Main.step a) (.boot rxbuf) es = some s) :
    (∀ b ∈ s.begun, b.2 = false) ↔
      run (guarded answered (Main.step a)) (.boot rxbuf) es = some s := by
  refine run_history (P := fun es s => (∀ b ∈ s.begun, b.2 = false) ↔
    run (guarded answered (Main.step a)) (.boot rxbuf) es = some s) ?_ ?_ h
  · simp [Main.boot]
  · intro es t e u ht ih hstep
    rw [step_begun hstep, List.forall_mem_append, ih, ← begins_prompt, run_snoc]
    constructor
    · intro hall
      exact ⟨t, hall.1, guarded_eq_some.mpr ⟨hall.2, hstep⟩⟩
    · intro hrun
      obtain ⟨t', ht', hstep'⟩ := hrun
      obtain rfl := Option.some.inj (ht.symm.trans (run_of_guarded ht'))
      exact ⟨ht', (guarded_eq_some.mp hstep').1⟩

/-- A run shuts down cleanly exactly if the node was there whenever it was asked after
the signal. -/
theorem clean_iff_answered {es : List Event}
    (h : run (Main.step a) (.boot rxbuf) es = some s) :
    Clean s ↔ run (guarded answered (Main.step a)) (.boot rxbuf) es = some s := by
  have hinv : Inv s := run_invariant boot_inv (fun _ _ _ hi hs => step_inv hi hs) h
  constructor
  · intro hclean
    exact (prompt_iff h).mp hclean.prompt
  · intro hrun
    exact ⟨(prompt_iff h).mpr hrun, fun _ hp hs => hinv.stops hp hs⟩

def noArgs : Args := ⟨[], 0, 9994⟩

def unset : Ping.Buffer 256 := ⟨List.replicate 256 0xCC, List.length_replicate⟩

/-- A run with the signal in the ping loop, the node down at once. -/
def interrupted : List Event := [.networkId (some (ascii "8056c2e21c000001")), .nodeStart 0,
  .isOnline false, .slept 0, .isOnline true, .netJoin 0, .addrIsAssigned 1,
  .socket (ascii "10.147.17.5") 0x89e92ceee5 3 0, .turn 50, .receive none, .ping 0,
  .report 0x89e92ceee5 1 1, .sigint, .slept 0, .turn 100, .nodeStop, .down, .slept 0,
  .node ⟨0x89e92ceee5, 9993⟩ (some ⟨.nodeDown, none⟩), .down]

theorem interrupted_runs : ∃ s, run (Main.step noArgs) (.boot unset) interrupted = some s ∧
    s.pc = .returned 0 ∧
    run (guarded answered (Main.step noArgs)) (.boot unset) interrupted = some s := by
  have hdone : (run (guarded answered (Main.step noArgs)) (.boot unset) interrupted).map
      Main.pc = some (.returned 0) := by decide
  obtain ⟨s, hs, hp⟩ := Option.map_eq_some_iff.mp hdone
  exact ⟨s, run_of_guarded hs, hp, hs⟩

theorem interrupted_clean : ∃ s, run (Main.step noArgs) (.boot unset) interrupted = some s ∧
    s.pc = .returned 0 ∧ Clean s := by
  obtain ⟨s, hrun, hp, hguarded⟩ := interrupted_runs
  exact ⟨s, hrun, hp, (clean_iff_answered hrun).mpr hguarded⟩

/-- The signal comes while `main` waits for the node. -/
def early : List Event :=
  [.networkId (some (ascii "8056c2e21c000001")), .nodeStart 0, .sigint, .isOnline false]

theorem waits_on_after_signal :
    ¬ ∀ a rxbuf es s, run (Main.step a) (.boot rxbuf) es = some s → Clean s := by
  intro h
  have hearly : (run (Main.step noArgs) (.boot unset) early).map Main.begun =
      some [(.online, true)] := by decide
  obtain ⟨s, hs, hbegun⟩ := Option.map_eq_some_iff.mp hearly
  have hlate := (h noArgs unset early s hs).prompt (.online, true) (by simp [hbegun])
  cases hlate

end SwitchLdnZt.Proofs.CleanShutdown
