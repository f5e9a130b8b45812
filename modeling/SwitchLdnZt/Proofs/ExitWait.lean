import SwitchLdnZt.App.Exit
import SwitchLdnZt.Proofs.LockSafety

namespace SwitchLdnZt.Proofs.ExitWait
open Library Compat App LockSafety

def exitingText : ExitCall := .printf (ascii "\nExiting...\n")

def saying : List ExitCall := [exitingText, .consoleUpdate]

def closing (sock : Int) : List ExitCall := if sock ≥ 0 then [.ztsBsdClose sock] else []

def logging : ExitCall := .ztLog (ascii "[EXIT] requested, terminating\n")

def stopping (sock : Int) : List ExitCall :=
  saying ++ closing sock ++ [.ztBeginExit, logging, .ztsNodeStop]

def resting (k : Nat) : List ExitCall := List.replicate k (.svcSleepThread 50)

/-- What `main` has called where it is, after `k` rests. -/
def before (sock : Int) (k : Nat) : ExitPc → List ExitCall
  | .exiting => []
  | .update => [exitingText]
  | .closePing => saying
  | .beginExit => saying ++ closing sock
  | .log => saying ++ closing sock ++ [.ztBeginExit]
  | .nodeStop => saying ++ closing sock ++ [.ztBeginExit, logging]
  | .waiting | .resting | .grace => stopping sock ++ resting k
  | .socketExit => stopping sock ++ resting k ++ [.svcSleepThread 100]
  | .consoleExit => stopping sock ++ resting k ++ [.svcSleepThread 100, .socketExit]
  | .exitProcess => stopping sock ++ resting k ++ [.svcSleepThread 100, .socketExit, .consoleExit]
  | .gone => stopping sock ++ resting k ++
    [.svcSleepThread 100, .socketExit, .consoleExit, .svcExitProcess]

/-- How many turns of `main` that takes. -/
def turns (k : Nat) : ExitPc → Nat
  | .exiting => 0
  | .update => 1
  | .closePing => 2
  | .beginExit => 3
  | .log => 4
  | .nodeStop => 5
  | .waiting => 6 + 2 * k
  | .resting | .grace => 7 + 2 * k
  | .socketExit => 8 + 2 * k
  | .consoleExit => 9 + 2 * k
  | .exitProcess => 10 + 2 * k
  | .gone => 11 + 2 * k

/-- Behind `zt_begin_exit`. -/
def flagged : ExitPc → Bool
  | .exiting | .update | .closePing | .beginExit => false
  | _ => true

/-- Behind `zts_node_stop`. -/
def stopped : ExitPc → Bool
  | .exiting | .update | .closePing | .beginExit | .log | .nodeStop => false
  | _ => true

/-- Behind the wait. -/
def waited : ExitPc → Bool
  | .grace | .socketExit | .consoleExit | .exitProcess | .gone => true
  | _ => false

def isMain : ExitEvent → Bool
  | .main => true
  | _ => false

/-- `main` has come to `pc` with `k` rests. -/
structure Came (sock : Int) (es : List ExitEvent) (s : Exit) (pc : ExitPc) (k : Nat) : Prop where
  rests : s.waitedMs = 50 * k
  bound : k ≤ 60
  fresh : stopped pc = false → k = 0
  more : pc = .resting → k < 60
  calls : s.calls = before sock k pc
  steps : es.countP isMain = turns k pc
  pingSock : pc = .exiting ∨ pc = .update ∨ pc = .closePing → s.pingSock = sock
  flag : s.layer.gExiting = flagged pc
  settled : waited pc = true → s.events.nodeDown = true ∨ k = 60

variable {sock : Int} {es : List ExitEvent} {s s' : Exit} {pc pc' : ExitPc} {k : Nat}

/-- A turn that goes straight on. -/
theorem Came.on (h : Came sock es s pc k) {more : List ExitCall}
    (hcalls : before sock k pc' = before sock k pc ++ more) (hturns : turns k pc' = turns k pc + 1)
    (hfresh : stopped pc' = false → stopped pc = false) (hmore : pc' = .resting → k < 60)
    (hsock : pc' ≠ .exiting ∧ (pc' = .update → pc = .exiting) ∧ (pc' = .closePing → pc = .update))
    (hflag : flagged pc' = flagged pc)
    (hsettled : waited pc' = true → s.events.nodeDown = true ∨ k = 60) :
    Came sock (es ++ [.main]) (s.call more pc') pc' k := by
  refine ⟨h.rests, h.bound, fun hpc => h.fresh (hfresh hpc), hmore, ?_, ?_, ?_, ?_, hsettled⟩
  · rw [hcalls, ← h.calls, Exit.call]
  · rw [List.countP_append, h.steps, hturns]
    rfl
  · rintro (he | he | he)
    · exact absurd he hsock.1
    · exact h.pingSock (.inl (hsock.2.1 he))
    · exact h.pingSock (.inr (.inl (hsock.2.2 he)))
  · rw [hflag, ← h.flag]
    rfl

theorem resting_succ (k : Nat) : resting (k + 1) = resting k ++ [.svcSleepThread 50] :=
  List.replicate_succ'

/-- The rest of 50 ms, and the loop's counter with it. -/
theorem Came.rest (h : Came sock es s .resting k) : Came sock (es ++ [.main])
    ({ s with waitedMs := s.waitedMs + 50 }.call [.svcSleepThread 50] .waiting) .waiting
    (k + 1) := by
  have hmore := h.more rfl
  refine ⟨?_, hmore, nofun, nofun, ?_, ?_, nofun, h.flag, nofun⟩
  · have hrests := h.rests
    simp only [Exit.call]
    omega
  · rw [before, resting_succ, ← List.append_assoc, Exit.call, h.calls, before]
  · rw [List.countP_append, h.steps, turns, turns]
    show 7 + 2 * k + 1 = _
    omega

theorem main_came (h : Came sock es s s.pc k) (hs : s.main = some s') :
    ∃ k', Came sock (es ++ [.main]) s' s'.pc k' := by
  generalize hpc : s.pc = pc at h
  rw [Exit.main, hpc] at hs
  cases pc with
  | exiting =>
    dsimp only at hs
    split at hs
    next =>
      cases hs
      have hprint : Came sock es { s with printing := some .main } .exiting k :=
        ⟨h.rests, h.bound, h.fresh, h.more, h.calls, h.steps, h.pingSock, h.flag, h.settled⟩
      exact ⟨k, hprint.on rfl rfl (fun _ => rfl) nofun ⟨nofun, fun _ => rfl, nofun⟩ rfl nofun⟩
    next => cases hs
  | update =>
    cases hs
    exact ⟨k, h.on rfl rfl (fun _ => rfl) nofun ⟨nofun, nofun, fun _ => rfl⟩ rfl nofun⟩
  | closePing =>
    dsimp only at hs
    have hsock := h.pingSock (.inr (.inr rfl))
    split at hs
    next hopen =>
      cases hs
      rw [hsock] at hopen
      have hclosing : closing sock = [.ztsBsdClose sock] := if_pos hopen
      refine ⟨k, h.rests, h.bound, fun _ => h.fresh rfl, nofun, ?_, ?_, nofun, h.flag, nofun⟩
      · rw [Exit.call, h.calls, hsock, ← hclosing]
        rfl
      · rw [List.countP_append, h.steps]
        rfl
    next hnone =>
      cases hs
      rw [hsock] at hnone
      have hclosing : closing sock = [] := if_neg hnone
      exact ⟨k, h.on (by rw [before, before, hclosing]) rfl (fun _ => rfl) nofun
        ⟨nofun, nofun, nofun⟩ rfl nofun⟩
  | beginExit =>
    cases hs
    refine ⟨k, h.rests, h.bound, fun _ => h.fresh rfl, nofun, ?_, ?_, nofun, rfl, nofun⟩
    · rw [Exit.call, h.calls]
      rfl
    · rw [List.countP_append, h.steps]
      rfl
  | log =>
    cases hs
    exact ⟨k, h.on (List.append_assoc _ [_] [_]).symm rfl (fun _ => rfl) nofun
      ⟨nofun, nofun, nofun⟩ rfl nofun⟩
  | nodeStop =>
    cases hs
    have hfresh := h.fresh rfl
    subst hfresh
    have hcalls : before sock 0 .waiting = before sock 0 .nodeStop ++ [.ztsNodeStop] := by
      simp [before, stopping, resting]
    exact ⟨0, h.on hcalls rfl nofun nofun ⟨nofun, nofun, nofun⟩ rfl nofun⟩
  | waiting =>
    dsimp only at hs
    have hrests := h.rests
    have hbound := h.bound
    have hturns : 7 + 2 * k = 6 + 2 * k + 1 := by omega
    split at hs
    next hwait =>
      cases hs
      simp only [Bool.and_eq_true, decide_eq_true_eq] at hwait
      exact ⟨k, h.on (List.append_nil _).symm hturns nofun (fun _ => by omega)
        ⟨nofun, nofun, nofun⟩ rfl nofun⟩
    next hover =>
      cases hs
      refine ⟨k, h.on (List.append_nil _).symm hturns nofun nofun ⟨nofun, nofun, nofun⟩ rfl ?_⟩
      intro _
      cases hdown : s.events.nodeDown with
      | true => exact .inl rfl
      | false =>
        simp only [hdown, Bool.not_false, Bool.true_and, decide_eq_true_eq] at hover
        right
        omega
  | resting =>
    cases hs
    exact ⟨k + 1, h.rest⟩
  | grace =>
    cases hs
    exact ⟨k, h.on rfl (by rw [turns, turns]; omega) nofun nofun ⟨nofun, nofun, nofun⟩ rfl
      h.settled⟩
  | socketExit =>
    cases hs
    exact ⟨k, h.on (List.append_assoc _ [_] [_]).symm (by rw [turns, turns]; omega) nofun nofun
      ⟨nofun, nofun, nofun⟩ rfl h.settled⟩
  | consoleExit =>
    cases hs
    exact ⟨k, h.on (List.append_assoc _ [_, _] [_]).symm (by rw [turns, turns]; omega) nofun nofun
      ⟨nofun, nofun, nofun⟩ rfl h.settled⟩
  | exitProcess =>
    cases hs
    have hout : Came sock es { s with layer := { s.layer with exited := true } } .exitProcess k :=
      ⟨h.rests, h.bound, h.fresh, h.more, h.calls, h.steps, h.pingSock, h.flag, h.settled⟩
    exact ⟨k, hout.on (List.append_assoc _ [_, _, _] [_]).symm (by rw [turns, turns]; omega) nofun
      nofun ⟨nofun, nofun, nofun⟩ rfl h.settled⟩
  | gone => cases hs

theorem printEvent_down {self : Self} {msg : Option EventMsg} {e e' : Events}
    (h : printEvent self msg e = some e') (hdown : e.nodeDown = true) : e'.nodeDown = true := by
  cases msg with
  | none =>
    cases h
    exact hdown
  | some msg =>
    obtain ⟨peers, -, rfl⟩ := Option.map_eq_some_iff.mp h
    rw [hdown, Bool.true_or]

/-- What others do leaves `main` where it is; an event may only say that the node is down. -/
theorem Came.aside {e : ExitEvent} (h : Came sock es s pc k) (he : isMain e = false)
    (hrests : s'.waitedMs = s.waitedMs) (hcalls : s'.calls = s.calls)
    (hsock : s'.pingSock = s.pingSock) (hflag : s'.layer.gExiting = s.layer.gExiting)
    (hdown : s.events.nodeDown = true → s'.events.nodeDown = true) :
    Came sock (es ++ [e]) s' pc k := by
  refine ⟨hrests.trans h.rests, h.bound, h.fresh, h.more, hcalls.trans h.calls, ?_,
    fun hpc => hsock.trans (h.pingSock hpc), hflag.trans h.flag, fun hw => ?_⟩
  · rw [List.countP_append, h.steps, List.countP_singleton, he]
    rfl
  · exact (h.settled hw).imp_left hdown

/-- A thread of the node's that was struck has come to the end of its report. -/
def Ending (l : Layer) : Prop :=
  ∃ t, t ≠ .main ∧ (l.todo t).head? = some (.act .svcExitProcess)

/-- A thread's call comes back once the mutexes in its way are given back. -/
def Returns (l : Layer) (t : Thread) : Prop := ∀ op ∈ l.todo t, goesOn Work.stops op = true

theorem logWrite_goesOn : ∀ op ∈ logWrite, goesOn Work.stops op = true := by
  decide

theorem writeR_goesOn (t : Thread) (fd : Int) (buf : Bytes) (turns : Nat) :
    ∀ op ∈ writeR t fd buf turns, goesOn Work.stops op = true := by
  unfold writeR
  split
  · refine List.forall_mem_append.mpr ⟨logWrite_goesOn, ?_⟩
    split
    · decide
    · split
      · exact fun _ h => absurd h List.not_mem_nil
      · refine List.forall_mem_cons.mpr ⟨rfl, List.forall_mem_append.mpr ⟨?_, by decide⟩⟩
        intro op hop
        rw [List.eq_of_mem_replicate hop]
        rfl
  · decide

theorem wrapped_goesOn (t : Thread) (c : WrappedCall) :
    ∀ op ∈ c.ops t, goesOn Work.stops op = true := by
  cases c with
  | writeR fd buf turns => exact writeR_goesOn t fd buf turns
  | consoleUpdate =>
    simp only [WrappedCall.ops, consoleUpdate]
    split <;> decide
  | getSecureRandom logged =>
    simp only [WrappedCall.ops, getSecureRandom]
    cases logged <;> decide
  | logging lines =>
    refine List.forall_mem_cons.mpr ⟨rfl, List.forall_mem_flatten.mpr ?_⟩
    intro ops hops
    rw [List.eq_of_mem_replicate hops]
    decide
  | mkdir line turns =>
    exact List.forall_mem_append.mpr ⟨by decide, writeR_goesOn t stdoutFileno line turns⟩

theorem ops_goesOn (c : ExitCall) : ∀ op ∈ c.ops, goesOn Work.stops op = true := by
  cases c with
  | printf text => exact writeR_goesOn .main stdoutFileno text 0
  | consoleUpdate => exact wrapped_goesOn .main .consoleUpdate
  | ztLog => exact logWrite_goesOn
  | _ => exact fun _ h => absurd h List.not_mem_nil

/-- What a turn of `main` does to the layer, and to the lock of `stdout`. -/
structure Turned (s s' : Exit) : Prop where
  calls : ∃ calls : List ExitCall,
    s'.layer.toThreads = s.layer.toThreads.goOn .main (calls.flatMap ExitCall.ops)
  exits : s'.layer.exited = true → s.layer.exited = true ∨ s'.pc = .gone
  gone : s'.pc = .gone → s'.layer.exited = true
  printing : s'.printing = s.printing ∨ s'.printing = some .main

theorem main_turned (hs : s.main = some s') : Turned s s' := by
  unfold Exit.main at hs
  cases hpc : s.pc with
  | exitProcess =>
    rw [hpc] at hs
    cases hs
    exact ⟨⟨_, rfl⟩, fun _ => .inr rfl, fun _ => rfl, .inl rfl⟩
  | exiting =>
    rw [hpc] at hs
    dsimp only at hs
    split at hs <;> cases hs
    exact ⟨⟨_, rfl⟩, .inl, nofun, .inr rfl⟩
  | closePing | waiting =>
    rw [hpc] at hs
    dsimp only at hs
    split at hs <;> cases hs <;> exact ⟨⟨_, rfl⟩, .inl, nofun, .inl rfl⟩
  | gone =>
    rw [hpc] at hs
    cases hs
  | _ =>
    rw [hpc] at hs
    cases hs
    exact ⟨⟨_, rfl⟩, .inl, nofun, .inl rfl⟩

theorem Turned.returns (h : Turned s s') {t : Thread} (ht : t ≠ .main → Returns s.layer t) :
    Returns s'.layer t := by
  obtain ⟨calls, hthreads⟩ := h.calls
  unfold Returns
  rw [hthreads]
  by_cases hmain : t = .main
  · rw [hmain, goOn_todo_self]
    exact List.forall_mem_flatMap.mpr fun c _ => ops_goesOn c
  · rw [goOn_todo_other _ _ hmain]
    exact ht hmain

theorem goOn_returns {l : Layer} {t u : Thread} (h : Returns l t) {ops : Ops}
    (hops : u = t → ∀ op ∈ ops, goesOn Work.stops op = true) : Returns (l.goOn u ops) t := by
  unfold Returns
  by_cases hu : u = t
  · subst hu
    rw [show (l.goOn u ops).todo u = ops from goOn_todo_self ..]
    exact hops rfl
  · rw [show (l.goOn u ops).todo t = l.todo t from goOn_todo_other _ ops (Ne.symm hu)]
    exact h

theorem tick_returns {l l' : Layer} {t u : Thread} (h : Returns l t) (hs : l.tick u = some l') :
    Returns l' t := by
  unfold Layer.tick at hs
  split at hs
  next rest hops =>
    split at hs <;> cases hs
    · exact h
    · apply goOn_returns h
      rintro rfl op hop
      exact h op (by rw [hops]; exact List.mem_cons_of_mem _ hop)
  next =>
    cases hs
    exact h
  next =>
    obtain ⟨threads, hth, rfl⟩ := Option.map_eq_some_iff.mp hs
    obtain ⟨op, hops, hothers⟩ := tick_todo hth
    unfold Returns
    by_cases ht : t = u
    · subst ht
      intro o ho
      exact h o (by rw [hops]; exact List.mem_cons_of_mem _ ho)
    · rw [hothers t ht]
      exact h

/-- Nothing but a strike keeps a thread from coming back. -/
theorem step_returns {l l' : Layer} {e : LayerEvent} {t : Thread} (h : Returns l t)
    (hfault : e ≠ .fault t) (hhalt : ∀ line turns, e ≠ .halt t line turns)
    (hs : l.step e = some l') : Returns l' t := by
  unfold Layer.step at hs
  split at hs
  · cases hs
  cases e with
  | call u c =>
    dsimp only at hs
    split at hs <;> cases hs
    exact goOn_returns h fun _ => wrapped_goesOn u c
  | fault u =>
    dsimp only at hs
    split at hs <;> cases hs
    exact goOn_returns h fun hu => absurd (by rw [hu]) hfault
  | halt u line turns =>
    dsimp only at hs
    split at hs <;> cases hs
    exact goOn_returns h fun hu => absurd (by rw [hu]) (hhalt line turns)
  | ztBeginExit | mainExit =>
    cases hs
    exact h
  | tick u => exact tick_returns h hs

/-- What a thread's doing with the wrappers keeps of `main`'s call, and how it may end the
process. -/
theorem beside_keeps {l l' : Layer} {e : LayerEvent} (hb : beside e = true)
    (hlive : l.exited = false) (hmain : Returns l .main) (hs : l.step e = some l') :
    l'.gExiting = l.gExiting ∧ Returns l' .main ∧
      (l'.exited = true → l.gExiting = true ∧ Ending l') := by
  have hno : ∀ {p : Prop}, l.exited = true → p := fun h => absurd (h.symm.trans hlive) (by decide)
  have hreturns : Returns l' .main := by
    refine step_returns hmain ?_ ?_ hs
    · rintro rfl
      cases hb
    · rintro line turns rfl
      cases hb
  unfold Layer.step at hs
  simp only [hlive, Bool.false_eq_true, if_false] at hs
  cases e with
  | call | fault | halt =>
    dsimp only at hs
    split at hs <;> cases hs
    exact ⟨rfl, hreturns, hno⟩
  | ztBeginExit | mainExit => cases hb
  | tick t =>
    dsimp only at hs
    unfold Layer.tick at hs
    split at hs
    next rest hops =>
      have ht : t ≠ .main := by
        rintro rfl
        have := hmain (.act .svcExitProcess) (by rw [hops]; exact List.mem_cons_self)
        cases this
      split at hs
      next hflag =>
        cases hs
        exact ⟨rfl, hreturns, fun _ => ⟨hflag, t, ht, by rw [hops]; rfl⟩⟩
      next =>
        cases hs
        exact ⟨rfl, hreturns, hno⟩
    next =>
      cases hs
      exact ⟨rfl, hreturns, hno⟩
    next =>
      obtain ⟨threads, hth, rfl⟩ := Option.map_eq_some_iff.mp hs
      exact ⟨rfl, hreturns, hno⟩

/-- How the process stands: where `main` has come, and how the process ended if it did. -/
structure Stands (sock : Int) (es : List ExitEvent) (s : Exit) : Prop where
  came : ∃ k, Came sock es s s.pc k
  returns : Returns s.layer .main
  ended : s.layer.exited = true → s.pc = .gone ∨ s.layer.gExiting = true ∧ Ending s.layer
  gone : s.pc = .gone → s.layer.exited = true

theorem step_stands (h : Stands sock es s) {e : ExitEvent} (hs : s.step e = some s') :
    Stands sock (es ++ [e]) s' := by
  obtain ⟨⟨k, hcame⟩, hreturns, -, hgone⟩ := h
  unfold Exit.step at hs
  split at hs
  · cases hs
  next hrunning =>
    have hlive : s.layer.exited = false := Bool.eq_false_iff.mpr hrunning
    cases e with
    | main =>
      dsimp only at hs
      split at hs
      next =>
        have hturned := main_turned hs
        refine ⟨main_came hcame hs, hturned.returns (absurd rfl), fun hx => .inl ?_, hturned.gone⟩
        exact (hturned.exits hx).resolve_left hrunning
      next => cases hs
    | node self msg =>
      obtain ⟨e, he, rfl⟩ := Option.map_eq_some_iff.mp hs
      exact ⟨⟨k, hcame.aside rfl rfl rfl rfl rfl (printEvent_down he)⟩, hreturns,
        fun hx => absurd hx hrunning, hgone⟩
    | thread e =>
      dsimp only at hs
      split at hs
      next hb =>
        obtain ⟨l, hl, rfl⟩ := Option.map_eq_some_iff.mp hs
        obtain ⟨hflag, hreturns', hended⟩ := beside_keeps hb hlive hreturns hl
        refine ⟨⟨k, hcame.aside rfl rfl rfl rfl hflag id⟩, hreturns', fun hx => .inr ?_,
          fun hpc => absurd (hgone hpc) hrunning⟩
        exact ⟨hflag.trans (hended hx).1, (hended hx).2⟩
      next => cases hs
    | printf t | printed t =>
      dsimp only at hs
      split at hs <;> cases hs
      exact ⟨⟨k, hcame.aside rfl rfl rfl rfl rfl id⟩, hreturns, fun hx => absurd hx hrunning,
        hgone⟩

theorem run_stands {fs : List ExitEvent} {u : Exit} (h : Stands sock es s)
    (hr : run Exit.step s fs = some u) : Stands sock (es ++ fs) u := by
  apply run_history (P := fun fs t => Stands sock (es ++ fs) t) (by simpa using h) ?_ hr
  intro fs t e v _ ht hs
  rw [← List.append_assoc]
  exact step_stands ht hs

/-- A fault or a halt strikes only a thread that is in none of the critical sections, and not
in a `printf`. -/
def outside (s : Exit) : ExitEvent → Bool
  | .thread (.fault t) | .thread (.halt t _ _) => holdsNone s.layer t && s.printing ≠ some t
  | _ => true

theorem outside_strikes {e : LayerEvent} (h : outside s (.thread e) = true) :
    strikesOutside s.layer e = true := by
  cases e with
  | fault | halt => exact (Bool.and_eq_true_iff.mp h).1
  | _ => rfl

theorem calls_wellLocked (calls : List ExitCall) :
    wellLocked Work.stops none (calls.flatMap ExitCall.ops) = true := by
  induction calls with
  | nil => rfl
  | cons c calls ih =>
    rw [List.flatMap_cons]
    refine wellLocked_append ?_ ih
    cases c with
    | printf text => exact writeR_wellLocked .main stdoutFileno text 0
    | _ => rfl

theorem disciplined_step {e : ExitEvent} (h : Disciplined Work.stops s.layer.toThreads)
    (hout : outside s e = true) (hs : s.step e = some s') :
    Disciplined Work.stops s'.layer.toThreads := by
  unfold Exit.step at hs
  split at hs
  · cases hs
  cases e with
  | main =>
    dsimp only at hs
    split at hs
    next hidle =>
      obtain ⟨calls, hthreads⟩ := (main_turned hs).calls
      rw [hthreads]
      exact h.restart (calls_wellLocked calls) (idle_free h hidle.1)
    next => cases hs
  | node self msg =>
    obtain ⟨e, -, rfl⟩ := Option.map_eq_some_iff.mp hs
    exact h
  | thread e =>
    dsimp only at hs
    split at hs
    · obtain ⟨l, hl, rfl⟩ := Option.map_eq_some_iff.mp hs
      exact step_disciplined h (outside_strikes hout) hl
    · cases hs
  | printf t | printed t =>
    dsimp only at hs
    split at hs <;> cases hs
    exact h

/-- Whoever is in a `printf` comes out of it. -/
def Prints (s : Exit) : Prop := ∀ t, s.printing = some t → Returns s.layer t

theorem prints_step {e : ExitEvent} (h : Prints s) (hout : outside s e = true)
    (hs : s.step e = some s') : Prints s' := by
  unfold Exit.step at hs
  split at hs
  · cases hs
  cases e with
  | main =>
    dsimp only at hs
    split at hs
    next =>
      have hturned := main_turned hs
      intro t ht
      refine hturned.returns fun hmain => h t ?_
      rcases hturned.printing with hsame | hown
      · rw [← hsame, ht]
      · rw [hown] at ht
        exact absurd (Option.some.inj ht).symm hmain
    next => cases hs
  | node self msg =>
    obtain ⟨e, -, rfl⟩ := Option.map_eq_some_iff.mp hs
    exact h
  | thread e =>
    dsimp only at hs
    split at hs
    · obtain ⟨l, hl, rfl⟩ := Option.map_eq_some_iff.mp hs
      intro t ht
      refine step_returns (h t ht) ?_ ?_ hl
      · rintro rfl
        simp [outside, show s.printing = some t from ht] at hout
      · rintro line turns rfl
        simp [outside, show s.printing = some t from ht] at hout
    · cases hs
  | printf t =>
    dsimp only at hs
    split at hs <;> cases hs
    next hfree =>
      rintro u hu op hop
      cases hu
      rw [hfree.2.2] at hop
      cases hop
  | printed t =>
    dsimp only at hs
    split at hs <;> cases hs
    exact nofun

/-- Nobody is kept from going on by one who was struck. -/
structure Ready (s : Exit) : Prop where
  disciplined : Disciplined Work.stops s.layer.toThreads
  prints : Prints s

theorem ready_step {e : ExitEvent} (h : Ready s) (hout : outside s e = true)
    (hs : s.step e = some s') : Ready s' :=
  ⟨disciplined_step h.disciplined hout hs, prints_step h.prints hout hs⟩

/-- `main` goes on, or a thread does in its call of a wrapper or of `printf`. -/
def calm : ExitEvent → Bool
  | .main | .thread (.tick _) | .printed _ => true
  | _ => false

theorem outside_calm {e : ExitEvent} (h : calm e = true) : outside s e = true := by
  cases e with
  | thread e =>
    cases e with
    | tick => rfl
    | _ => cases h
  | node | printf => cases h
  | main | printed => rfl

/-- From `s` to `u` nobody begins anything but `main`, which makes `n` turns. -/
def Reaches (s : Exit) (n : Nat) (u : Exit) : Prop :=
  ∃ fs, (∀ f ∈ fs, calm f = true) ∧ fs.countP isMain = n ∧ run Exit.step s fs = some u

section
variable {u v : Exit} {m n : Nat}

theorem Reaches.refl (s : Exit) : Reaches s 0 s := ⟨[], by simp, rfl, rfl⟩

theorem Reaches.trans (h : Reaches s m v) (h' : Reaches v n u) : Reaches s (m + n) u := by
  obtain ⟨fs, hcalm, hcount, hr⟩ := h
  obtain ⟨gs, hcalm', hcount', hr'⟩ := h'
  refine ⟨fs ++ gs, List.forall_mem_append.mpr ⟨hcalm, hcalm'⟩, ?_, run_append.mpr ⟨v, hr, hr'⟩⟩
  rw [List.countP_append, hcount, hcount']

theorem Reaches.step {e : ExitEvent} (he : calm e = true) (hs : s.step e = some u) :
    Reaches s (isMain e).toNat u := by
  refine ⟨[e], List.forall_mem_singleton.mpr he, ?_, run_cons.mpr ⟨u, hs, rfl⟩⟩
  rw [List.countP_singleton]
  cases isMain e <;> rfl

theorem Reaches.stands (h : Reaches s n u) (hs : Stands sock es s) :
    ∃ es', es'.countP isMain = es.countP isMain + n ∧ Stands sock es' u := by
  obtain ⟨fs, -, hcount, hr⟩ := h
  exact ⟨es ++ fs, by rw [List.countP_append, hcount], run_stands hs hr⟩

theorem Reaches.ready (h : Reaches s n u) (hs : Ready s) : Ready u := by
  obtain ⟨fs, hcalm, -, hr⟩ := h
  induction fs generalizing s with
  | nil =>
    cases hr
    exact hs
  | cons f fs ih =>
    obtain ⟨hf, hcalm⟩ := List.forall_mem_cons.mp hcalm
    obtain ⟨t, ht, hr⟩ := run_cons.mp hr
    exact ih (ready_step hs (outside_calm hf) ht) hcalm hr

end

def ticked (t : Thread) : ExitEvent := .thread (.tick t)

theorem ticks_reach {ts : List Thread} {l : Layer}
    (hr : run Layer.step s.layer (ts.map .tick) = some l) : Reaches s 0 { s with layer := l } := by
  induction ts generalizing s with
  | nil =>
    cases hr
    exact .refl s
  | cons t ts ih =>
    obtain ⟨l₁, hl, hr⟩ := run_cons.mp hr
    have hlive : s.layer.exited = false := by
      cases hx : s.layer.exited with
      | false => rfl
      | true => simp [Layer.step, hx] at hl
    have hstep : s.step (ticked t) = some { s with layer := l₁ } := by
      simp only [Exit.step, ticked, hlive, Bool.false_eq_true, if_false, beside, if_true, hl,
        Option.map_some]
    exact (Reaches.step rfl hstep).trans (ih (s := { s with layer := l₁ }) hr)

/-- A thread's call of a wrapper comes back. -/
theorem comes_back (h : Ready s) (hlive : s.layer.exited = false) {t : Thread}
    (ht : Returns s.layer t) : ∃ threads, threads.todo t = [] ∧
      Reaches s 0 { s with layer := { s.layer with toThreads := threads } } := by
  obtain ⟨ts, threads, hr, hidle⟩ :=
    h.disciplined.finish (s.layer.todo t) (List.append_nil _).symm ht
  exact ⟨threads, hidle, ticks_reach (run_ticks hlive hr)⟩

/-- Whoever is in a `printf` gives `stdout` back. -/
theorem falls_silent (h : Ready s) (hlive : s.layer.exited = false) :
    ∃ u, Reaches s 0 u ∧ u.printing = none ∧ u.pc = s.pc ∧ u.layer.exited = false := by
  cases hprint : s.printing with
  | none => exact ⟨s, .refl s, hprint, rfl, hlive⟩
  | some t =>
    obtain ⟨threads, hidle, hreach⟩ := comes_back h hlive (h.prints t hprint)
    let v : Exit := { s with layer := { s.layer with toThreads := threads } }
    have hv : v.step (.printed t) = some { v with printing := none } := by
      rw [Exit.step, show v.layer.exited = false from hlive, if_neg Bool.false_ne_true]
      exact if_pos ⟨hprint, hidle⟩
    exact ⟨_, hreach.trans (.step rfl hv), rfl, rfl, hlive⟩

theorem main_enabled (hpc : s.pc ≠ .gone) (hlive : s.layer.exited = false)
    (hidle : s.layer.todo .main = []) (hfree : s.printing = none) :
    ∃ s', s.step .main = some s' ∧ s.main = some s' := by
  have hstep : s.step .main = s.main := by
    rw [Exit.step, hlive, if_neg Bool.false_ne_true]
    exact if_pos ⟨hidle, by rw [hfree]; nofun⟩
  rw [hstep]
  unfold Exit.main
  cases hs : s.pc with
  | gone => exact absurd hs hpc
  | exiting =>
    dsimp only
    rw [if_pos hfree]
    exact ⟨_, rfl, rfl⟩
  | closePing | waiting =>
    dsimp only
    split <;> exact ⟨_, rfl, rfl⟩
  | _ => exact ⟨_, rfl, rfl⟩

/-- `main`'s call comes back, `stdout` is free, and it makes its next call. -/
theorem comes_on (h : Stands sock es s) (hready : Ready s) (hpc : s.pc ≠ .gone)
    (hlive : s.layer.exited = false) :
    ∃ u, Reaches s 1 u ∧ (u.layer.exited = true → u.pc = .gone) := by
  obtain ⟨v, hv, hfree, hsame, hlive'⟩ := falls_silent hready hlive
  obtain ⟨es', -, hstands⟩ := hv.stands h
  obtain ⟨threads, hidle, hback⟩ := comes_back (hv.ready hready) hlive' hstands.returns
  let w : Exit := { v with layer := { v.layer with toThreads := threads } }
  have hwpc : w.pc ≠ .gone := by
    intro hgone
    exact hpc (hsame.symm.trans hgone)
  obtain ⟨u, hu, hmain⟩ := main_enabled hwpc hlive' hidle hfree
  refine ⟨u, (hv.trans hback).trans (.step rfl hu), fun hx => ?_⟩
  exact ((main_turned hmain).exits hx).resolve_left (Bool.eq_false_iff.mp hlive')

theorem turns_le (hk : k ≤ 60) (pc : ExitPc) :
    turns k pc ≤ 131 ∧ (turns k pc = 131 → pc = .gone) := by
  cases pc <;> simp [turns] <;> omega

/-- The turns of `main` that are left bring the process to its end. -/
theorem finishes (n : Nat) (h : Stands sock es s) (hready : Ready s)
    (hx : s.layer.exited = true → s.pc = .gone) (hn : 131 ≤ es.countP isMain + n) :
    ∃ u m, Reaches s m u ∧ u.pc = .gone := by
  induction n generalizing es s with
  | zero =>
    obtain ⟨k, hcame⟩ := h.came
    obtain ⟨hle, hlast⟩ := turns_le hcame.bound s.pc
    rw [hcame.steps] at hn
    exact ⟨s, 0, .refl s, hlast (by omega)⟩
  | succ n ih =>
    by_cases hpc : s.pc = .gone
    · exact ⟨s, 0, .refl s, hpc⟩
    have hlive : s.layer.exited = false := Bool.eq_false_iff.mpr fun hl => hpc (hx hl)
    obtain ⟨v, hv, hx'⟩ := comes_on h hready hpc hlive
    obtain ⟨es', hcount, hstands⟩ := hv.stands h
    obtain ⟨u, m, hu, hgone⟩ := ih hstands (hv.ready hready) hx' (by omega)
    exact ⟨u, 1 + m, hv.trans hu, hgone⟩

/-- What `main` calls from the end of its loop to the end of the process, with `k` rests. -/
def exitCalls (sock : Int) (k : Nat) : List ExitCall := before sock k .gone

theorem before_prefix (sock : Int) (k : Nat) (pc : ExitPc) :
    before sock k pc <+: exitCalls sock k := by
  cases pc with
  | exiting => exact List.nil_prefix
  | _ => simp [before, exitCalls, stopping, saying, List.prefix_append_right_inj]

theorem socketExit_mem (h : .socketExit ∈ before sock k pc) : waited pc = true := by
  cases pc <;> simp_all [before, stopping, saying, exitingText, closing, resting, logging, waited]

theorem ztBeginExit_mem (h : flagged pc = true) : .ztBeginExit ∈ before sock k pc := by
  cases pc <;> simp_all [before, stopping, flagged]

/-- The wrappers when `main`'s loop has ended: `main` has nothing to do in them, whatever the
other threads are in the midst of. -/
structure LoopEnded (layer : Layer) : Prop where
  idle : layer.todo .main = []
  live : layer.exited = false
  unflagged : layer.gExiting = false

variable {events : Events} {layer : Layer} {printing : Option Thread}

theorem start_stands (h : LoopEnded layer) :
    Stands sock [] (.start sock events layer printing) := by
  refine ⟨⟨0, rfl, Nat.zero_le _, fun _ => rfl, nofun, rfl, rfl, fun _ => rfl, h.unflagged,
    nofun⟩, ?_, fun hx => ?_, nofun⟩
  · intro op hop
    rw [Exit.start, h.idle] at hop
    cases hop
  · exact absurd (hx.symm.trans h.live) (by decide)

/-- However the node's threads go on, or are struck, while `main` ends: it makes its calls in
their order, at most 131 turns of it, and `socketExit` among them only once the node is down or
60 rests are over; the process ends before the last of them only by a thread that was struck,
behind `zt_begin_exit`. As long as none is struck inside a critical section of the wrappers or
inside a `printf`, the process can always be brought to the end of them all. -/
theorem exit_waits (hloop : LoopEnded layer) {u : Exit}
    (hrun : run Exit.step (.start sock events layer printing) es = some u) :
    (∃ k ≤ 60, u.calls <+: exitCalls sock k ∧
      (.socketExit ∈ u.calls → u.events.nodeDown = true ∨ k = 60) ∧
      (u.layer.exited = true →
        u.calls = exitCalls sock k ∨ .ztBeginExit ∈ u.calls ∧ Ending u.layer)) ∧
    es.countP isMain ≤ 131 ∧
    (Ready (.start sock events layer printing) →
      run (guarded outside Exit.step) (.start sock events layer printing) es = some u →
      u.layer.exited = false →
      ∃ fs v, (∀ f ∈ fs, calm f = true) ∧ run Exit.step u fs = some v ∧
        v.layer.exited = true ∧ ∃ k ≤ 60, v.calls = exitCalls sock k) := by
  have hstart : Stands sock [] (.start sock events layer printing) := start_stands hloop
  have hstands : Stands sock es u := by simpa using run_stands hstart hrun
  obtain ⟨k, hcame⟩ := hstands.came
  have hbound := hcame.bound
  refine ⟨⟨k, hbound, ?_, ?_, ?_⟩, ?_, ?_⟩
  · rw [hcame.calls]
    exact before_prefix sock k u.pc
  · intro hexit
    rw [hcame.calls] at hexit
    exact hcame.settled (socketExit_mem hexit)
  · intro hx
    rw [hcame.calls]
    rcases hstands.ended hx with hgone | ⟨hflag, hending⟩
    · rw [hgone]
      exact .inl rfl
    · exact .inr ⟨ztBeginExit_mem (hcame.flag ▸ hflag), hending⟩
  · rw [hcame.steps]
    exact (turns_le hbound u.pc).1
  · intro hready hout hlive
    have hu : Ready u := run_guarded hready (fun _ _ _ h hok hs => ready_step h hok hs) hout
    obtain ⟨v, m, hreach, hgone⟩ := finishes 131 hstands hu
      (fun hx => absurd (hx.symm.trans hlive) (by decide)) (Nat.le_add_left _ _)
    obtain ⟨es', -, hlast⟩ := hreach.stands hstands
    obtain ⟨fs, hcalm, -, hv⟩ := hreach
    obtain ⟨k', hcame'⟩ := hlast.came
    refine ⟨fs, v, hcalm, hv, hlast.gone hgone, k', hcame'.bound, ?_⟩
    rw [hcame'.calls, hgone]
    rfl

/-- Two threads print while `main` comes to its own line, one of them is struck later, and the
node is down before `main` rests. -/
def stopsSoon : List ExitEvent :=
  [.printf (.worker 0), .thread (.call (.worker 1) (.logging 1)),
      .thread (.call (.worker 0) (.writeR stdoutFileno (ascii "[PING] -\n") 1))] ++
    List.replicate 7 (ticked (.worker 1)) ++ List.replicate 8 (ticked (.worker 0)) ++
    [.printed (.worker 0), .main] ++ List.replicate 6 (ticked .main) ++
    [.printed .main, .main] ++ List.replicate 6 (ticked .main) ++
    [.thread (.fault (.worker 1)), .main, .main, .main] ++ List.replicate 5 (ticked .main) ++
    [.main, .node ⟨0xdeadbeef01, 9993⟩ (some ⟨.nodeDown, none⟩), .main, .main]

theorem booted_loopEnded : LoopEnded .booted := ⟨rfl, rfl, rfl⟩

def booted : Exit := .start 5 ⟨.start, false, []⟩ .booted none

theorem booted_ready : Ready booted := ⟨booted_disciplined, nofun⟩

set_option maxRecDepth 4000 in
theorem stopsSoon_runs : (run (guarded outside Exit.step) booted stopsSoon).map
    (fun u => (u.pc, u.events.nodeDown, u.layer.exited)) = some (.socketExit, true, false) := by
  decide

theorem exit_waits_soon : ∃ u,
    run (guarded outside Exit.step) booted stopsSoon = some u ∧
    u.pc = .socketExit ∧ u.events.nodeDown = true ∧
    (∃ k ≤ 60, u.calls <+: exitCalls 5 k ∧
      (.socketExit ∈ u.calls → u.events.nodeDown = true ∨ k = 60)) ∧
    ∃ fs v, (∀ f ∈ fs, calm f = true) ∧ run Exit.step u fs = some v ∧
      v.layer.exited = true ∧ ∃ k ≤ 60, v.calls = exitCalls 5 k := by
  obtain ⟨u, hu, hstate⟩ := Option.map_eq_some_iff.mp stopsSoon_runs
  simp only [Prod.mk.injEq] at hstate
  obtain ⟨hpc, hdown, hlive⟩ := hstate
  obtain ⟨⟨k, hk, hcalls, hexit, -⟩, -, hends⟩ :=
    exit_waits booted_loopEnded (run_of_guarded hu)
  exact ⟨u, hu, hpc, hdown, ⟨k, hk, hcalls, hexit⟩, hends booted_ready hu hlive⟩

/-- A thread struck inside `log_write` keeps the log's mutex, and `main` waits for it in its
first `printf`. -/
example : ∃ u rest rest', run Exit.step booted
    [.thread (.call (.worker 0) (.logging 1)), ticked (.worker 0), ticked (.worker 0),
      .thread (.fault (.worker 0)), .main] = some u ∧
    u.layer.todo .main = .lock .gLogMutex :: rest ∧
    u.layer.todo (.worker 0) = .lock .gLogMutex :: rest' ∧
    u.layer.owner .gLogMutex = some (.worker 0) :=
  ⟨_, _, _, rfl, rfl, rfl, rfl⟩

/-- One struck inside `printf` keeps `stdout`, and `main` does not come to its own. -/
example : ∃ u, run Exit.step booted [.printf (.worker 0), .thread (.fault (.worker 0))] = some u ∧
    u.layer.todo (.worker 0) ≠ [] ∧ u.printing = some (.worker 0) ∧ u.step .main = none :=
  ⟨_, rfl, by decide, rfl, rfl⟩

end SwitchLdnZt.Proofs.ExitWait
