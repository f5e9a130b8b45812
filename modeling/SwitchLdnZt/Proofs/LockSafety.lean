import SwitchLdnZt.Compat.Mutexes

namespace SwitchLdnZt.Proofs.LockSafety
open Library Compat

theorem logWrite_wellLocked {ops : Ops} (h : wellLocked Work.stops none ops = true) :
    wellLocked Work.stops none (logWrite ++ ops) = true := by
  simpa [logWrite, wellLocked, Work.stops] using h

theorem logWrites_wellLocked (n : Nat) (between : Ops) {ops : Ops}
    (hb : ∀ ops, wellLocked Work.stops none ops = true →
      wellLocked Work.stops none (between ++ ops) = true)
    (h : wellLocked Work.stops none ops = true) :
    wellLocked Work.stops none ((List.replicate n (logWrite ++ between)).flatten ++ ops) =
      true := by
  induction n with
  | zero => exact h
  | succ n ih =>
    rw [List.replicate_succ, List.flatten_cons, List.append_assoc, List.append_assoc]
    exact logWrite_wellLocked (hb _ ih)

theorem writeR_wellLocked (t : Thread) (fd : Int) (buf : Bytes) (turns : Nat) :
    wellLocked Work.stops none (writeR t fd buf turns) = true := by
  unfold writeR
  split
  · apply logWrite_wellLocked
    split
    · rfl
    · split
      · rfl
      · have hloop : wellLocked Work.stops (some Mutex.gDiagMutex)
            (List.replicate turns (.act .append) ++ [.unlock .gDiagMutex]) = true :=
          wellLocked_replicate turns (fun _ h => by simpa [wellLocked, Work.stops] using h) rfl
        exact hloop
  · rfl

theorem exceptionHandler_wellLocked : wellLocked Work.stops none exceptionHandler = true := by
  decide

theorem diagHaltOps_wellLocked (t : Thread) (line : Bytes) (turns : Nat) :
    wellLocked Work.stops none (diagHaltOps t line turns) = true := by
  have htail : wellLocked Work.stops none
      (writeR t stdoutFileno line turns ++ [LockOp.act Work.svcSleepThread]) = true :=
    wellLocked_append (writeR_wellLocked t stdoutFileno line turns) rfl
  simpa [diagHaltOps, wellLocked] using logWrite_wellLocked htail

/-- The wrapped functions take one of the three mutexes at a time. -/
theorem ops_wellLocked (t : Thread) (c : WrappedCall) :
    wellLocked Work.stops none (c.ops t) = true := by
  cases c with
  | writeR fd buf turns => exact writeR_wellLocked t fd buf turns
  | consoleUpdate =>
    simp only [WrappedCall.ops, consoleUpdate]
    split <;> rfl
  | getSecureRandom logged => cases logged <;> rfl
  | logging lines =>
    have h : wellLocked Work.stops none
        ((List.replicate lines (logWrite ++ [.act .realCall])).flatten ++ []) = true :=
      logWrites_wellLocked lines [.act .realCall] (fun _ h => h) rfl
    simpa [WrappedCall.ops, logging, wellLocked] using h
  | mkdir line turns => exact writeR_wellLocked t stdoutFileno line turns

theorem holdsNone_iff {s : Layer} {t : Thread} :
    holdsNone s t = true ↔ ∀ m, s.owner m ≠ some t := by
  simp only [holdsNone, Bool.and_eq_true, decide_eq_true_eq]
  constructor
  · intro h m
    rcases h with ⟨⟨hd, hl⟩, hr⟩
    cases m
    · exact hd
    · exact hl
    · exact hr
  · exact fun h => ⟨⟨h _, h _⟩, h _⟩

theorem booted_disciplined : Disciplined Work.stops Layer.booted.toThreads :=
  fun _ => ⟨none, rfl, fun _ => by simp [Layer.booted]⟩

/-- A thread with nothing to do holds nothing. -/
theorem idle_free {s : Layer} (h : Disciplined Work.stops s.toThreads) {t : Thread}
    (ht : s.todo t = []) (m : Mutex) : s.owner m ≠ some t := by
  obtain ⟨held, hw, ho⟩ := h t
  intro hm
  rw [ht, (ho m).mp hm] at hw
  cases hw

theorem tick_disciplined {s s' : Layer} {t : Thread} (h : Disciplined Work.stops s.toThreads)
    (ht : s.tick t = some s') : Disciplined Work.stops s'.toThreads := by
  unfold Layer.tick at ht
  split at ht
  next rest hops =>
    split at ht
    · cases ht
      exact h
    · cases ht
      have hw : wellLocked Work.stops none rest = true := by
        obtain ⟨held, hw, ho⟩ := h t
        cases held with
        | none => simpa [hops, wellLocked] using hw
        | some m => simp [hops, wellLocked, Work.stops] at hw
      exact h.restart hw (h.stopped_free hops rfl)
  next =>
    cases ht
    exact h
  next =>
    obtain ⟨threads, hth, rfl⟩ := Option.map_eq_some_iff.mp ht
    exact h.tick hth

theorem step_disciplined {s s' : Layer} {e : LayerEvent}
    (h : Disciplined Work.stops s.toThreads) (hok : strikesOutside s e = true)
    (hs : s.step e = some s') : Disciplined Work.stops s'.toThreads := by
  unfold Layer.step at hs
  split at hs
  · cases hs
  · cases e with
    | call t c =>
      simp only at hs
      split at hs
      next hidle =>
        cases hs
        exact h.restart (ops_wellLocked t c) (idle_free h hidle)
      next => cases hs
    | tick t => exact tick_disciplined h hs
    | fault t =>
      simp only at hs
      split at hs
      · cases hs
      · cases hs
        exact h.restart exceptionHandler_wellLocked (holdsNone_iff.mp hok)
    | halt t line turns =>
      simp only at hs
      split at hs
      · cases hs
      · cases hs
        exact h.restart (diagHaltOps_wellLocked t line turns) (holdsNone_iff.mp hok)
    | ztBeginExit =>
      cases hs
      exact h
    | mainExit =>
      cases hs
      exact h

/-- Ticks of the threads are ticks of the layer while the process lives. -/
theorem run_ticks {s : Layer} (hlive : s.exited = false) {ts : List Thread}
    {threads : Threads Thread Mutex Work}
    (hr : run (Threads.tick Work.stops) s.toThreads ts = some threads) :
    run Layer.step s (ts.map .tick) = some { s with toThreads := threads } := by
  induction ts generalizing s with
  | nil =>
    cases hr
    rfl
  | cons t ts ih =>
    obtain ⟨next, hn, hr⟩ := run_cons.mp hr
    have hstep : s.step (.tick t) = some { s with toThreads := next } := by
      simp only [Layer.step, hlive, Bool.false_eq_true, ↓reduceIte, Layer.tick]
      split
      next rest hops => simp [Threads.tick, hops, Work.stops] at hn
      next rest hops => simp [Threads.tick, hops, Work.stops] at hn
      next => simp [hn]
    rw [List.map_cons, run_cons]
    exact ⟨_, hstep, ih (s := { s with toThreads := next }) hlive hr⟩

/-- The layer's mutexes are safe: nobody locks what it holds, nobody sleeps on
one, and every thread can be brought to its next stopping point, which for a
thread struck by a fault lies behind its whole report. -/
structure LockSafe (s : Layer) : Prop where
  noSelfLock : ∀ t m rest, s.todo t = .lock m :: rest → s.owner m ≠ some t
  parkedFree : ∀ t m, s.Parked t → s.owner m ≠ some t
  goesThrough : s.exited = false → ∀ t pre post, s.todo t = pre ++ post →
    (∀ op ∈ pre, goesOn Work.stops op = true) →
    ∃ ts : List Thread, ∃ s', run Layer.step s (ts.map .tick) = some s' ∧ s'.todo t = post
  faultLogged : ∀ t s', s.step (.fault t) = some s' → holdsNone s t = true →
    ∃ ts : List Thread, ∃ u, run Layer.step s' (ts.map .tick) = some u ∧
      s'.todo t = faultReport ++ u.todo t

theorem disciplined_goesThrough {s : Layer} (h : Disciplined Work.stops s.toThreads)
    (hlive : s.exited = false) {t : Thread} {pre post : Ops} (ht : s.todo t = pre ++ post)
    (hpre : ∀ op ∈ pre, goesOn Work.stops op = true) :
    ∃ ts : List Thread, ∃ s', run Layer.step s (ts.map .tick) = some s' ∧ s'.todo t = post := by
  obtain ⟨ts, threads, hr, hp⟩ := h.finish pre ht hpre
  exact ⟨ts, _, run_ticks hlive hr, hp⟩

theorem disciplined_safe {s : Layer} (h : Disciplined Work.stops s.toThreads) : LockSafe s := by
  refine ⟨fun _ _ _ ht => h.no_self_lock ht, ?_, ?_, ?_⟩
  · intro t m hp
    obtain ⟨rest, hops⟩ : ∃ rest, s.todo t = .act .svcSleepThread :: rest := by
      unfold Layer.Parked at hp
      cases hops : s.todo t with
      | nil => simp [hops] at hp
      | cons op rest =>
        rw [hops, List.head?_cons, Option.some.injEq] at hp
        exact ⟨rest, by rw [hp]⟩
    exact h.stopped_free hops rfl m
  · intro hlive t pre post ht hpre
    exact disciplined_goesThrough h hlive ht hpre
  · intro t s' hs hfree
    have h' := step_disciplined (e := .fault t) h hfree hs
    simp only [Layer.step] at hs
    split at hs
    · cases hs
    · next hlive =>
      split at hs
      · cases hs
      · cases hs
        have hops : (s.goOn t exceptionHandler).todo t =
            faultReport ++ [.act .svcExitProcess, .act .svcSleepThread] := goOn_todo_self _ _ _
        obtain ⟨ts, u, hr, hu⟩ := disciplined_goesThrough h' (by simpa [Layer.goOn] using hlive)
          hops (by decide)
        exact ⟨ts, u, hr, by rw [hu, hops]⟩

/-- In every run whose faults and halts strike threads outside the critical
sections, the three mutexes stay safe. -/
theorem lock_safety {es : List LayerEvent} {s : Layer}
    (hr : run (guarded strikesOutside Layer.step) .booted es = some s) : LockSafe s :=
  disciplined_safe (run_guarded (P := fun s => Disciplined Work.stops s.toThreads)
    booted_disciplined (fun _ _ _ h hok hs => step_disciplined h hok hs) hr)

/-- A worker logs a line, another one faults between two of its calls. -/
def quietFault : List LayerEvent :=
  [.call (.worker 0) (.logging 1), .tick (.worker 0), .tick (.worker 0), .fault (.worker 1),
    .tick (.worker 0), .tick (.worker 0), .tick (.worker 0), .tick (.worker 0), .tick (.worker 1)]

theorem lock_safety_quietFault :
    ∃ s, run (guarded strikesOutside Layer.step) .booted quietFault = some s ∧ LockSafe s := by
  obtain ⟨s, hs⟩ : ∃ s, run (guarded strikesOutside Layer.step) .booted quietFault = some s :=
    ⟨_, rfl⟩
  exact ⟨s, hs, lock_safety hs⟩

/-- A fault inside `log_write`: the handler's first step is to lock the log mutex
its own thread holds. -/
theorem fault_in_log_write : ∃ s rest,
    run Layer.step .booted [.call (.worker 0) (.logging 1), .tick (.worker 0), .tick (.worker 0),
      .fault (.worker 0)] = some s ∧
    s.todo (.worker 0) = .lock .gLogMutex :: rest ∧ s.owner .gLogMutex = some (.worker 0) :=
  ⟨_, _, rfl, rfl, rfl⟩

end SwitchLdnZt.Proofs.LockSafety
