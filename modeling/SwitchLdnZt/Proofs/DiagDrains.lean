import SwitchLdnZt.Compat.Diag

namespace SwitchLdnZt.Proofs.DiagDrains
open Library Compat

/-- A byte sequence cut into finished pieces and the piece still growing. -/
structure Pieces where
  closed : List Bytes
  current : Bytes

def Pieces.empty : Pieces := ⟨[], []⟩

/-- Worker bytes in lock order, one piece for each drain by the main thread. -/
def Pieces.record (p : Pieces) : Event → Pieces
  | .sink (.worker _) buf => { p with current := p.current ++ buf }
  | .consoleUpdate .main => ⟨p.closed ++ [p.current], []⟩
  | _ => p

def intervals (es : List Event) : Pieces := es.foldl Pieces.record .empty

/-- What the drains put on the console, one piece for each `consoleUpdate` that
has reached the real one. -/
def Pieces.show (p : Pieces) : RealCall → Pieces
  | .ownWrite _ => p
  | .drainWrite buf => { p with current := p.current ++ buf }
  | .noticeWrite => { p with current := p.current ++ droppedNotice }
  | .consoleUpdate => ⟨p.closed ++ [p.current], []⟩

def emissions (screen : List RealCall) : Pieces := screen.foldl Pieces.show .empty

/-- What one drain owes for the worker bytes since the previous one. -/
def owed (total : Bytes) : Bytes :=
  total.take diagBufSize ++ if diagBufSize < total.length then droppedNotice else []

/-- The bytes an event hands over as worker `i`'s stdout or stderr write, tagged
lines excluded. -/
def keptOf (i : Nat) : Event → Option Bytes
  | .write (.worker j) fd buf =>
    if j = i ∧ isStdio fd = true ∧ isSwitchDiag buf = false then some buf else none
  | _ => none

def appendedOf (i : Nat) : Event → Option Bytes
  | .sink (.worker j) buf => if j = i then some buf else none
  | _ => none

def keptWrites (i : Nat) (es : List Event) : List Bytes := es.filterMap (keptOf i)

def appended (i : Nat) (es : List Event) : List Bytes := es.filterMap (appendedOf i)

/-- The write a thread has begun and not yet appended. -/
def pending : Pc → List Bytes
  | .logging buf => if isSwitchDiag buf then [] else [buf]
  | .sinking buf => [buf]
  | _ => []

@[simp] theorem intervals_snoc (es : List Event) (e : Event) :
    intervals (es ++ [e]) = (intervals es).record e := by
  simp [intervals]

@[simp] theorem emissions_snoc (screen : List RealCall) (c : RealCall) :
    emissions (screen ++ [c]) = (emissions screen).show c := by
  simp [emissions]

@[simp] theorem keptWrites_snoc (i : Nat) (es : List Event) (e : Event) :
    keptWrites i (es ++ [e]) = keptWrites i es ++ (keptOf i e).toList := by
  cases h : keptOf i e <;> simp [keptWrites, h]

@[simp] theorem appended_snoc (i : Nat) (es : List Event) (e : Event) :
    appended i (es ++ [e]) = appended i es ++ (appendedOf i e).toList := by
  cases h : appendedOf i e <;> simp [appended, h]

/-- The buffer holds a prefix of the bytes written since the last drain, and
the flag says exactly that the prefix is proper. -/
structure Holds (d : Diag) (total : Bytes) : Prop where
  size : d.gDiagBuf.length = diagBufSize
  len : d.gDiagLen = min total.length diagBufSize
  bytes : d.gDiagBuf.take d.gDiagLen = total.take diagBufSize
  dropped : d.gDiagDropped = decide (diagBufSize < total.length)

theorem zeroed_holds : Holds Diag.zeroed [] :=
  ⟨List.length_replicate, by simp [Diag.zeroed], by simp [Diag.zeroed], by simp [Diag.zeroed]⟩

theorem take_set_succ (l : Bytes) (n : Nat) (b : UInt8) (h : n < l.length) :
    (l.set n b).take (n + 1) = l.take n ++ [b] := by
  rw [List.take_add_one, List.take_set, List.set_eq_of_length_le (List.length_take_le n l)]
  simp [h]

/-- One turn of the append loop with room left. -/
theorem Holds.push {d : Diag} {total : Bytes} (h : Holds d total) (b : UInt8)
    (room : d.gDiagLen < diagBufSize) :
    Holds { d with gDiagBuf := d.gDiagBuf.set d.gDiagLen b, gDiagLen := d.gDiagLen + 1 }
      (total ++ [b]) := by
  have hlt : total.length < diagBufSize := by
    have := h.len
    omega
  have hlen : d.gDiagLen = total.length := by
    rw [h.len]
    omega
  refine ⟨by simpa using h.size, ?_, ?_, ?_⟩
  · simp only [List.length_append, List.length_singleton]
    omega
  · have hfull : total.take diagBufSize = total := List.take_of_length_le (Nat.le_of_lt hlt)
    rw [take_set_succ _ _ _ (by rw [h.size]; exact room), h.bytes, hfull]
    exact (List.take_of_length_le (by simp; omega)).symm
  · have hold := h.dropped
    simp only [List.length_append, List.length_singleton]
    rw [hold]
    apply decide_eq_decide.mpr
    omega

/-- The loop leaves the buffer holding the longer history; the break happens
exactly when a byte finds the buffer full. -/
theorem Holds.append {d : Diag} {total : Bytes} (h : Holds d total) (bs : Bytes) :
    Holds (d.append bs) (total ++ bs) := by
  induction bs generalizing d total with
  | nil => simpa [Diag.append] using h
  | cons b bs ih =>
    unfold Diag.append
    split
    next room =>
      have ht := ih (h.push b room)
      simpa using ht
    next full =>
      have hge : diagBufSize ≤ total.length := by
        have := h.len
        omega
      refine ⟨h.size, ?_, ?_, ?_⟩
      · have := h.len
        simp only [List.length_append]
        omega
      · rw [List.take_append_of_le_length hge]
        exact h.bytes
      · simp only [List.length_append, List.length_cons]
        symm
        apply decide_eq_true
        omega

theorem Holds.drained {d : Diag} {total : Bytes} (h : Holds d total) :
    Holds { d with gDiagLen := 0, gDiagDropped := false } [] :=
  ⟨h.size, by simp, by simp, by simp⟩

/-- How far the running `consoleUpdate` has got with the last closed interval. -/
def MainOk (closed : List Bytes) (emitted : Pieces) (drain : Bytes) : Pc → Prop
  | .drained n dropped => ∃ before total, closed = before ++ [total] ∧
      emitted = ⟨before.map owed, []⟩ ∧ drain.take n = total.take diagBufSize ∧
      n = min total.length diagBufSize ∧ dropped = decide (diagBufSize < total.length)
  | .noticing dropped => ∃ before total, closed = before ++ [total] ∧
      emitted = ⟨before.map owed, total.take diagBufSize⟩ ∧
      dropped = decide (diagBufSize < total.length)
  | .updating => ∃ before total, closed = before ++ [total] ∧
      emitted = ⟨before.map owed, owed total⟩
  | _ => emitted = ⟨closed.map owed, []⟩

structure Inv (es : List Event) (s : Sinks) : Prop where
  holds : Holds s.diag (intervals es).current
  main : MainOk (intervals es).closed (emissions s.screen) s.drain (s.pc .main)
  kept : ∀ i, keptWrites i es = appended i es ++ pending (s.pc (.worker i))

theorem booted_inv : Inv [] Sinks.booted :=
  ⟨zeroed_holds, rfl, fun _ => rfl⟩

/-- Only the moving thread's own begun write can change; the others keep their
accounts as they were. -/
theorem Inv.kept_goto {es : List Event} {s s' : Sinks} {e : Event} {t : Thread} {p : Pc}
    (h : Inv es s) (hpc : s'.pc = (s.goto t p).pc)
    (own : ∀ i, t = .worker i → pending (s.pc t) ++ (keptOf i e).toList =
      (appendedOf i e).toList ++ pending p)
    (other : ∀ i, t ≠ .worker i → keptOf i e = none ∧ appendedOf i e = none) :
    ∀ i, keptWrites i (es ++ [e]) = appended i (es ++ [e]) ++ pending (s'.pc (.worker i)) := by
  intro i
  have hold := h.kept i
  rw [hpc, keptWrites_snoc, appended_snoc, hold]
  by_cases ht : t = .worker i
  · have ho := own i ht
    subst ht
    rw [goto_pc_self, List.append_assoc, List.append_assoc, ho]
  · obtain ⟨hw, ha⟩ := other i ht
    have hne : Thread.worker i ≠ t := fun he => ht he.symm
    simp [goto_pc_other s p hne, hw, ha]

theorem write_inv {es : List Event} {s s' : Sinks} {t : Thread} {fd : Int} {buf : Bytes}
    (h : Inv es s) (hs : s.step (.write t fd buf) = some s') :
    Inv (es ++ [.write t fd buf]) s' := by
  simp only [Sinks.step] at hs
  split at hs
  next hidle =>
    split at hs
    · next hfd =>
      cases hs
      refine ⟨by simpa [Pieces.record] using h.holds, ?_, ?_⟩
      · have hm := h.main
        by_cases ht : t = .main
        · subst ht
          simpa [Pieces.record, MainOk, hidle] using hm
        · simpa [Pieces.record, goto_pc_other s _ (Ne.symm ht)] using hm
      · apply h.kept_goto rfl
        · intro i hi
          cases hi
          cases hb : isSwitchDiag buf <;> simp [hidle, pending, keptOf, appendedOf, hfd, hb]
        · intro i ht
          cases t <;> simp_all [keptOf, appendedOf]
    · next hfd =>
      cases hs
      refine ⟨by simpa [Pieces.record] using h.holds, by simpa [Pieces.record] using h.main, ?_⟩
      intro i
      rw [keptWrites_snoc, appended_snoc, h.kept i]
      cases t <;> simp [keptOf, appendedOf, hfd]
  next => cases hs

theorem logLock_inv {es : List Event} {s s' : Sinks} {t : Thread} {buf : Bytes}
    (h : Inv es s) (hs : s.step (.logLock t buf) = some s') :
    Inv (es ++ [.logLock t buf]) s' := by
  simp only [Sinks.step] at hs
  split at hs
  next hpc =>
    cases hs
    refine ⟨by simpa [Pieces.record] using h.holds, ?_, ?_⟩
    · have hm := h.main
      by_cases ht : t = .main
      · subst ht
        simpa [Pieces.record, MainOk, hpc, afterLog] using hm
      · simpa [Pieces.record, Sinks.goto, Ne.symm ht] using hm
    · apply h.kept_goto rfl
      · intro i hi
        cases hi
        cases hb : isSwitchDiag buf <;> simp [hpc, pending, keptOf, appendedOf, afterLog, hb]
      · intro i _
        simp [keptOf, appendedOf]
  next => cases hs

theorem sink_inv {es : List Event} {s s' : Sinks} {t : Thread} {buf : Bytes}
    (h : Inv es s) (hs : s.step (.sink t buf) = some s') : Inv (es ++ [.sink t buf]) s' := by
  simp only [Sinks.step] at hs
  split at hs
  next hpc =>
    split at hs
    · next ht =>
      subst ht
      cases hs
      refine ⟨by simpa [Pieces.record] using h.holds, ?_, ?_⟩
      · simpa [Pieces.record, Pieces.show, MainOk, hpc] using h.main
      · apply h.kept_goto rfl
        · intro i hi
          cases hi
        · intro i _
          exact ⟨rfl, rfl⟩
    · next ht =>
      cases hs
      cases t with
      | main => exact absurd rfl ht
      | worker j =>
        refine ⟨?_, ?_, ?_⟩
        · simpa [Pieces.record] using h.holds.append buf
        · simpa [Pieces.record, Sinks.goto] using h.main
        · apply h.kept_goto rfl
          · intro i hi
            cases hi
            simp [hpc, pending, keptOf, appendedOf]
          · intro i hi
            have hne : j ≠ i := fun he => hi (he ▸ rfl)
            simp [keptOf, appendedOf, hne]
  next => cases hs

theorem consoleUpdate_inv {es : List Event} {s s' : Sinks} {t : Thread}
    (h : Inv es s) (hs : s.step (.consoleUpdate t) = some s') :
    Inv (es ++ [.consoleUpdate t]) s' := by
  simp only [Sinks.step, Diag.drainInto] at hs
  split at hs
  next hpc =>
    split at hs
    · next ht =>
      subst ht
      cases hs
      have hh := h.holds
      refine ⟨by simpa [Pieces.record] using hh.drained, ?_, ?_⟩
      · have hm := h.main
        simp only [MainOk, hpc] at hm
        have hn : s.diag.gDiagLen ≤ s.diag.gDiagBuf.length := by
          rw [hh.size, hh.len]
          exact Nat.min_le_right _ _
        have htake : (s.diag.gDiagBuf.take s.diag.gDiagLen ++ s.drain.drop s.diag.gDiagLen).take
            s.diag.gDiagLen = (intervals es).current.take diagBufSize := by
          rw [List.take_append_of_le_length (by simp [hn]), List.take_take, Nat.min_self, hh.bytes]
        simp only [intervals_snoc, Pieces.record, goto_pc_self, goto_drain, goto_screen, MainOk]
        exact ⟨_, _, rfl, hm, htake, hh.len, hh.dropped⟩
      · apply h.kept_goto (t := .main) rfl
        · intro i hi
          cases hi
        · intro i _
          exact ⟨rfl, rfl⟩
    · next ht =>
      cases hs
      cases t with
      | main => exact absurd rfl ht
      | worker j =>
        refine ⟨by simpa [Pieces.record] using h.holds, by simpa [Pieces.record] using h.main, ?_⟩
        intro i
        rw [keptWrites_snoc, appended_snoc, h.kept i]
        simp [keptOf, appendedOf]
  next => cases hs

/-- The three steps of the drain that only the main thread takes leave the
workers' accounts alone. -/
theorem Inv.kept_main {es : List Event} {s s' : Sinks} {e : Event} {p : Pc}
    (h : Inv es s) (hpc : s'.pc = (s.goto .main p).pc)
    (hk : ∀ i, keptOf i e = none) (ha : ∀ i, appendedOf i e = none) :
    ∀ i, keptWrites i (es ++ [e]) = appended i (es ++ [e]) ++ pending (s'.pc (.worker i)) :=
  h.kept_goto hpc (fun _ hi => by cases hi) (fun i _ => ⟨hk i, ha i⟩)

theorem writeDrain_inv {es : List Event} {s s' : Sinks}
    (h : Inv es s) (hs : s.step .writeDrain = some s') : Inv (es ++ [.writeDrain]) s' := by
  simp only [Sinks.step] at hs
  split at hs
  next n dropped hpc =>
    cases hs
    refine ⟨by simpa [Pieces.record] using h.holds, ?_, h.kept_main rfl (fun _ => rfl) fun _ => rfl⟩
    have hm := h.main
    simp only [MainOk, hpc] at hm
    obtain ⟨before, total, hc, he, ht, hn, hd⟩ := hm
    simp only [intervals_snoc, Pieces.record, goto_pc_self, goto_screen, MainOk]
    refine ⟨before, total, hc, ?_, hd⟩
    split
    · next hz =>
      -- nothing to write: the interval was empty
      have hnil : total = [] := by
        have : total.length = 0 := by
          simp only [diagBufSize] at hn
          omega
        exact List.length_eq_zero_iff.mp this
      simp [he, hnil]
    · simp [he, Pieces.show, ht]
  next => cases hs

theorem writeNotice_inv {es : List Event} {s s' : Sinks}
    (h : Inv es s) (hs : s.step .writeNotice = some s') : Inv (es ++ [.writeNotice]) s' := by
  simp only [Sinks.step] at hs
  split at hs
  next dropped hpc =>
    cases hs
    refine ⟨by simpa [Pieces.record] using h.holds, ?_, h.kept_main rfl (fun _ => rfl) fun _ => rfl⟩
    have hm := h.main
    simp only [MainOk, hpc] at hm
    obtain ⟨before, total, hc, he, hd⟩ := hm
    simp only [intervals_snoc, Pieces.record, goto_pc_self, goto_screen, MainOk]
    refine ⟨before, total, hc, ?_⟩
    subst hd
    by_cases hf : diagBufSize < total.length <;> simp [he, owed, hf, Pieces.show]
  next => cases hs

theorem realConsoleUpdate_inv {es : List Event} {s s' : Sinks}
    (h : Inv es s) (hs : s.step .realConsoleUpdate = some s') :
    Inv (es ++ [.realConsoleUpdate]) s' := by
  simp only [Sinks.step] at hs
  split at hs
  next hpc =>
    cases hs
    refine ⟨by simpa [Pieces.record] using h.holds, ?_, h.kept_main rfl (fun _ => rfl) fun _ => rfl⟩
    have hm := h.main
    simp only [MainOk, hpc] at hm
    obtain ⟨before, total, hc, he⟩ := hm
    simp [Pieces.record, MainOk, Pieces.show, he, hc]
  next => cases hs

theorem step_inv {es : List Event} {s s' : Sinks} {e : Event}
    (h : Inv es s) (hs : s.step e = some s') : Inv (es ++ [e]) s' := by
  cases e with
  | write t fd buf => exact write_inv h hs
  | logLock t buf => exact logLock_inv h hs
  | sink t buf => exact sink_inv h hs
  | consoleUpdate t => exact consoleUpdate_inv h hs
  | writeDrain => exact writeDrain_inv h hs
  | writeNotice => exact writeNotice_inv h hs
  | realConsoleUpdate => exact realConsoleUpdate_inv h hs

theorem run_inv {es : List Event} {s : Sinks} (hr : run Sinks.step .booted es = some s) :
    Inv es s :=
  run_history booted_inv (fun _ _ _ _ _ h hs => step_inv h hs) hr

/-- A drain that has not reached the real `consoleUpdate` is the last one. -/
theorem MainOk.finished {closed : List Bytes} {emitted : Pieces} {drain : Bytes} {pc : Pc}
    (h : MainOk closed emitted drain pc) :
    emitted.closed <+: closed.map owed ∧ closed.length ≤ emitted.closed.length + 1 := by
  cases pc with
  | drained n dropped =>
    obtain ⟨before, total, rfl, rfl, _⟩ := h
    exact ⟨⟨[owed total], by simp⟩, by simp⟩
  | noticing dropped =>
    obtain ⟨before, total, rfl, rfl, _⟩ := h
    exact ⟨⟨[owed total], by simp⟩, by simp⟩
  | updating =>
    obtain ⟨before, total, rfl, rfl⟩ := h
    exact ⟨⟨[owed total], by simp⟩, by simp⟩
  | idle | logging | sinking =>
    have he : emitted = ⟨closed.map owed, []⟩ := h
    subst he
    exact ⟨List.prefix_refl _, by simp⟩

/-- One worker line, a tagged line, and the drain that shows the first. -/
def helloRun : List Event :=
  [.write (.worker 0) 1 (ascii "hi"), .write (.worker 1) 1 (ascii "[SWITCH-DIAG] x"),
    .logLock (.worker 1) (ascii "[SWITCH-DIAG] x"), .logLock (.worker 0) (ascii "hi"),
    .sink (.worker 0) (ascii "hi"), .consoleUpdate .main, .writeDrain, .writeNotice,
    .realConsoleUpdate]

end SwitchLdnZt.Proofs.DiagDrains
