import Mathlib.Data.List.Flatten
import SwitchLdnZt.Proofs.DiagDrains

namespace SwitchLdnZt.Proofs.ConsoleLog
open Library Compat DiagDrains

/-- Worker bytes in the order of the buffer, each with the number of its worker. -/
abbrev Marked := List (Nat × UInt8)

def Marked.bytes (m : Marked) : Bytes := m.map (·.2)

/-- The bytes of worker `i` among them. -/
def Marked.own (i : Nat) (m : Marked) : Bytes := (m.filter (fun b => b.1 = i)).map (·.2)

/-- What there is room for; a drain shows this of its interval. -/
def Marked.kept (m : Marked) : Marked := m.take diagBufSize

structure MarkedPieces where
  closed : List Marked
  current : Marked

/-- `Pieces.record` that remembers whose bytes they are. -/
def MarkedPieces.record (p : MarkedPieces) : Event → MarkedPieces
  | .sink (.worker i) buf => { p with current := p.current ++ buf.map (i, ·) }
  | .consoleUpdate .main => ⟨p.closed ++ [p.current], []⟩
  | _ => p

def marks (es : List Event) : MarkedPieces := es.foldl MarkedPieces.record ⟨[], []⟩

@[simp] theorem marks_snoc (es : List Event) (e : Event) :
    marks (es ++ [e]) = (marks es).record e := by
  simp [marks]

/-- The intervals whose drain has reached its write to the console. -/
def shown (closed : List Marked) : Pc → List Marked
  | .drained .. => closed.dropLast
  | _ => closed

def drainBytes (screen : List RealCall) : Bytes :=
  screen.flatMap fun c => match c with
    | .drainWrite buf => buf
    | _ => []

def ownBytes (screen : List RealCall) : Bytes :=
  screen.flatMap fun c => match c with
    | .ownWrite buf => buf
    | _ => []

/-- The bytes handed over as stdout or stderr writes of a thread. -/
def writesOf (t : Thread) (es : List Event) : List Bytes :=
  es.filterMap fun e => match e with
    | .write u fd buf => if u = t ∧ isStdio fd = true then some buf else none
    | _ => none

def loggedOf (t : Thread) (log : List (Thread × Bytes)) : List Bytes :=
  log.filterMap fun e => if e.1 = t then some e.2 else none

/-- A write begun that is not in the log yet. -/
def unlogged : Pc → List Bytes
  | .logging buf => [buf]
  | _ => []

/-- A write in the log that has not reached its thread's sink yet. -/
def unsunk : Pc → Bytes
  | .sinking buf => buf
  | _ => []

/-- All that a step can do. -/
inductive Does (s : Sinks) : Event → Sinks → Prop
  | write {t fd buf} (hpc : s.pc t = .idle) (hfd : isStdio fd = true) :
    Does s (.write t fd buf) (s.goto t (.logging buf))
  | elsewhere {t fd buf} (hfd : isStdio fd = false) : Does s (.write t fd buf) s
  | log {t buf} (hpc : s.pc t = .logging buf) :
    Does s (.logLock t buf) ({ s with log := s.log ++ [(t, buf)] }.goto t (afterLog t buf))
  | own {buf} (hpc : s.pc .main = .sinking buf) :
    Does s (.sink .main buf)
      ({ s with screen := s.screen ++ [RealCall.ownWrite buf] }.goto .main .idle)
  | append {i buf} (hpc : s.pc (.worker i) = .sinking buf) :
    Does s (.sink (.worker i) buf)
      ({ s with diag := s.diag.append buf }.goto (.worker i) .idle)
  | drain {drain n dropped diag} (hpc : s.pc .main = .idle)
    (hd : s.diag.drainInto s.drain = (drain, n, dropped, diag)) :
    Does s (.consoleUpdate .main)
      ({ s with drain := drain, diag := diag }.goto .main (.drained n dropped))
  | notMain {i} : Does s (.consoleUpdate (.worker i)) s
  | writeDrain {n dropped} (hpc : s.pc .main = .drained n dropped) :
    Does s .writeDrain
      ({ s with screen := if n = 0 then s.screen
        else s.screen ++ [RealCall.drainWrite (s.drain.take n)] }.goto .main (.noticing dropped))
  | writeNotice {dropped} (hpc : s.pc .main = .noticing dropped) :
    Does s .writeNotice
      ({ s with screen := if dropped then s.screen ++ [RealCall.noticeWrite]
        else s.screen }.goto .main .updating)
  | update (hpc : s.pc .main = .updating) :
    Does s .realConsoleUpdate
      ({ s with screen := s.screen ++ [RealCall.consoleUpdate] }.goto .main .idle)

theorem step_does {s s' : Sinks} {e : Event} (h : s.step e = some s') : Does s e s' := by
  cases e with
  | write t fd buf =>
    simp only [Sinks.step] at h
    split at h
    · next hpc =>
      split at h <;> cases h
      · exact .write hpc ‹_›
      · exact .elsewhere (Bool.eq_false_iff.mpr ‹_›)
    · cases h
  | logLock t buf =>
    simp only [Sinks.step] at h
    split at h <;> cases h
    exact .log ‹_›
  | sink t buf =>
    simp only [Sinks.step] at h
    split at h
    · next hpc =>
      cases t with
      | main =>
        cases h
        exact .own hpc
      | worker i =>
        cases h
        exact .append hpc
    · cases h
  | consoleUpdate t =>
    simp only [Sinks.step] at h
    split at h
    · next hpc =>
      cases t with
      | main =>
        cases h
        exact .drain hpc rfl
      | worker i =>
        cases h
        exact .notMain
    · cases h
  | writeDrain =>
    simp only [Sinks.step] at h
    split at h <;> cases h
    exact .writeDrain ‹_›
  | writeNotice =>
    simp only [Sinks.step] at h
    split at h <;> cases h
    exact .writeNotice ‹_›
  | realConsoleUpdate =>
    simp only [Sinks.step] at h
    split at h <;> cases h
    exact .update ‹_›

theorem goto_pc (s : Sinks) (t u : Thread) (p : Pc) :
    (s.goto t p).pc u = if u = t then p else s.pc u := rfl

/-- A thread that moves without anything of it left pending keeps every account. -/
theorem pending_goto {α : Type} (pending : Pc → List α) {s : Sinks} {t : Thread} {p : Pc}
    (h : pending p = pending (s.pc t)) (u : Thread) :
    pending ((s.goto t p).pc u) = pending (s.pc u) := by
  rw [goto_pc]
  split
  · next hu => rw [hu, h]
  · rfl

@[simp] theorem writesOf_snoc (t : Thread) (es : List Event) (e : Event) :
    writesOf t (es ++ [e]) = writesOf t es ++ writesOf t [e] := by
  simp [writesOf]

@[simp] theorem loggedOf_snoc (t u : Thread) (log : List (Thread × Bytes)) (buf : Bytes) :
    loggedOf t (log ++ [(u, buf)]) = loggedOf t log ++ if u = t then [buf] else [] := by
  by_cases h : u = t <;> simp [loggedOf, h]

theorem log_step {es : List Event} {s s' : Sinks} {e : Event} (hs : s.step e = some s') {t : Thread}
    (h : writesOf t es = loggedOf t s.log ++ unlogged (s.pc t)) :
    writesOf t (es ++ [e]) = loggedOf t s'.log ++ unlogged (s'.pc t) := by
  rw [writesOf_snoc, h]
  cases step_does hs with
  | @write u fd buf hpc hfd =>
    by_cases hu : u = t
    · subst hu
      simp [hpc, unlogged, writesOf, hfd]
    · simp [goto_pc, writesOf, hu, Ne.symm hu]
  | elsewhere hfd => simp [writesOf, hfd]
  | @log u buf hpc =>
    have hafter : unlogged (afterLog u buf) = [] := by
      unfold afterLog
      split <;> rfl
    by_cases hu : u = t
    · subst hu
      rw [goto_pc_self, hafter, hpc]
      simp [unlogged, writesOf]
    · simp [goto_pc, writesOf, hu, Ne.symm hu]
  | own hpc =>
    rw [pending_goto unlogged (by simp only [hpc]; rfl)]
    simp [writesOf]
  | append hpc =>
    rw [pending_goto unlogged (by simp only [hpc]; rfl)]
    simp [writesOf]
  | drain hpc hd =>
    rw [pending_goto unlogged (by simp only [hpc]; rfl)]
    simp [writesOf]
  | notMain => simp [writesOf]
  | writeDrain hpc =>
    rw [pending_goto unlogged (by simp only [hpc]; rfl)]
    simp [writesOf]
  | writeNotice hpc =>
    rw [pending_goto unlogged (by simp only [hpc]; rfl)]
    simp [writesOf]
  | update hpc =>
    rw [pending_goto unlogged (by simp only [hpc]; rfl)]
    simp [writesOf]

@[simp] theorem drainBytes_snoc (screen : List RealCall) (c : RealCall) :
    drainBytes (screen ++ [c]) = drainBytes screen ++ drainBytes [c] := by
  simp [drainBytes]

theorem main_step {s s' : Sinks} {e : Event} (hs : s.step e = some s')
    (h : (loggedOf .main s.log).flatten = ownBytes s.screen ++ unsunk (s.pc .main)) :
    (loggedOf .main s'.log).flatten = ownBytes s'.screen ++ unsunk (s'.pc .main) := by
  cases step_does hs with
  | write hpc =>
    rw [pending_goto unsunk (by rw [hpc]; rfl)]
    exact h
  | elsewhere => exact h
  | @log u buf hpc =>
    by_cases hu : u = .main
    · subst hu
      simp only [hpc, unsunk, List.append_nil] at h
      simp [afterLog, unsunk, h]
    · simpa [goto_pc, hu, Ne.symm hu] using h
  | own hpc =>
    rw [hpc] at h
    simpa [goto_pc, unsunk, ownBytes] using h
  | append => simpa [goto_pc] using h
  | drain hpc =>
    rw [pending_goto unsunk (by simp only [hpc]; rfl)]
    exact h
  | notMain => exact h
  | writeDrain hpc =>
    rw [pending_goto unsunk (by simp only [hpc]; rfl)]
    simp only [goto_screen]
    split
    · exact h
    · simpa [ownBytes] using h
  | writeNotice hpc =>
    rw [pending_goto unsunk (by simp only [hpc]; rfl)]
    simp only [goto_screen]
    split
    · simpa [ownBytes] using h
    · exact h
  | update hpc =>
    rw [pending_goto unsunk (by simp only [hpc]; rfl)]
    simpa [ownBytes] using h

/-- A worker's bytes in the log but for its tagged lines. -/
def untagged (i : Nat) (log : List (Thread × Bytes)) : Bytes :=
  ((loggedOf (.worker i) log).filter (fun buf => !isSwitchDiag buf)).flatten

/-- The bytes of worker `i` that have come to the buffer, drained or not. -/
def sunk (i : Nat) (p : MarkedPieces) : Bytes := p.closed.flatMap (Marked.own i) ++ p.current.own i

theorem own_append (i : Nat) (m n : Marked) : (m ++ n).own i = m.own i ++ n.own i := by
  simp [Marked.own]

theorem own_mark (i j : Nat) (buf : Bytes) :
    Marked.own i (buf.map (j, ·)) = if j = i then buf else [] := by
  by_cases h : j = i
  · simp [Marked.own, List.filter_map, Function.comp_def, h]
  · simp [Marked.own, List.filter_map, Function.comp_def, h]

theorem worker_step {es : List Event} {s s' : Sinks} {e : Event} (hs : s.step e = some s') {i : Nat}
    (h : untagged i s.log = sunk i (marks es) ++ unsunk (s.pc (.worker i))) :
    untagged i s'.log = sunk i (marks (es ++ [e])) ++ unsunk (s'.pc (.worker i)) := by
  rw [marks_snoc]
  cases step_does hs with
  | write hpc =>
    rw [pending_goto unsunk (by rw [hpc]; rfl)]
    exact h
  | elsewhere => exact h
  | @log u buf hpc =>
    by_cases hu : u = .worker i
    · subst hu
      rw [hpc] at h
      cases hb : isSwitchDiag buf <;>
        simp_all [afterLog, unsunk, untagged, MarkedPieces.record]
    · simpa [goto_pc, hu, Ne.symm hu, untagged, MarkedPieces.record] using h
  | own hpc => simpa [goto_pc, MarkedPieces.record] using h
  | @append j buf hpc =>
    by_cases hj : j = i
    · subst hj
      rw [hpc] at h
      simpa [goto_pc, MarkedPieces.record, sunk, own_append, own_mark, unsunk] using h
    · have hne : Thread.worker i ≠ .worker j := fun he => hj (Thread.worker.inj he).symm
      simpa [goto_pc, hne, MarkedPieces.record, sunk, own_append, own_mark, hj] using h
  | drain hpc =>
    simpa [goto_pc, MarkedPieces.record, sunk, Marked.own] using h
  | notMain => exact h
  | writeDrain hpc => simpa [goto_pc, MarkedPieces.record] using h
  | writeNotice hpc => simpa [goto_pc, MarkedPieces.record] using h
  | update hpc => simpa [goto_pc, MarkedPieces.record] using h

/-- The marks say whose bytes the intervals are made of. -/
theorem marks_bytes (es : List Event) :
    (marks es).closed.map Marked.bytes = (intervals es).closed ∧
    (marks es).current.bytes = (intervals es).current := by
  induction es using List.reverseRecOn with
  | nil => exact ⟨rfl, rfl⟩
  | append_singleton es e ih =>
    obtain ⟨hc, hcur⟩ := ih
    rw [marks_snoc, intervals_snoc]
    cases e with
    | sink t buf =>
      cases t with
      | main => exact ⟨hc, hcur⟩
      | worker i =>
        refine ⟨hc, ?_⟩
        simp [MarkedPieces.record, Pieces.record, Marked.bytes, ← hcur, Function.comp_def]
    | consoleUpdate t =>
      cases t with
      | main => exact ⟨by simp [MarkedPieces.record, Pieces.record, hc, hcur], rfl⟩
      | worker i => exact ⟨hc, hcur⟩
    | write | logLock | writeDrain | writeNotice | realConsoleUpdate => exact ⟨hc, hcur⟩

/-- The bytes of the intervals whose drain was written, as far as there was room. -/
def drainedBytes (closed : List Marked) (pc : Pc) : Bytes :=
  (shown closed pc).flatMap (fun m => m.kept.bytes)

theorem kept_bytes (m : Marked) : m.kept.bytes = m.bytes.take diagBufSize :=
  List.map_take

theorem closed_last {es : List Event} {before : List Bytes} {total : Bytes}
    (h : (intervals es).closed = before ++ [total]) :
    ∃ closed last, (marks es).closed = closed ++ [last] ∧ last.bytes = total := by
  rw [← (marks_bytes es).1] at h
  obtain ⟨closed, tail, hc, -, ht⟩ := List.map_eq_append_iff.mp h
  obtain ⟨last, hl, hb⟩ := List.map_eq_singleton_iff.mp ht
  exact ⟨closed, last, by rw [hc, hl], hb⟩

theorem drains_step {es : List Event} {s s' : Sinks} {e : Event} (hs : s.step e = some s')
    (hi : DiagDrains.Inv es s)
    (h : drainBytes s.screen = drainedBytes (marks es).closed (s.pc .main)) :
    drainBytes s'.screen = drainedBytes (marks (es ++ [e])).closed (s'.pc .main) := by
  rw [marks_snoc]
  cases step_does hs with
  | @write t fd buf hpc =>
    by_cases ht : t = .main
    · subst ht
      simpa [hpc, drainedBytes, shown, MarkedPieces.record] using h
    · simpa [goto_pc, Ne.symm ht, MarkedPieces.record] using h
  | elsewhere => exact h
  | @log t buf hpc =>
    by_cases ht : t = .main
    · subst ht
      simpa [hpc, afterLog, drainedBytes, shown, MarkedPieces.record] using h
    · simpa [goto_pc, Ne.symm ht, MarkedPieces.record] using h
  | own hpc =>
    rw [hpc] at h
    simpa [drainedBytes, shown, MarkedPieces.record, drainBytes] using h
  | append => simpa [goto_pc, MarkedPieces.record] using h
  | drain hpc =>
    rw [hpc] at h
    simpa [drainedBytes, shown, MarkedPieces.record] using h
  | notMain => exact h
  | @writeDrain n dropped hpc =>
    rw [hpc] at h
    have hm := hi.main
    simp only [MainOk, hpc] at hm
    obtain ⟨before, total, hc, -, htake, -, -⟩ := hm
    obtain ⟨closed, last, hclosed, hlast⟩ := closed_last hc
    have hshow : last.kept.bytes = s.drain.take n := by rw [kept_bytes, hlast, htake]
    simp only [goto_screen, goto_pc_self, MarkedPieces.record, drainedBytes, shown, hclosed,
      List.dropLast_concat, List.flatMap_append, List.flatMap_singleton, hshow] at h ⊢
    split
    · next hz => simp [h, hz]
    · rw [drainBytes_snoc, h]
      simp [drainBytes]
  | writeNotice hpc =>
    rw [hpc] at h
    simp only [goto_screen, goto_pc_self, MarkedPieces.record]
    split
    · simpa [drainedBytes, shown, drainBytes] using h
    · exact h
  | update hpc =>
    rw [hpc] at h
    simpa [drainedBytes, shown, MarkedPieces.record, drainBytes] using h

theorem kept_own_sublist (i : Nat) (m : Marked) : (m.kept.own i).Sublist (m.own i) :=
  ((List.take_sublist _ m).filter _).map _

/-- An interval whose drain shows no notice lost nothing. -/
theorem kept_of_fits {m : Marked} (h : m.length ≤ diagBufSize) : m.kept = m :=
  List.take_of_length_le h

/-- What has come to a worker's sink, or is on the way there, and is in no drain that
was written. -/
def notDrained (i : Nat) (p : MarkedPieces) (s : Sinks) : Bytes :=
  (p.closed.drop (shown p.closed (s.pc .main)).length).flatMap (Marked.own i) ++ p.current.own i ++
    unsunk (s.pc (.worker i))

theorem shown_prefix (closed : List Marked) (pc : Pc) :
    closed = shown closed pc ++ closed.drop (shown closed pc).length := by
  have h : shown closed pc <+: closed := by
    cases pc with
    | drained => exact List.dropLast_prefix closed
    | idle | logging | sinking | noticing | updating => exact List.prefix_refl closed
  exact (List.prefix_iff_eq_append.mp h).symm

/-- How the log and the console go together after a run. -/
structure Agrees (es : List Event) (s : Sinks) : Prop where
  /-- The log has every write of a thread once, in order, but for one under way. -/
  log : ∀ t, writesOf t es = loggedOf t s.log ++ unlogged (s.pc t)
  /-- So has the console those of the main thread. -/
  main : (loggedOf .main s.log).flatten = ownBytes s.screen ++ unsunk (s.pc .main)
  /-- The rest of the console is the drains; these bytes came from workers. -/
  drains : drainBytes s.screen = drainedBytes (marks es).closed (s.pc .main)
  /-- The notice follows just the intervals that did not fit. -/
  notices : (emissions s.screen).closed <+: (marks es).closed.map (fun m => owed m.bytes)
  /-- A worker's bytes on the console are in the log in the same order. -/
  order : ∀ i, ((shown (marks es).closed (s.pc .main)).flatMap (fun m => m.kept.own i)).Sublist
    (loggedOf (.worker i) s.log).flatten
  /-- In the log there are besides its tagged lines, what no drain has shown yet, and
  what did not fit. -/
  missing : ∀ i, untagged i s.log =
    (shown (marks es).closed (s.pc .main)).flatMap (Marked.own i) ++ notDrained i (marks es) s
  whole : ∀ m ∈ (marks es).closed, m.length ≤ diagBufSize → m.kept = m

theorem sunk_split (i : Nat) (p : MarkedPieces) (s : Sinks) :
    sunk i p ++ unsunk (s.pc (.worker i)) =
      (shown p.closed (s.pc .main)).flatMap (Marked.own i) ++ notDrained i p s := by
  have hsplit := shown_prefix p.closed (s.pc .main)
  rw [sunk, notDrained]
  conv_lhs => rw [hsplit]
  simp only [List.flatMap_append, List.append_assoc]

theorem untagged_sublist (i : Nat) (log : List (Thread × Bytes)) :
    (untagged i log).Sublist (loggedOf (.worker i) log).flatten :=
  List.filter_sublist.flatten

/-- The accounts after a run, one for each thread and one for the drains. -/
theorem run_accounts {es : List Event} {s : Sinks} (hr : run Sinks.step .booted es = some s) :
    (∀ t, writesOf t es = loggedOf t s.log ++ unlogged (s.pc t)) ∧
    (loggedOf .main s.log).flatten = ownBytes s.screen ++ unsunk (s.pc .main) ∧
    (∀ i, untagged i s.log = sunk i (marks es) ++ unsunk (s.pc (.worker i))) ∧
    drainBytes s.screen = drainedBytes (marks es).closed (s.pc .main) := by
  apply run_history (P := fun es s =>
    (∀ t, writesOf t es = loggedOf t s.log ++ unlogged (s.pc t)) ∧
    (loggedOf .main s.log).flatten = ownBytes s.screen ++ unsunk (s.pc .main) ∧
    (∀ i, untagged i s.log = sunk i (marks es) ++ unsunk (s.pc (.worker i))) ∧
    drainBytes s.screen = drainedBytes (marks es).closed (s.pc .main)) ?_ ?_ hr
  · exact ⟨fun _ => rfl, rfl, fun _ => rfl, rfl⟩
  · intro es s e s' hrun h hs
    obtain ⟨hlog, hmain, hworker, hdrains⟩ := h
    exact ⟨fun t => log_step hs (hlog t), main_step hs hmain, fun i => worker_step hs (hworker i),
      drains_step hs (run_inv hrun) hdrains⟩

theorem console_agrees_log {es : List Event} {s : Sinks}
    (hr : run Sinks.step .booted es = some s) : Agrees es s := by
  obtain ⟨hlog, hmain, hworker, hdrains⟩ := run_accounts hr
  have hmissing (i : Nat) : untagged i s.log =
      (shown (marks es).closed (s.pc .main)).flatMap (Marked.own i) ++
        notDrained i (marks es) s := by
    rw [hworker i, sunk_split]
  refine ⟨hlog, hmain, hdrains, ?_, ?_, hmissing, fun _ _ => kept_of_fits⟩
  · have hdone := (run_inv hr).main.finished.1
    rwa [← (marks_bytes es).1, List.map_map] at hdone
  · intro i
    have hkept := List.Sublist.flatMap_right (shown (marks es).closed (s.pc .main))
      (fun m _ => kept_own_sublist i m)
    have hsub := untagged_sublist i s.log
    rw [hmissing i] at hsub
    exact hkept.trans ((List.sublist_append_left _ _).trans hsub)

/-- Two workers and the main thread: the log has all three lines, the console the
main thread's own and the one that was drained. -/
def helloMain : List Event :=
  helloRun ++ [.write .main 1 (ascii "main"), .logLock .main (ascii "main"),
    .sink .main (ascii "main")]

theorem console_agrees_log_hello : ∃ s, run Sinks.step .booted helloMain = some s ∧
    Agrees helloMain s ∧ s.log = [(.worker 1, ascii "[SWITCH-DIAG] x"), (.worker 0, ascii "hi"),
      (.main, ascii "main")] ∧
      ownBytes s.screen = ascii "main" ∧ drainBytes s.screen = ascii "hi" := by
  exact ⟨_, rfl, console_agrees_log rfl, rfl, rfl, rfl⟩

end SwitchLdnZt.Proofs.ConsoleLog
