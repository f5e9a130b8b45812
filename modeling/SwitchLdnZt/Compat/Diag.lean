import SwitchLdnZt.Library.Run
import SwitchLdnZt.Library.CText

namespace SwitchLdnZt.Compat
open Library

def diagBufSize : Nat := 8192

/-- `g_diag_buf`, `g_diag_len` and `g_diag_dropped`, guarded by `g_diag_mutex`. -/
structure Diag where
  gDiagBuf : Bytes
  gDiagLen : Nat
  gDiagDropped : Bool

def Diag.zeroed : Diag := ⟨List.replicate diagBufSize 0, 0, false⟩

/-- The critical section of a worker's `__wrap__write_r`. -/
def Diag.append (d : Diag) : Bytes → Diag
  | [] => d
  | b :: bs =>
    if d.gDiagLen < diagBufSize then
      Diag.append { d with gDiagBuf := d.gDiagBuf.set d.gDiagLen b, gDiagLen := d.gDiagLen + 1 } bs
    else { d with gDiagDropped := true }

/-- The critical section of `__wrap_consoleUpdate`: the static `drain` buffer,
the counts `n` and `dropped` it keeps, and the emptied buffer it leaves. -/
def Diag.drainInto (d : Diag) (drain : Bytes) : Bytes × Nat × Bool × Diag :=
  (d.gDiagBuf.take d.gDiagLen ++ drain.drop d.gDiagLen, d.gDiagLen, d.gDiagDropped,
    { d with gDiagLen := 0, gDiagDropped := false })

def switchDiagTag : Bytes := ascii "[SWITCH-DIAG]"

/-- `len >= 14 && memcmp(p, "[SWITCH-DIAG]", 13) == 0` -/
def isSwitchDiag (buf : Bytes) : Bool := 14 ≤ buf.length && buf.take 13 == switchDiagTag

def droppedNotice : Bytes := ascii "[diag buffer full - output dropped]\n"

inductive Thread
  | main
  | worker (n : Nat)
  deriving DecidableEq, Repr

/-- Where a thread stands inside `__wrap__write_r` or `__wrap_consoleUpdate`. -/
inductive Pc
  | idle
  | logging (buf : Bytes)
  | sinking (buf : Bytes)
  | drained (n : Nat) (dropped : Bool)
  | noticing (dropped : Bool)
  | updating
  deriving DecidableEq

/-- The calls of the wrapped functions that reach the console. -/
inductive RealCall
  | ownWrite (buf : Bytes)
  | drainWrite (buf : Bytes)
  | noticeWrite
  | consoleUpdate
  deriving DecidableEq

structure Sinks where
  diag : Diag
  drain : Bytes
  log : List (Thread × Bytes)
  screen : List RealCall
  pc : Thread → Pc

def Sinks.booted : Sinks :=
  ⟨Diag.zeroed, List.replicate diagBufSize 0, [], [], fun _ => .idle⟩

def stdoutFileno : Int := 1
def stderrFileno : Int := 2

def isStdio (fd : Int) : Bool := fd == stdoutFileno || fd == stderrFileno

/-- One scheduling choice. A write carries its bytes at each of its two critical
sections, so that the event list alone is the history of the run. -/
inductive Event
  | write (t : Thread) (fd : Int) (buf : Bytes)
  | logLock (t : Thread) (buf : Bytes)
  | sink (t : Thread) (buf : Bytes)
  | consoleUpdate (t : Thread)
  | writeDrain
  | writeNotice
  | realConsoleUpdate
  deriving DecidableEq

def Sinks.goto (s : Sinks) (t : Thread) (p : Pc) : Sinks :=
  { s with pc := fun u => if u = t then p else s.pc u }

/-- After `log_write`: a worker's tagged line returns, everything else goes on
to its sink. -/
def afterLog (t : Thread) (buf : Bytes) : Pc :=
  if t ≠ .main ∧ isSwitchDiag buf then .idle else .sinking buf

def Sinks.step (s : Sinks) : Event → Option Sinks
  | .write t fd buf =>
    if s.pc t = .idle then
      -- other descriptors go straight to `__real__write_r`, past both buffers
      if isStdio fd then some (s.goto t (.logging buf)) else some s
    else none
  | .logLock t buf =>
    if s.pc t = .logging buf then
      some ({ s with log := s.log ++ [(t, buf)] }.goto t (afterLog t buf))
    else none
  | .sink t buf =>
    if s.pc t = .sinking buf then
      if t = .main then some ({ s with screen := s.screen ++ [RealCall.ownWrite buf] }.goto t .idle)
      else some ({ s with diag := s.diag.append buf }.goto t .idle)
    else none
  | .consoleUpdate t =>
    if s.pc t = .idle then
      if t = .main then
        let (drain, n, dropped, diag) := s.diag.drainInto s.drain
        some ({ s with drain := drain, diag := diag }.goto .main (.drained n dropped))
      else some s
    else none
  | .writeDrain =>
    match s.pc .main with
    | .drained n dropped =>
      let screen := if n = 0 then s.screen else s.screen ++ [RealCall.drainWrite (s.drain.take n)]
      some ({ s with screen := screen }.goto .main (.noticing dropped))
    | _ => none
  | .writeNotice =>
    match s.pc .main with
    | .noticing dropped =>
      let screen := if dropped then s.screen ++ [RealCall.noticeWrite] else s.screen
      some ({ s with screen := screen }.goto .main .updating)
    | _ => none
  | .realConsoleUpdate =>
    match s.pc .main with
    | .updating => some ({ s with screen := s.screen ++ [RealCall.consoleUpdate] }.goto .main .idle)
    | _ => none

@[simp] theorem goto_pc_self (s : Sinks) (t : Thread) (p : Pc) : (s.goto t p).pc t = p := by
  simp [Sinks.goto]

theorem goto_pc_other (s : Sinks) {t u : Thread} (p : Pc) (h : u ≠ t) :
    (s.goto t p).pc u = s.pc u := by
  simp [Sinks.goto, h]

@[simp] theorem goto_diag (s : Sinks) (t : Thread) (p : Pc) : (s.goto t p).diag = s.diag := rfl
@[simp] theorem goto_drain (s : Sinks) (t : Thread) (p : Pc) : (s.goto t p).drain = s.drain := rfl
@[simp] theorem goto_log (s : Sinks) (t : Thread) (p : Pc) : (s.goto t p).log = s.log := rfl
@[simp] theorem goto_screen (s : Sinks) (t : Thread) (p : Pc) :
    (s.goto t p).screen = s.screen := rfl

end SwitchLdnZt.Compat
