import SwitchLdnZt.Library.Locks
import SwitchLdnZt.Compat.Diag

namespace SwitchLdnZt.Compat
open Library

inductive Mutex
  | gDiagMutex
  | gLogMutex
  | gRandomMutex
  deriving DecidableEq, Repr

/-- What a thread does between taking and giving back a mutex. -/
inductive Work
  | fopen
  | realWrite
  | realCall
  | randomGet
  | append
  | drain
  | consoleUpdate
  | svcExitProcess
  | svcSleepThread
  deriving DecidableEq, Repr

/-- `if (g_exiting) svcExitProcess()` and the endless sleep may not come back. -/
def Work.stops : Work → Bool
  | .svcExitProcess | .svcSleepThread => true
  | _ => false

abbrev Ops := List (LockOp Mutex Work)

/-- `fwrite` and `fflush` re-enter `__wrap__write_r` with the log's descriptor,
which is neither stdout nor stderr. -/
def logWrite : Ops :=
  [.lock .gLogMutex, .act .fopen, .act .realWrite, .act .realWrite, .unlock .gLogMutex]

/-- `turns` is how far the append loop comes. -/
def writeR (t : Thread) (fd : Int) (buf : Bytes) (turns : Nat) : Ops :=
  if isStdio fd then
    logWrite ++
      if t = .main then [.act .realWrite]
      else if isSwitchDiag buf then []
      else .lock .gDiagMutex :: (List.replicate turns (.act .append) ++ [.unlock .gDiagMutex])
  else [.act .realWrite]

def consoleUpdate (t : Thread) : Ops :=
  if t = .main then
    [.lock .gDiagMutex, .act .drain, .unlock .gDiagMutex, .act .realWrite, .act .realWrite,
      .act .consoleUpdate]
  else []

def getSecureRandom (logged : Bool) : Ops :=
  [.lock .gRandomMutex, .act .randomGet, .unlock .gRandomMutex] ++ if logged then logWrite else []

/-- The wrappers that only log: their lines, with real calls around them. -/
def logging (lines : Nat) : Ops :=
  .act .realCall :: (List.replicate lines (logWrite ++ [.act .realCall])).flatten

/-- The report of `__libnx_exception_handler`: one line and eight of registers. -/
def faultReport : Ops := (List.replicate 9 logWrite).flatten

def exceptionHandler : Ops := faultReport ++ [.act .svcExitProcess, .act .svcSleepThread]

def diagHaltOps (t : Thread) (line : Bytes) (turns : Nat) : Ops :=
  .act .svcExitProcess :: (logWrite ++ writeR t stdoutFileno line turns ++ [.act .svcSleepThread])

/-- A call of a wrapped function. -/
inductive WrappedCall
  | writeR (fd : Int) (buf : Bytes) (turns : Nat)
  | consoleUpdate
  | getSecureRandom (logged : Bool)
  | logging (lines : Nat)
  | mkdir (line : Bytes) (turns : Nat)

def WrappedCall.ops (t : Thread) : WrappedCall → Ops
  | .writeR fd buf turns => Compat.writeR t fd buf turns
  | .consoleUpdate => Compat.consoleUpdate t
  | .getSecureRandom logged => Compat.getSecureRandom logged
  | .logging lines => Compat.logging lines
  | .mkdir line turns =>
    [.act .realCall, .act .realCall] ++ Compat.writeR t stdoutFileno line turns

structure Layer extends Threads Thread Mutex Work where
  gExiting : Bool
  exited : Bool

def Layer.booted : Layer := ⟨⟨fun _ => [], fun _ => none⟩, false, false⟩

/-- Asleep for good, after a fault or a halt. -/
def Layer.Parked (s : Layer) (t : Thread) : Prop :=
  (s.todo t).head? = some (.act .svcSleepThread)

instance (s : Layer) (t : Thread) : Decidable (s.Parked t) :=
  inferInstanceAs (Decidable (_ = _))

/-- One scheduling choice. A fault enters the exception handler, an abort or a
worker's exit enters `diag_halt`; neither comes back to what the thread did. -/
inductive LayerEvent
  | call (t : Thread) (c : WrappedCall)
  | tick (t : Thread)
  | fault (t : Thread)
  | halt (t : Thread) (line : Bytes) (turns : Nat)
  | ztBeginExit
  | mainExit

def Layer.goOn (s : Layer) (t : Thread) (ops : Ops) : Layer :=
  { s with toThreads := s.toThreads.goOn t ops }

def Layer.tick (s : Layer) (t : Thread) : Option Layer :=
  match s.todo t with
  | .act .svcExitProcess :: rest =>
    if s.gExiting then some { s with exited := true } else some (s.goOn t rest)
  | .act .svcSleepThread :: _ => some s
  | _ => (s.toThreads.tick Work.stops t).map fun threads => { s with toThreads := threads }

def Layer.step (s : Layer) (e : LayerEvent) : Option Layer :=
  if s.exited then none
  else match e with
    | .call t c => if s.todo t = [] then some (s.goOn t (c.ops t)) else none
    | .tick t => s.tick t
    | .fault t => if s.Parked t then none else some (s.goOn t exceptionHandler)
    | .halt t line turns =>
      if s.Parked t then none else some (s.goOn t (diagHaltOps t line turns))
    | .ztBeginExit => some { s with gExiting := true }
    | .mainExit => some { s with exited := true }

def holdsNone (s : Layer) (t : Thread) : Bool :=
  s.owner .gDiagMutex ≠ some t && s.owner .gLogMutex ≠ some t && s.owner .gRandomMutex ≠ some t

/-- A fault or halt strikes only a thread that is in none of the critical sections. -/
def strikesOutside (s : Layer) : LayerEvent → Bool
  | .fault t | .halt t _ _ => holdsNone s t
  | _ => true

end SwitchLdnZt.Compat
