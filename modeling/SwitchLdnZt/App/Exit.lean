import SwitchLdnZt.App.Peers
import SwitchLdnZt.Compat.Mutexes

namespace SwitchLdnZt.App
open Library Compat

/-- Where `main` is behind its loop. -/
inductive ExitPc
  | exiting
  | update
  | closePing
  | beginExit
  | log
  | nodeStop
  | waiting
  | resting
  | grace
  | socketExit
  | consoleExit
  | exitProcess
  | gone
deriving DecidableEq

inductive ExitCall
  | printf (text : Bytes)
  | consoleUpdate
  | ztsBsdClose (fd : Int)
  | ztBeginExit
  | ztLog (msg : Bytes)
  | ztsNodeStop
  | svcSleepThread (ms : Nat)
  | socketExit
  | consoleExit
  | svcExitProcess
deriving DecidableEq

/-- What a call has to do with the wrappers' mutexes before it comes back. -/
def ExitCall.ops : ExitCall → Ops
  | .printf text => writeR .main stdoutFileno text 0
  | .consoleUpdate => Compat.consoleUpdate .main
  | .ztLog _ => logWrite
  | _ => []

/-- `layer` has `g_exiting`, the wrappers' mutexes, and what each thread is in the midst of;
`printing` is who has the C library's lock of `stdout`, from where its `printf` begins to where
it comes back. `calls` is bookkeeping: what `main` has called since its loop ended. -/
structure Exit where
  pc : ExitPc
  pingSock : Int
  events : Events
  waitedMs : Nat
  layer : Layer
  printing : Option Thread
  calls : List ExitCall

def Exit.start (pingSock : Int) (events : Events) (layer : Layer) (printing : Option Thread) :
    Exit :=
  ⟨.exiting, pingSock, events, 0, layer, printing, []⟩

def Exit.call (s : Exit) (calls : List ExitCall) (pc : ExitPc) : Exit :=
  { s with
    pc := pc
    layer := s.layer.goOn .main (calls.flatMap ExitCall.ops)
    calls := s.calls ++ calls }

def Exit.main (s : Exit) : Option Exit :=
  match s.pc with
  | .exiting =>
    if s.printing = none then
      some ({ s with printing := some .main }.call [.printf (ascii "\nExiting...\n")] .update)
    else none
  | .update => some (s.call [.consoleUpdate] .closePing)
  | .closePing =>
    if s.pingSock ≥ 0 then
      some ({ s with pingSock := -1 }.call [.ztsBsdClose s.pingSock] .beginExit)
    else some (s.call [] .beginExit)
  | .beginExit =>
    some ({ s with layer := { s.layer with gExiting := true } }.call [.ztBeginExit] .log)
  | .log => some (s.call [.ztLog (ascii "[EXIT] requested, terminating\n")] .nodeStop)
  | .nodeStop => some (s.call [.ztsNodeStop] .waiting)
  | .waiting =>
    if !s.events.nodeDown && s.waitedMs < 3000 then some (s.call [] .resting)
    else some (s.call [] .grace)
  | .resting =>
    some ({ s with waitedMs := s.waitedMs + 50 }.call [.svcSleepThread 50] .waiting)
  | .grace => some (s.call [.svcSleepThread 100] .socketExit)
  | .socketExit => some (s.call [.socketExit] .consoleExit)
  | .consoleExit => some (s.call [.consoleExit] .exitProcess)
  | .exitProcess =>
    some ({ s with layer := { s.layer with exited := true } }.call [.svcExitProcess] .gone)
  | .gone => none

/-- `main` makes its next call; an event is handled on a thread of the node's; a thread does
something with the wrappers, as it is struck by a fault, an `abort` or an `exit`; or a thread's
`printf` begins, to write what it prints by calls of `__wrap__write_r`, or comes back. -/
inductive ExitEvent
  | main
  | node (self : Self) (msg : Option EventMsg)
  | thread (e : LayerEvent)
  | printf (t : Thread)
  | printed (t : Thread)

/-- `main` does no more with the wrappers than its calls do. -/
def beside : LayerEvent → Bool
  | .tick _ => true
  | .call t _ | .fault t | .halt t _ _ => t ≠ .main
  | .ztBeginExit | .mainExit => false

/-- The next call of `main` is made when the one before has come back. -/
def Exit.step (s : Exit) (e : ExitEvent) : Option Exit :=
  if s.layer.exited then none
  else match e with
    | .main => if s.layer.todo .main = [] ∧ s.printing ≠ some .main then s.main else none
    | .node self msg => (printEvent self msg s.events).map fun events => { s with events := events }
    | .thread e =>
      if beside e then (s.layer.step e).map fun layer => { s with layer := layer } else none
    | .printf t =>
      if t ≠ .main ∧ s.printing = none ∧ s.layer.todo t = [] then
        some { s with printing := some t }
      else none
    | .printed t =>
      if s.printing = some t ∧ s.layer.todo t = [] then some { s with printing := none } else none

end SwitchLdnZt.App
