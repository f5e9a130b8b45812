import Mathlib.Logic.Function.Basic
import SwitchLdnZt.Library.Run

namespace SwitchLdnZt.Patched

variable {Caller Id : Type}

/-- `static struct sys_thread switch_threads[32]`; a pointer into it is an index. -/
abbrev SysThread := Fin 32

/-- A call of `sys_thread_new` from `pthread_create` on: what that gave as `code` and
`tmp`, and `st`. -/
structure SysThreadCall (Id : Type) where
  code : Int
  tmp : Id
  st : Option SysThread
  deriving DecidableEq

/-- Where a caller is in `sys_thread_new`. -/
inductive SysThreadPhase (Id : Type)
  | outside
  | entered
  | created (code : Int) (tmp : Id)
  | slot (code : Int) (tmp : Id) (slot : UInt32)
  | returning (call : SysThreadCall Id)

structure SysThreads (Caller Id : Type) where
  switchThreadCount : UInt32
  /-- The `pthread` of each slot; `none` is a slot not written yet. -/
  switchThreads : SysThread → Option Id
  phase : Caller → SysThreadPhase Id
  /-- The pointers that `introduce_thread` gave back, NULL left out. -/
  introduced : List SysThread
  returned : List (SysThreadCall Id)

def SysThreads.init : SysThreads Caller Id :=
  ⟨0, fun _ => none, fun _ => .outside, [], []⟩

inductive SysThreadEvent (Caller Id : Type)
  | enter (c : Caller)
  | pthreadCreate (c : Caller) (code : Int) (tmp : Id)
  | fetchAndAdd (c : Caller)
  | introduce (c : Caller)
  | leave (c : Caller)

section
variable [DecidableEq Caller]

def SysThreads.at (s : SysThreads Caller Id) (c : Caller) (p : SysThreadPhase Id) :
    SysThreads Caller Id :=
  { s with phase := Function.update s.phase c p }

/-- `st` is what the part of `sys_thread_new` that libzt has starts it as. -/
def sysThreadStep (st : Option SysThread) (s : SysThreads Caller Id) :
    SysThreadEvent Caller Id → Option (SysThreads Caller Id)
  | .enter c =>
    match s.phase c with
    | .outside => some (s.at c .entered)
    | _ => none
  | .pthreadCreate c code tmp =>
    match s.phase c with
    | .entered =>
      if 0 = code then some (s.at c (.created code tmp))
      else some (s.at c (.returning ⟨code, tmp, st⟩))
    | _ => none
  | .fetchAndAdd c =>
    match s.phase c with
    | .created code tmp =>
      some { s.at c (.slot code tmp s.switchThreadCount) with
        switchThreadCount := s.switchThreadCount + 1 }
    | _ => none
  | .introduce c =>
    match s.phase c with
    | .slot code tmp slot =>
      if h : slot.toNat < 32 then
        some { s.at c (.returning ⟨code, tmp, some ⟨slot.toNat, h⟩⟩) with
          switchThreads := Function.update s.switchThreads ⟨slot.toNat, h⟩ (some tmp)
          introduced := s.introduced ++ [⟨slot.toNat, h⟩] }
      else some (s.at c (.returning ⟨code, tmp, none⟩))
    | _ => none
  | .leave c =>
    -- Both ways out return `st`: the branch for a null one no longer aborts.
    match s.phase c with
    | .returning call => some { s.at c .outside with returned := s.returned ++ [call] }
    | _ => none

/-- The counter has not left the table when `introduce_thread` reads it. -/
def slotLeft (s : SysThreads Caller Id) : SysThreadEvent Caller Id → Bool
  | .fetchAndAdd _ => s.switchThreadCount < 32
  | _ => true

end

end SwitchLdnZt.Patched
