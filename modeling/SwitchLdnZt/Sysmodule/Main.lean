import SwitchLdnZt.Library.Run

namespace SwitchLdnZt.Sysmodule

/-- A libnx `Result`. -/
abbrev Result := UInt32

def succeeded (rc : Result) : Bool := rc == 0

/-- Where `Main` is: the call it makes next, or its sleep. -/
inductive MainPc
  | tryStart
  | openFile
  | threadCreate
  | threadStart
  | inline
  | sleep
deriving DecidableEq

inductive ZtThread
  | none
  | created
  | started
  | inside
  | exited
deriving DecidableEq

/-- `seen`, `direct` and `invocations` are bookkeeping: a poll has found the enable
file, `ZtInitThreadFunc` was called by `Main` itself, calls of `zts_init_from_storage`. -/
structure Module where
  pc : MainPc
  ztInitStarted : Bool
  ztInitDone : Bool
  ztInitRc : Int
  ztThread : ZtThread
  seen : Bool
  direct : Bool
  invocations : Nat
deriving DecidableEq

def Module.boot : Module := ⟨.tryStart, false, false, -999, .none, false, false, 0⟩

inductive ModuleEvent
  | poll
  | openFile (rc : Result)
  | threadCreate (rc : Result)
  | threadStart (rc : Result)
  | inlineReturns (rc : Int)
  | threadEnters
  | threadReturns (rc : Int)
  | wake

/-- `g_zt_init_rc = ...; g_zt_init_done = true;` -/
def Module.finish (m : Module) (rc : Int) : Module :=
  { m with ztInitRc := rc, ztInitDone := true }

def Module.step (m : Module) : ModuleEvent → Option Module
  | .poll =>
    match m.pc with
    | .tryStart => some { m with pc := if m.ztInitStarted then .sleep else .openFile }
    | _ => none
  | .openFile rc =>
    match m.pc with
    | .openFile =>
      if succeeded rc then
        some { m with pc := .threadCreate, ztInitStarted := true, seen := true }
      else some { m with pc := .sleep }
    | _ => none
  | .threadCreate rc =>
    match m.pc with
    | .threadCreate =>
      if succeeded rc then some { m with pc := .threadStart, ztThread := .created }
      else some { m with pc := .inline, direct := true, invocations := m.invocations + 1 }
    | _ => none
  | .threadStart rc =>
    match m.pc with
    | .threadStart =>
      -- The result is dropped: a thread that did not start stays created.
      some { m with
        pc := .sleep
        ztThread := if succeeded rc then .started else m.ztThread }
    | _ => none
  | .inlineReturns rc =>
    match m.pc with
    | .inline => some { m.finish rc with pc := .sleep }
    | _ => none
  | .threadEnters =>
    match m.ztThread with
    | .started => some { m with ztThread := .inside, invocations := m.invocations + 1 }
    | _ => none
  | .threadReturns rc =>
    match m.ztThread with
    | .inside => some { m.finish rc with ztThread := .exited }
    | _ => none
  | .wake =>
    match m.pc with
    | .sleep => some { m with pc := .tryStart }
    | _ => none

end SwitchLdnZt.Sysmodule
