import SwitchLdnZt.Ping.Responder

namespace SwitchLdnZt.App
open Library Ping

def ztsErrOk : Int := 0

/-- What the calls of one pass of the main loop return. -/
structure LoopPass where
  online : Bool
  ready : Bool
  joinRc : Int
  pingSocket : Int
  pingBind : Int
  stack : Buffer 64
  incoming : Option (From × Bytes)

/-- `joins` is bookkeeping: for each pass so far whether the node was online in it,
and what `zts_net_join` returned if the pass called it. -/
structure MainLoop where
  waited : Int
  wasOnline : Bool
  wasReady : Bool
  joined : Bool
  pingSock : Int
  out : List Bytes
  joins : List (Bool × Option Int)

def MainLoop.start : MainLoop := ⟨0, false, false, false, -1, [], []⟩

def MainLoop.print (s : MainLoop) (line : Bytes) : MainLoop :=
  { s with out := s.out ++ [line] }

/-- ` (t=%ds)\n` -/
def MainLoop.stamp (s : MainLoop) : Bytes :=
  ascii " (t=" ++ fmtD (s.waited.tdiv 100) ++ ascii "s)\n"

def MainLoop.showOnline (s : MainLoop) (online : Bool) : MainLoop :=
  if online ≠ s.wasOnline then
    { s with wasOnline := online }.print
      (ascii "[ZT] node is now " ++ (if online then ascii "ONLINE" else ascii "OFFLINE") ++
        s.stamp)
  else s

def MainLoop.showReady (s : MainLoop) (ready : Bool) : MainLoop :=
  if ready ≠ s.wasReady then
    { s with wasReady := ready }.print
      (ascii "[ZT] network transport is now " ++
        (if ready then ascii "READY" else ascii "NOT READY") ++ s.stamp)
  else s

def MainLoop.join (s : MainLoop) (online : Bool) (joinRc : Int) : MainLoop :=
  if online && !s.joined then
    { s with joined := true, joins := s.joins ++ [(online, some joinRc)] }.print
      (ascii "[ZT] zts_net_join -> " ++ fmtD joinRc ++ s.stamp)
  else { s with joins := s.joins ++ [(online, none)] }

/-- `ping_responder_init`, where it is due. -/
def MainLoop.pingResponderInit (s : MainLoop) (p : LoopPass) : MainLoop :=
  if p.online && s.pingSock < 0 then
    if p.pingSocket < 0 then { s with pingSock := p.pingSocket }
    else if p.pingBind ≠ 0 then { s with pingSock := -1 }
    else { s with pingSock := p.pingSocket }.print
      (ascii "[PING] responder listening on :9994 (zts tunnel)\n")
  else s

def MainLoop.pingPoll (s : MainLoop) (p : LoopPass) : MainLoop :=
  s.print (pingResponderPoll s.pingSock p.stack p.incoming).printed

/-- One pass, up to the status lines of every 500th. -/
def MainLoop.pass (s : MainLoop) (p : LoopPass) : MainLoop :=
  let s := (s.showOnline p.online).showReady p.ready
  let s := (s.join p.online p.joinRc).pingResponderInit p
  let s := s.pingPoll p
  { s with waited := s.waited + 1 }

def mainLoop (passes : List LoopPass) : MainLoop := passes.foldl MainLoop.pass .start

end SwitchLdnZt.App
