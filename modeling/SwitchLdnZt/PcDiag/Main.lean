import SwitchLdnZt.App.MainLoop
import SwitchLdnZt.App.Peers
import SwitchLdnZt.Config.NetworkId
import SwitchLdnZt.Ping.Responder

namespace SwitchLdnZt.PcDiag
open Library Config Ping App

/-- Where `main` is: the call, the guard or the sleep that comes next. -/
inductive Pc
  | readNetworkId
  | nodeStart
  | online
  | onlineSleep
  | netJoin
  | addr
  | addrSleep
  | socket
  | loop
  | receive
  | ping
  | report
  | loopSleep
  | nodeStop
  | down
  | downSleep
  | returned (code : Int)
deriving DecidableEq

/-- The loops that wait for the node, for its address and for the signal. -/
inductive Loop
  | online
  | addr
  | ping
deriving DecidableEq

/-- The command line. -/
structure Args where
  targetIp : Bytes
  nr : Int
  targetPort : UInt16

def Args.storageDir (a : Args) : Bytes :=
  if a.nr = 0 then ascii "./zt-storage" else ascii "./zt-storage-" ++ fmtD a.nr

def Args.primaryPort (a : Args) : UInt16 := UInt16.ofInt (9993 + a.nr)
def Args.localPingPort (a : Args) : UInt16 := UInt16.ofInt (9994 + a.nr)

/-- The locals and globals of `main`, what it printed and sent. The fields from
`started` on are bookkeeping: a start that succeeded, each iteration begun with the flag as
it was then, `zts_node_stop` called, the time slept since, and whether the guard behind it
found the node down. -/
structure Main where
  pc : Pc
  shutdownRequested : Bool
  nodeDown : Bool
  networkId : UInt64
  sock : Int
  haveTarget : Bool
  start : Int
  elapsed : Int
  lastReport : Int
  lastPing : Int
  pingSeq : UInt32
  rxbuf : Buffer 256
  waitedMs : Int
  printed : List Bytes
  sent : List Bytes
  started : Bool
  begun : List (Loop × Bool)
  stopped : Bool
  rested : Nat
  sawDown : Bool

/-- Where the handler of SIGINT has just been installed. -/
def Main.boot (rxbuf : Buffer 256) : Main :=
  ⟨.readNetworkId, false, false, 0, -1, false, 0, 0, 0, 0, 0, rxbuf, 0, [], [], false, [], false,
    0, false⟩

/-- The signal, an event on the node's thread, or what the main thread's next call
returns; a sleep takes `more` milliseconds more than it was asked to. -/
inductive Event
  | sigint
  | node (self : Self) (msg : Option EventMsg)
  | networkId (file : Option Bytes)
  | nodeStart (rc : Int)
  | isOnline (yes : Bool)
  | netJoin (rc : Int)
  | addrIsAssigned (rc : Int)
  | socket (ip : Bytes) (nodeId : UInt64) (fd now : Int)
  | turn (now : Int)
  | receive (incoming : Option (From × Bytes))
  | ping (rc : Int)
  | report (nodeId : UInt64) (online ready : Int)
  | nodeStop
  | down
  | slept (more : Nat)

def Main.print (s : Main) (line : Bytes) : Main := { s with printed := s.printed ++ [line] }

/-- The line of `on_event`, where it has one. -/
def eventLine (self : Self) (msg : EventMsg) : Option Bytes :=
  match msg.code with
  | .nodeOnline => some (ascii "[ZT] Node ONLINE: " ++ fmtX 10 self.id.toNat ++ ascii " port=" ++
    fmtD self.port ++ ascii "\n")
  | .nodeOffline =>
    some (ascii "[ZT] Node OFFLINE (phy port=" ++ fmtD self.port ++ ascii ")\n")
  | .nodeDown => some (ascii "[ZT] Node DOWN\n")
  | .networkReadyIp4 => some (ascii "[ZT] IPv4 address assigned\n")
  | .peer e => msg.peer.map (fun p => ascii "[ZT] PEER " ++ ascii e.name ++ ascii " peer=" ++
      fmtX 10 p.peerId.toNat ++ ascii " role=" ++ fmtD p.role ++ ascii " lat=" ++
      fmtD p.latency ++ ascii "\n")
  | _ => none

def Main.onEvent (s : Main) (self : Self) : Option EventMsg → Main
  | none => s
  | some msg => { s with
    nodeDown := s.nodeDown || msg.isDown
    printed := s.printed ++ (eventLine self msg).toList }

/-- An iteration of a waiting loop begins. -/
def Main.begin (s : Main) (l : Loop) (pc : Pc) : Main :=
  { s with pc := pc, begun := s.begun ++ [(l, s.shutdownRequested)] }

def banner : Bytes :=
  ascii "PC Diagnostic Node (stock libzt)\n--------------------------------\n"

def rule : Bytes := ascii "================================\n"

def Main.readNetworkId (s : Main) (a : Args) (file : Option Bytes) : Main :=
  match readNetworkIdPc file with
  | none =>
    -- this one goes to stderr
    { s.print (ascii "config/network_id.txt missing or empty (run from pc-diag/)\n") with
      pc := .returned 1 }
  | some id => { s with
    pc := .nodeStart
    networkId := id
    printed := s.printed ++ [banner, ascii "Network: " ++ fmtX 16 id.toNat ++ ascii "\n",
      ascii "Instance " ++ fmtD a.nr ++ ascii ": storage=" ++ a.storageDir ++
        ascii " primary_port=" ++ fmtU a.primaryPort.toNat ++ ascii " local_ping_port=" ++
        fmtU a.localPingPort.toNat ++ ascii "\n"] }

def Main.nodeStart (s : Main) (rc : Int) : Main :=
  let s := s.print (ascii "zts_node_start() -> " ++ fmtD rc ++ ascii "\n")
  if rc ≠ ztsErrOk then { s with pc := .returned 1 }
  else { s.print (ascii "Waiting for node to come online...\n") with
    pc := .online
    started := true }

/-- From the address to the ping loop. -/
def Main.socket (s : Main) (a : Args) (ip : Bytes) (nodeId : UInt64) (fd now : Int) : Main :=
  let target := !a.targetIp.isEmpty && fd ≥ 0
  { s with
    pc := .loop
    sock := fd
    haveTarget := target
    start := now
    printed := s.printed ++ [rule, ascii " ZeroTier IP : " ++ ip ++ ascii "\n",
        ascii " Node ID     : " ++ fmtX 10 nodeId.toNat ++ ascii "\n", rule,
        if fd < 0 then ascii "zts_bsd_socket failed: " ++ fmtD fd ++ ascii "\n"
        else ascii "UDP ping socket bound on port " ++ fmtU a.localPingPort.toNat ++
          ascii "\n"] ++
      (if target then [ascii "Will ping " ++ a.targetIp ++ ascii ":" ++
        fmtU a.targetPort.toNat ++ ascii " over the ZeroTier tunnel\n"] else []) ++
      [ascii "Running. Press Ctrl+C to exit cleanly.\n"] }

def Main.receive (s : Main) (incoming : Option (From × Bytes)) : Main :=
  let (rxbuf, handled) := pcReceive s.sock s.rxbuf incoming
  { s with
    pc := .ping
    rxbuf := rxbuf
    printed := if handled.printed = [] then s.printed else s.printed ++ [handled.printed]
    sent := s.sent ++ handled.reply.toList }

def Main.ping (s : Main) (a : Args) (rc : Int) : Main :=
  if s.haveTarget && s.elapsed - s.lastPing ≥ 2000 then
    let msg := pingDatagram s.pingSeq
    { s with
      pc := .report
      lastPing := s.elapsed
      pingSeq := s.pingSeq + 1
      sent := s.sent ++ [msg]
      printed := s.printed ++ [ascii "[TX] to=" ++ a.targetIp ++ ascii ":9994 msg=\"" ++ msg ++
        ascii "\" rc=" ++ fmtD rc ++ ascii "\n"] }
  else { s with pc := .report }

def Main.report (s : Main) (nodeId : UInt64) (online ready : Int) : Main :=
  if s.elapsed - s.lastReport ≥ 5000 then
    { s with
      pc := .loopSleep
      lastReport := s.elapsed
      printed := s.printed ++ [ascii "[HB] t=" ++ fmtD (s.elapsed.tdiv 1000) ++ ascii "s id=" ++
        fmtX 10 nodeId.toNat ++ ascii " online=" ++ fmtD online ++ ascii " ready=" ++
        fmtD ready ++ ascii "\n"] }
  else { s with pc := .loopSleep }

/-- The guard behind `zts_node_stop`. -/
def Main.down (s : Main) : Main :=
  if !s.nodeDown && s.waitedMs < 3000 then { s with pc := .downSleep }
  else { s.print (ascii "Done.\n") with pc := .returned 0, sawDown := s.nodeDown }

def Main.step (a : Args) (s : Main) : Event → Option Main
  | .sigint => some { s with shutdownRequested := true }
  | .node self msg => some (s.onEvent self msg)
  | .networkId file =>
    match s.pc with
    | .readNetworkId => some (s.readNetworkId a file)
    | _ => none
  | .nodeStart rc =>
    match s.pc with
    | .nodeStart => some (s.nodeStart rc)
    | _ => none
  | .isOnline yes =>
    match s.pc with
    | .online => some (if yes then { s with pc := .netJoin } else s.begin .online .onlineSleep)
    | _ => none
  | .netJoin rc =>
    match s.pc with
    | .netJoin =>
      some { s.print (ascii "zts_net_join -> " ++ fmtD rc ++ ascii "\n") with pc := .addr }
    | _ => none
  | .addrIsAssigned rc =>
    match s.pc with
    | .addr => some (if rc = 0 then s.begin .addr .addrSleep else { s with pc := .socket })
    | _ => none
  | .socket ip nodeId fd now =>
    match s.pc with
    | .socket => some (s.socket a ip nodeId fd now)
    | _ => none
  | .turn now =>
    match s.pc with
    | .loop =>
      if s.shutdownRequested then
        -- it closes the socket, if it has one, before it stops the node
        some { s.print (ascii "\nShutting down...\n") with pc := .nodeStop }
      else some { s.begin .ping .receive with elapsed := now - s.start }
    | _ => none
  | .receive incoming =>
    match s.pc with
    | .receive => some (s.receive incoming)
    | _ => none
  | .ping rc =>
    match s.pc with
    | .ping => some (s.ping a rc)
    | _ => none
  | .report nodeId online ready =>
    match s.pc with
    | .report => some (s.report nodeId online ready)
    | _ => none
  | .nodeStop =>
    match s.pc with
    | .nodeStop => some { s with pc := .down, stopped := true }
    | _ => none
  | .down =>
    match s.pc with
    | .down => some s.down
    | _ => none
  | .slept more =>
    match s.pc with
    | .onlineSleep => some { s with pc := .online }
    | .addrSleep => some { s with pc := .addr }
    | .loopSleep => some { s with pc := .loop }
    | .downSleep =>
      some { s with pc := .down, waitedMs := s.waitedMs + 50, rested := s.rested + (50 + more) }
    | _ => none

end SwitchLdnZt.PcDiag
