import SwitchLdnZt.Library.CText
import SwitchLdnZt.Library.Run

namespace SwitchLdnZt.App
open Library

/-- `g_peer_ids`, `g_peer_roles` and `g_peer_count` -/
structure Peers where
  ids : Vector UInt64 24
  roles : Vector Int 24
  count : Nat

def Peers.start : Peers := ⟨Vector.replicate 24 0, Vector.replicate 24 0, 0⟩

/-- The loop of `remember_peer` over the `left` entries from `i` on. No result, here as
below, is an index outside an array. -/
def Peers.known (t : Peers) (id : UInt64) : Nat → Nat → Option Bool
  | 0, _ => some false
  | left + 1, i =>
    match t.ids[i]? with
    | none => none
    | some x => if x = id then some true else t.known id left (i + 1)

def Peers.put (t : Peers) (id : UInt64) (role : Int) : Option Peers :=
  if h : t.count < 24 then some ⟨t.ids.set t.count id, t.roles.set t.count role, t.count + 1⟩
  else none

def rememberPeer (id : UInt64) (role : Int) (t : Peers) : Option Peers :=
  if id = 0 then some t
  else
    match t.known id t.count 0 with
    | none => none
    | some true => some t
    | some false => if t.count ≥ t.ids.size then some t else t.put id role

inductive PeerEvent
  | direct
  | relay
  | unreachable
  | pathDiscovered
  | pathDead

inductive EventCode
  | nodeOnline
  | nodeOffline
  | nodeDown
  | networkOk
  | networkAccessDenied
  | networkNotFound
  | networkReadyIp4
  | networkDown
  | peer (e : PeerEvent)
  | other (code : Int)

structure PeerInfo where
  peerId : UInt64
  role : Int
  pathCount : UInt32
  latency : Int

structure EventMsg where
  code : EventCode
  peer : Option PeerInfo

/-- The node's id and port, as they are when an event is handled. -/
structure Self where
  id : UInt64
  port : Int

def PeerEvent.name : PeerEvent → String
  | .pathDead => "PATH_DEAD"
  | .unreachable => "UNREACHABLE"
  | .direct => "DIRECT"
  | .relay => "RELAY"
  | .pathDiscovered => "PATH_DISCOVERED"

def eventLine (self : Self) (msg : EventMsg) : Bytes :=
  match msg.code with
  | .nodeOnline => ascii "[ZT] Node ONLINE: " ++ fmtX 0 self.id.toNat ++ ascii " port=" ++
    fmtD self.port ++ ascii "\n"
  | .nodeOffline => ascii "[ZT] Node OFFLINE (phy port=" ++ fmtD self.port ++ ascii ")\n"
  | .nodeDown => ascii "[ZT] Node DOWN (Node destructor ran)\n"
  | .networkOk => ascii "[ZT] Network OK\n"
  | .networkAccessDenied => ascii "[ZT] Network access denied\n"
  | .networkNotFound => ascii "[ZT] Network not found\n"
  | .networkReadyIp4 => ascii "[ZT] IPv4 address assigned\n"
  | .networkDown => ascii "[ZT] Network transport down\n"
  | .peer e =>
    match msg.peer with
    | some p => ascii "[ZT] PEER " ++ ascii e.name ++ ascii " peer=" ++ fmtX 10 p.peerId.toNat ++
      ascii " role=" ++ fmtD p.role ++ ascii " paths=" ++ fmtU p.pathCount.toNat ++
      ascii " lat=" ++ fmtD p.latency ++ ascii " (port=" ++ fmtD self.port ++ ascii ")\n"
    | none => ascii "[ZT] PEER " ++ ascii e.name ++ ascii " (no peer info)\n"
  | .other code => ascii "[ZT] event " ++ fmtD code ++ ascii "\n"

/-- What `print_event` leaves behind; each line it prints goes to the log too. -/
structure Events where
  peers : Peers
  nodeDown : Bool
  printed : List Bytes

/-- The peer that an event brings. -/
def EventMsg.carried (msg : EventMsg) : Option PeerInfo :=
  match msg.code with
  | .peer _ => msg.peer
  | _ => none

def EventMsg.isDown (msg : EventMsg) : Bool :=
  match msg.code with
  | .nodeDown => true
  | _ => false

def printEvent (self : Self) (msg : Option EventMsg) (s : Events) : Option Events :=
  match msg with
  | none => some s
  | some msg =>
    let line := cString (snprintf 192 (eventLine self msg)).stored
    let peers := match msg.carried with
      | some p => rememberPeer p.peerId p.role s.peers
      | none => some s.peers
    peers.map (fun peers =>
      ⟨peers, s.nodeDown || msg.isDown, if line = [] then s.printed else s.printed ++ [line]⟩)

/-- The heartbeat's lines on the paths: `next` is the index of the loop while it runs. -/
structure Heart where
  events : Events
  next : Option Nat
  paths : List Bytes

def Heart.start : Heart := ⟨⟨.start, false, []⟩, none, []⟩

/-- An event on the node's thread, or a turn of the heartbeat with what the core says
of the peer's paths. -/
inductive Beat
  | event (self : Self) (msg : Option EventMsg)
  | turn (pathCount : Int) (path : Option Bytes)

def pathLine (id : UInt64) (role pathCount : Int) (path : Option Bytes) : Bytes :=
  let p0 := if pathCount > 0 then cString (path.getD []) else []
  ascii "[PATH] peer=" ++ fmtX 10 id.toNat ++ ascii " role=" ++ fmtD role ++ ascii " paths=" ++
    fmtD pathCount ++ ascii " p0=" ++ (if p0 = [] then ascii "-" else p0) ++ ascii "\n"

def Heart.step (s : Heart) : Beat → Option Heart
  | .event self msg => (printEvent self msg s.events).map (fun e => { s with events := e })
  | .turn pathCount path =>
    match s.next with
    | none => some { s with next := some 0 }
    | some i =>
      let t := s.events.peers
      if i < t.count then
        match t.ids[i]?, t.roles[i]? with
        | some id, some role =>
          some { s with
            next := some (i + 1)
            paths := s.paths ++ [pathLine id role pathCount path] }
        | _, _ => none
      else some { s with next := none }

end SwitchLdnZt.App
