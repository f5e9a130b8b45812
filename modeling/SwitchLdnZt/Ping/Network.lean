import SwitchLdnZt.Library.Run
import SwitchLdnZt.Ping.Responder

namespace SwitchLdnZt.Ping
open Library

/-- The two branches of one turn of pc-diag's main loop. -/
inductive Turn
  | receive
  | ping
  deriving DecidableEq, Repr

/-- pc-diag: its socket, the peer given on the command line, and the locals that
live across the turns of its loop. -/
structure PcDiag where
  sock : Int
  targetIp : Option Nat
  rxbuf : Buffer 256
  lastPing : Int
  pingSeq : UInt32
  turn : Turn

/-- `have_target` -/
def PcDiag.target (p : PcDiag) : Option Nat := if p.sock ≥ 0 then p.targetIp else none

/-- The Switch app keeps only its socket between two polls. -/
inductive Node
  | pc (p : PcDiag)
  | switch (gPingSock : Int)

def Node.sock : Node → Int
  | .pc p => p.sock
  | .switch sock => sock

structure Packet where
  src : Nat
  dst : Nat
  payload : Bytes
  deriving DecidableEq

/-- The nodes, the datagrams under way, and the history of the run: the pings
issued, and every datagram sent and received. -/
structure Net where
  nodes : Nat → Node
  flight : List Packet
  pinged : List (Nat × UInt32)
  sent : List Packet
  received : List Packet

def Net.start (nodes : Nat → Node) : Net := ⟨nodes, [], [], [], []⟩

/-- One scheduling choice: a node looks at its socket (`k` is the datagram that
arrives, if one does), a pc-diag reaches its ping branch, or the medium loses or
duplicates a datagram. Delay and reordering are the choice of `k`. -/
inductive NetEvent
  | receive (i : Nat) (k : Option Nat) (stack : Buffer 64)
  | ping (i : Nat) (elapsed : Int)
  | lose (k : Nat)
  | duplicate (k : Nat)

/-- A node's receive branch, and the node it leaves. -/
def Node.receive (n : Node) (stack : Buffer 64) (incoming : Option (From × Bytes)) :
    Node × Handled :=
  match n with
  | .switch sock => (.switch sock, pingResponderPoll sock stack incoming)
  | .pc p =>
    let (rxbuf, handled) := pcReceive p.sock p.rxbuf incoming
    (.pc { p with rxbuf := rxbuf, turn := .ping }, handled)

def Node.mayReceive : Node → Bool
  | .switch _ => true
  | .pc p => p.turn == .receive

def Net.put (s : Net) (i : Nat) (n : Node) : Net :=
  { s with nodes := fun j => if j = i then n else s.nodes j }

def Net.send (s : Net) (ps : List Packet) : Net :=
  { s with flight := s.flight ++ ps, sent := s.sent ++ ps }

section
variable (addr : Nat → From)

def Net.receive (s : Net) (i k : Nat) (p : Packet) (stack : Buffer 64) : Net :=
  let (n, handled) := (s.nodes i).receive stack (some (addr p.src, p.payload))
  let reply := handled.reply.toList.map (Packet.mk i p.src)
  Net.send { s.put i n with
    flight := s.flight.eraseIdx k, received := s.received ++ [p] } reply

def Net.step (s : Net) : NetEvent → Option Net
  | .receive i none stack =>
    if (s.nodes i).mayReceive then some (s.put i ((s.nodes i).receive stack none).1) else none
  | .receive i (some k) stack =>
    match s.flight[k]? with
    | some p =>
      -- nothing arrives at a node that has no socket
      if p.dst = i ∧ 0 ≤ (s.nodes i).sock ∧ (s.nodes i).mayReceive then
        some (s.receive addr i k p stack)
      else none
    | none => none
  | .ping i elapsed =>
    match s.nodes i with
    | .switch _ => none
    | .pc p =>
      if p.turn = .ping then
        match p.target with
        | some dst =>
          if elapsed - p.lastPing ≥ 2000 then
            let p' := { p with lastPing := elapsed, pingSeq := p.pingSeq + 1, turn := .receive }
            some (Net.send { s.put i (.pc p') with pinged := s.pinged ++ [(i, p.pingSeq)] }
              [⟨i, dst, pingDatagram p.pingSeq⟩])
          else some (s.put i (.pc { p with turn := .receive }))
        | none => some (s.put i (.pc { p with turn := .receive }))
      else none
  | .lose k => if k < s.flight.length then some { s with flight := s.flight.eraseIdx k } else none
  | .duplicate k =>
    match s.flight[k]? with
    | some p => some { s with flight := s.flight ++ [p] }
    | none => none

end

def isPing (d : Bytes) : Bool := d.take 4 == ascii "PING"
def isPong (d : Bytes) : Bool := d.take 4 == ascii "PONG"

def pongDatagram (seq : UInt32) : Bytes := ascii "PONG " ++ fmtU seq.toNat

@[simp] theorem put_flight (s : Net) (i : Nat) (n : Node) : (s.put i n).flight = s.flight := rfl
@[simp] theorem put_pinged (s : Net) (i : Nat) (n : Node) : (s.put i n).pinged = s.pinged := rfl
@[simp] theorem put_sent (s : Net) (i : Nat) (n : Node) : (s.put i n).sent = s.sent := rfl
@[simp] theorem put_received (s : Net) (i : Nat) (n : Node) :
    (s.put i n).received = s.received := rfl

end SwitchLdnZt.Ping
