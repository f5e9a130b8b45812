import Mathlib.Logic.Function.Basic
import SwitchLdnZt.Library.Run
import SwitchLdnZt.Library.CText

namespace SwitchLdnZt.Compat
open Library

/-- Every address here is on the loopback interface, so the port is the name. -/
abbrev Port := Nat

/-- `own` is bookkeeping: the datagram was written to `fds[1]`. -/
structure Datagram where
  src : Port
  payload : Bytes
  own : Bool

structure Sock where
  bound : Option Port
  peer : Option Port
  queue : List Datagram

def Sock.fresh : Sock := ⟨none, none, []⟩

/-- A datagram reaches the socket bound to its destination; a connected socket
takes it from its peer only, from the moment of the connect. -/
def Sock.accepts (s : Sock) (src dst : Port) : Bool :=
  s.bound == some dst && (s.peer == none || s.peer == some src)

def Sock.offer (s : Sock) (dst : Port) (d : Datagram) : Sock :=
  if s.accepts d.src dst then { s with queue := s.queue ++ [d] } else s

abbrev Socks := Int → Option Sock

def Socks.send (t : Socks) (dst : Port) (d : Datagram) : Socks :=
  fun fd => (t fd).map (fun s => s.offer dst d)

/-- The call of `pipe` that comes next, with the locals it needs. -/
inductive PipePc
  | socketA
  | socketB (a : Int)
  | bindA (a b : Int)
  | bindB (a b : Int)
  | nameA (a b : Int)
  | nameB (a b : Int) (aa : Port)
  | connectA (a b : Int) (aa bb : Port)
  | connectB (a b : Int) (aa bb : Port)
  | returned (rc : Int)

structure PipeWorld where
  socks : Socks
  pc : PipePc
  fds : Option (Int × Int)
  errno : Int
  sent : Bytes
  got : Bytes
  zeroRead : Bool

/-- Entering `pipe(fds)`; `fds` is `none` for a null pointer. -/
def pipeEntry (socks : Socks) (fds : Option (Int × Int)) (errno : Int) : PipeWorld :=
  match fds with
  | none => ⟨socks, .returned (-1), none, 22, [], [], false⟩
  | some _ => ⟨socks, .socketA, some (-1, -1), errno, [], [], false⟩

def PipeWorld.set (w : PipeWorld) (fd : Int) (s : Option Sock) (pc : PipePc) : PipeWorld :=
  { w with socks := Function.update w.socks fd s, pc := pc }

/-- `close(a); close(b); return -1;` -/
def PipeWorld.fail (w : PipeWorld) (a b : Int) : PipeWorld :=
  (w.set a none w.pc).set b none (.returned (-1))

def PipeWorld.bind (w : PipeWorld) (fd : Int) (p : Port) (pc : PipePc) : PipeWorld :=
  w.set fd ((w.socks fd).map (fun s => { s with bound := some p })) pc

def PipeWorld.connect (w : PipeWorld) (fd : Int) (p : Port) (pc : PipePc) : PipeWorld :=
  w.set fd ((w.socks fd).map (fun s => { s with peer := some p })) pc

/-- `getsockname`: the port of a bound socket. -/
def PipeWorld.name (w : PipeWorld) (fd : Int) : Option Port :=
  (w.socks fd).bind Sock.bound

/-- The descriptors `pipe` has opened so far, or has returned. -/
def PipeWorld.ends (w : PipeWorld) : List Int :=
  match w.pc with
  | .socketA => []
  | .socketB a => [a]
  | .bindA a b | .bindB a b | .nameA a b | .nameB a b _ | .connectA a b _ _
  | .connectB a b _ _ => [a, b]
  | .returned _ => match w.fds with
    | some (a, b) => [a, b]
    | none => []

/-- Neither end of the pipe is bound to this port. -/
def PipeWorld.free (w : PipeWorld) (p : Port) : Bool :=
  w.ends.all (fun fd => w.name fd != some p)

/-- The next socket call of `pipe` returns `ret`; `port` is what a successful
`bind` to port 0 picked. The kernel never hands out an open descriptor, and it
picks a port that is not taken. -/
def PipeWorld.answer (w : PipeWorld) (ret : Int) (port : Port) : Option PipeWorld :=
  match w.pc with
  | .socketA =>
    if ret < 0 then some { w with pc := .returned (-1) }
    else if (w.socks ret).isNone then some (w.set ret (some .fresh) (.socketB ret))
    else none
  | .socketB a =>
    if ret < 0 then some (w.set a none (.returned (-1)))
    else if (w.socks ret).isNone then some (w.set ret (some .fresh) (.bindA a ret))
    else none
  | .bindA a b =>
    if ret ≠ 0 then some (w.fail a b)
    else if w.free port then some (w.bind a port (.bindB a b))
    else none
  | .bindB a b =>
    if ret ≠ 0 then some (w.fail a b)
    else if w.free port then some (w.bind b port (.nameA a b))
    else none
  | .nameA a b =>
    if ret ≠ 0 then some (w.fail a b)
    else (w.name a).map (fun aa => { w with pc := .nameB a b aa })
  | .nameB a b aa =>
    if ret ≠ 0 then some (w.fail a b)
    else (w.name b).map (fun bb => { w with pc := .connectA a b aa bb })
  | .connectA a b aa bb =>
    if ret ≠ 0 then some (w.fail a b)
    else some (w.connect a bb (.connectB a b aa bb))
  | .connectB a b aa _ =>
    if ret ≠ 0 then some (w.fail a b)
    else some { w.connect b aa (.returned 0) with fds := some (a, b) }
  | .returned _ => none

inductive PipeEvent
  | call (ret : Int) (port : Port)
  | stray (src dst : Port) (payload : Bytes)
  | write (buf : Bytes)
  | read (len : Nat)
  | closeWrite

/-- The descriptors of a pipe that has been handed out. -/
def PipeWorld.opened (w : PipeWorld) : Option (Int × Int) :=
  match w.pc with
  | .returned 0 => w.fds
  | _ => none

/-- `write(fds[1], buf, len)` on a datagram socket: one datagram, or `EMSGSIZE`
and nothing at all. -/
def PipeWorld.write (maxLen : Nat) (w : PipeWorld) (buf : Bytes) : Option PipeWorld := do
  let (_, b) ← w.opened
  let s ← w.socks b
  let src ← s.bound
  let dst ← s.peer
  if buf.length ≤ maxLen then
    some { w with socks := w.socks.send dst ⟨src, buf, true⟩, sent := w.sent ++ buf }
  else some w

/-- `read(fds[0], buf, len)`: one datagram, cut to the buffer, the rest of it
gone. On an empty queue the call blocks, also when the other end is closed. -/
def PipeWorld.read (w : PipeWorld) (len : Nat) : Option PipeWorld := do
  let (a, b) ← w.opened
  let s ← w.socks a
  match s.queue with
  | [] => none
  | d :: queue =>
    let bytes := d.payload.take len
    some { w with
      socks := Function.update w.socks a (some { s with queue := queue })
      got := w.got ++ bytes
      zeroRead := w.zeroRead || (bytes.isEmpty && (w.socks b).isSome) }

def PipeWorld.step (maxLen : Nat) (w : PipeWorld) : PipeEvent → Option PipeWorld
  | .call ret port => w.answer ret port
  | .stray src dst payload =>
    if w.free src then some { w with socks := w.socks.send dst ⟨src, payload, false⟩ } else none
  | .write buf => w.write maxLen buf
  | .read len => w.read len
  | .closeWrite => do
    let (_, b) ← w.opened
    some { w with socks := Function.update w.socks b none }

end SwitchLdnZt.Compat
