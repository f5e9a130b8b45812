import SwitchLdnZt.App.MainLoop
import SwitchLdnZt.App.Peers
import SwitchLdnZt.Compat.Wrappers

namespace SwitchLdnZt.App
open Library Ping Compat

/-- An entry of the peer table with what `zts_core_query_path_count` and
`zts_core_query_path` say of it. -/
structure PeerPath where
  id : UInt64
  role : Int
  pathCount : Int
  path : Option Bytes

def PeerPath.line (e : PeerPath) : Bytes := pathLine e.id e.role e.pathCount e.path

/-- What the calls of the status block return. `addr` is `char ip[64]` as
`zts_addr_get_str` leaves it, a terminated string; `counts` is what `zt_net_stats` reads;
`stat` is what the state files' sizes are. -/
structure Sample where
  haveIp : Int
  addrRc : Int
  addr : Buffer 64
  terminated : 0 ∈ addr.val
  bannerNode : UInt64
  bannerNetwork : UInt64
  mtu : Int
  node : UInt64
  counts : Stats
  paths : List PeerPath
  stat : Bytes → Option Int

/-- `loop.out` has a text for each call of `printf`. `updates` counts the `consoleUpdate`s
of every tenth pass. -/
structure Status where
  loop : MainLoop
  lastIp : Bytes
  log : List Line
  updates : Nat

def Status.start : Status := ⟨.start, [], [], 0⟩

def Status.print (s : Status) (lines : List Bytes) : Status :=
  { s with loop := { s.loop with out := s.loop.out ++ lines } }

/-- `ip`, by `strcmp` and `%s`. -/
def Sample.ip (c : Sample) : Bytes :=
  if c.addrRc = ztsErrOk then cString c.addr.val else cString (snprintf 64 (ascii "none")).stored

def frame : Bytes := ascii "  ================================\n"

def bannerLines (c : Sample) : List Bytes :=
  [ascii "\n" ++ frame,
    ascii "   ZeroTier IP : " ++ c.ip ++ ascii "\n",
    ascii "   Node ID     : " ++ fmtX 10 c.bannerNode.toNat ++ ascii "\n",
    ascii "   Network     : " ++ fmtX 16 c.bannerNetwork.toNat ++ ascii "\n",
    ascii "   MTU         : " ++ fmtD c.mtu ++ ascii "\n",
    frame ++ ascii "\n"]

def Status.banner (s : Status) (c : Sample) : Status :=
  if c.haveIp ≠ 0 ∧ c.ip ≠ s.lastIp then
    { s.print (bannerLines c) with lastIp := cString (snprintf 64 c.ip).stored }
  else s

def beatLines (waited : Int) (p : LoopPass) (c : Sample) : List Bytes :=
  [ascii "[IP] assigned=" ++ fmtD c.haveIp ++ ascii " addr=" ++ c.ip ++ ascii "\n",
    ascii "[HB] t=" ++ fmtD (waited.tdiv 100) ++ ascii "s id=" ++ fmtX 16 c.node.toNat ++
      ascii " " ++ cString (ztNetStats 256 c.counts).stored ++ ascii " " ++
      (if p.online then ascii "ONLINE" else ascii "offline") ++ ascii "/" ++
      (if p.ready then ascii "READY" else ascii "not-ready") ++ ascii "\n"]

def Status.beat (s : Status) (p : LoopPass) (c : Sample) : Status :=
  let s := s.banner c
  s.print (beatLines s.loop.waited p c ++ c.paths.map PeerPath.line)

/-- A whole pass of the main loop. -/
def Status.pass (s : Status) (p : LoopPass) (c : Sample) : Status :=
  let s := { s with loop := s.loop.pass p }
  let s := if s.loop.waited.tmod 500 = 0 then s.beat p c else s
  let s := if s.loop.waited.tmod 3000 = 0 then { s with log := s.log ++ reportLines c.stat } else s
  if s.loop.waited.tmod 10 = 0 then { s with updates := s.updates + 1 } else s

end SwitchLdnZt.App
