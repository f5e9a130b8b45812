import Mathlib.Logic.Function.Basic

namespace SwitchLdnZt.Patched

section
variable (Ss ZtsSs : Type)

/-- `ZT_PeerPhysicalPath`: what the copy reads of it, as the assignments convert it. -/
structure PhysicalPath where
  address : Ss
  lastSend : Int
  lastReceive : Int
  trustedPathId : Int
  latencyMean : Int
  expired : Int
  preferred : Int

/-- `ZT_Peer` with room for `N` paths. -/
structure Peer (N : Nat) where
  address : UInt64
  versionMajor : Int
  versionMinor : Int
  versionRev : Int
  latency : Int
  role : Int
  pathCount : UInt32
  paths : Fin N → PhysicalPath Ss

/-- `zts_path_t`; its `ifname` stays null. -/
structure ZtsPath where
  address : ZtsSs
  lastTx : Int
  lastRx : Int
  trustedPathId : Int
  latency : Int
  expired : Int
  preferred : Int

/-- `zts_peer_info_t`, whose `paths` has room for `M`, that is
`ZTS_MAX_PEER_NETWORK_PATHS`, of them. -/
structure PeerInfo (M : Nat) where
  peerId : UInt64
  verMajor : Int
  verMinor : Int
  verRev : Int
  latency : Int
  role : Int
  pathCount : UInt32
  unused0 : Int
  paths : Fin M → ZtsPath ZtsSs

end

variable {Ss ZtsSs : Type} {N M : Nat}

/-- The copy under way: the info, and the indices at which `peer->paths` was read
and `pr->paths` was written. -/
structure Copy (ZtsSs : Type) (M : Nat) where
  info : PeerInfo ZtsSs M
  reads : List Nat
  writes : List Nat

def ztsPath (nativeSsToZtsSs : Ss → ZtsSs) (p : PhysicalPath Ss) : ZtsPath ZtsSs where
  address := nativeSsToZtsSs p.address
  lastTx := p.lastSend
  lastRx := p.lastReceive
  trustedPathId := p.trustedPathId
  latency := p.latencyMean
  expired := p.expired
  preferred := p.preferred

/-- `peer->paths[j]`, which is whatever lies behind the array where `j` is no index of it. -/
def Peer.path (peer : Peer Ss N) (behind : Nat → PhysicalPath Ss) (j : Nat) : PhysicalPath Ss :=
  if h : j < N then peer.paths ⟨j, h⟩ else behind j

/-- `pr->paths[j] = ...`; a write outside the array changes something else. -/
def PeerInfo.setPath (pr : PeerInfo ZtsSs M) (j : Nat) (p : ZtsPath ZtsSs) : PeerInfo ZtsSs M :=
  if h : j < M then { pr with paths := Function.update pr.paths ⟨j, h⟩ p } else pr

def Copy.path (c : Copy ZtsSs M) (j : Nat) (p : ZtsPath ZtsSs) : Copy ZtsSs M :=
  ⟨c.info.setPath j p, c.reads ++ [j], c.writes ++ [j]⟩

section
variable (nativeSsToZtsSs : Ss → ZtsSs) (zero : ZtsPath ZtsSs) (behind : Nat → PhysicalPath Ss)

/-- `for (unsigned int j = 0; j < limit; j++)` -/
def copyPaths (peer : Peer Ss N) (c : Copy ZtsSs M) : Nat → Copy ZtsSs M
  | 0 => c
  | limit + 1 =>
    (copyPaths peer c limit).path limit (ztsPath nativeSsToZtsSs (peer.path behind limit))

def pathLimit (M : Nat) (pathCount : UInt32) : Nat :=
  if pathCount.toNat < M then pathCount.toNat else M

/-- The replacement copy of a peer event into `new zts_peer_info_t()`. -/
def copyPeer (M : Nat) (peer : Peer Ss N) : Copy ZtsSs M :=
  let pr : PeerInfo ZtsSs M :=
    { peerId := peer.address
      verMajor := peer.versionMajor
      verMinor := peer.versionMinor
      verRev := peer.versionRev
      latency := peer.latency
      role := peer.role
      pathCount := peer.pathCount
      unused0 := 0
      paths := fun _ => zero }
  copyPaths nativeSsToZtsSs behind peer ⟨pr, [], []⟩ (pathLimit M peer.pathCount)

end

/-- How many entries from the front on were filled from the peer's entry of the same index. -/
def Copy.filled (N : Nat) (c : Copy ZtsSs M) : Nat :=
  ((List.range M).takeWhile (fun j => decide (j ∈ c.reads ∧ j ∈ c.writes ∧ j < N))).length

end SwitchLdnZt.Patched
