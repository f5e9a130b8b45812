import SwitchLdnZt.App.Flood
import SwitchLdnZt.App.MainLoop
import SwitchLdnZt.Config.NetworkId

namespace SwitchLdnZt.App
open Library Config

inductive Resource
  | console
  | sdmc
  | socket
deriving DecidableEq

inductive Act
  | acquired (r : Resource)
  | released (r : Resource)
deriving DecidableEq

def Act.resource : Act → Resource
  | .acquired r | .released r => r

/-- A libnx `Result`; 0 is success. -/
abbrev Result := UInt32

/-- What the calls of `main` return, in the order of the calls. `console` is whether
`consoleInit` gave one, `flag` the mode `stat` found, `file` the network id file. -/
structure World (K : Type) [Field K] [LinearOrder K] where
  console : Bool
  mountRc : Result
  socketRc : Result
  flag : Option UInt32
  floodSocket : Int
  floodBind : Int
  floodErrno : Int
  flood : List (Pass K)
  file : Option Bytes
  pipeRc : Int
  storageRc : Int
  startRc : Int
  passes : List LoopPass

/-- `S_ISREG(mode)` -/
def isReg (mode : UInt32) : Bool := mode &&& 0xF000 == 0x8000

def ztsErrGeneral : Int := -5

/-- `init_zerotier_with_diagnostics`: without a pipe the storage is not touched. -/
def initZerotier (pipeRc storageRc : Int) : Int :=
  if pipeRc = 0 then storageRc else ztsErrGeneral

/-- How `main` ends: what it did on the way, what it returns (none where it calls
`svcExitProcess`), and what it said of the way it took. -/
structure Ended where
  acts : List Act
  code : Option Int
  said : Bytes
  flood : Option Flood
  loop : Option MainLoop

def acquire (r : Resource) (ok : Bool) (acts : List Act) : List Act :=
  if ok then acts ++ [.acquired r] else acts

def release (r : Resource) (acts : List Act) : List Act := acts ++ [.released r]

def MainLoop.closePing (s : MainLoop) : MainLoop :=
  if s.pingSock ≥ 0 then { s with pingSock := -1 } else s

def noService : Bytes :=
  ascii "Failed to bring up the network service. Cannot continue.\nPress + to exit.\n"

def missingNetworkId : Bytes :=
  ascii "Missing network ID.\n\nCreate this file:\n/config/zerotier-switch/network_id.txt\n\n" ++
    ascii "Put your 16-digit ZeroTier network ID inside it.\nExample: 8056c2e21c000001\n\n" ++
    ascii "Press + to exit.\n"

variable {K : Type} [Field K] [LinearOrder K]

def main (w : World K) : Ended :=
  let acts := acquire .sdmc (w.mountRc == 0) (acquire .console w.console [])
  if w.socketRc ≠ 0 then
    ⟨release .console (release .sdmc acts), some 1, noService, none, none⟩
  else
    let acts := acquire .socket true acts
    if w.flag.any isReg then
      let flood := probeUdpFlood w.floodSocket w.floodBind w.floodErrno w.flood
      ⟨release .console (release .sdmc (release .socket acts)), some 0,
        ascii "\n*** FLOOD RECEIVE TEST MODE ***\n\n", flood, none⟩
    else
      match readNetworkIdSwitch w.file with
      | none => ⟨release .console (release .sdmc acts), some 0, missingNetworkId, none, none⟩
      | some _ =>
        if initZerotier w.pipeRc w.storageRc ≠ ztsErrOk then
          ⟨release .console (release .sdmc (release .socket acts)), some 1,
            ascii "Initialization failed.\nPress + to exit.\n", none, none⟩
        else
          -- A node that does not start is reported, and the loop entered all the same.
          let said := if w.startRc ≠ ztsErrOk then ascii "Node start failed.\n" else []
          ⟨release .console (release .socket acts), none, said, none,
            some (mainLoop w.passes).closePing⟩

end SwitchLdnZt.App
