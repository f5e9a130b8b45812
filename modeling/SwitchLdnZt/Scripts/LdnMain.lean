import SwitchLdnZt.Scripts.LdnPatch
import SwitchLdnZt.Scripts.Tree

namespace SwitchLdnZt.Scripts
open Library

/-- Write a content that need not be a text. -/
def Tree.put (p : Path) (c : Option Text) : Tree → Tree
  | [] => [(p, c)]
  | f :: fs => if f.1 == p then (p, c) :: fs else f :: Tree.put p c fs

namespace LdnPatch

def ldn : Path := ["ldn_mitm", "ldn_mitm"]
def src : Path := ldn ++ ["source"]
def ztInc : Path := ["third_party", "libzt", "include"]
def ztLib : Path := ["third_party", "libzt", "lib"]
def stubsOnly : Bool := false
def expectedLdn : String := "2fe07817eeea06b712009395f8bbcb2a02d30979"
def expectedLibzt : String := "76c138bb916bc3a20d356bd4ef8e2195212ddb1e"

def mainCpp : Path := src ++ ["ldnmitm_main.cpp"]
def lanProtocolCpp : Path := src ++ ["lan_protocol.cpp"]
def lanDiscoveryCpp : Path := src ++ ["lan_discovery.cpp"]
def ldnICommunicationCpp : Path := src ++ ["ldn_icommunication.cpp"]
def ztStubs : Path := src ++ ["zt_stubs.cpp"]
def makefile : Path := ldn ++ ["Makefile"]

/-- A stop of `main` itself or of a file operation, or of one of the helpers. -/
inductive MainStop
  | stop (s : Stop)
  | patch (p : PatchStop)
  | gitFailed

/-- What `main` reads besides the tree: what git prints for the two checkouts,
if it succeeds, and where `third_party/libzt` resolves to. -/
structure Host where
  ldnHead : Option String
  libztHead : Option String
  libztDir : Text

def mainExit {α : Type} (message : String) : Except MainStop α :=
  .error (.stop (.systemExit message))

def checkHead (repo expected : String) : Option String → Except MainStop Unit
  | none => .error .gitFailed
  | some actual =>
    if actual ≠ expected then
      mainExit ("wrong " ++ repo ++ " commit: " ++ actual ++ " != " ++ expected)
    else .ok ()

/-- What `main` checks before it touches the tree. -/
def checks (host : Host) (t : Tree) : Except MainStop Unit := do
  if stubsOnly then mainExit "STUBS_ONLY must be false for the real-libzt build"
  checkHead "ldn_mitm" expectedLdn host.ldnHead
  checkHead "libzt" expectedLibzt host.libztHead
  if (t.raw (ztInc ++ ["ZeroTierSockets.h"])).isNone then mainExit "libzt headers missing"
  if (t.raw (ztLib ++ ["libzt.a"])).isNone then mainExit "libzt.a missing"

/-- One step of `main` behind its checks. -/
inductive Step
  /-- `shutil.copy2(ROOT / "scripts" / name, SRC / name)` -/
  | copy (name : String)
  | unlinkStubs
  /-- A helper's call, or the rewriting of the Makefile: read, compute, write back. -/
  | edit (p : Path) (f : Text → Patched)
  | checkStubs
  | checkMakefile (needle : Text) (message : String)

/-- The one file that a step may change. -/
def Step.target : Step → Path
  | .copy name => src ++ [name]
  | .unlinkStubs | .checkStubs => ztStubs
  | .edit p _ => p
  | .checkMakefile .. => makefile

def Step.act (t : Tree) : Step → Except MainStop Tree
  | .copy name =>
    match t.raw ["scripts", name] with
    | none => .error (.stop .noSuchFile)
    | some c =>
      -- A directory is there where a file lies in it.
      if t.any (fun f => src.isPrefixOf f.1) then .ok (t.put (src ++ [name]) c)
      else .error (.stop .noSuchFile)
  | .unlinkStubs => .ok (t.filter (fun f => f.1 != ztStubs))
  | .edit p f =>
    match t.readText p with
    | .error e => .error (.stop e)
    | .ok s =>
      match f s with
      | .error e => .error (.patch e)
      | .ok s' => .ok (t.writeText p s')
  | .checkStubs =>
    if (t.raw ztStubs).isSome then mainExit "zt_stubs.cpp must not be present in real-libzt mode"
    else .ok t
  | .checkMakefile needle message =>
    match t.readText makefile with
    | .error e => .error (.stop e)
    | .ok s => if occurs needle s then .ok t else mainExit message

def replaceSteps (p : Path) (file : String) (steps : List (Text × Text)) : List Step :=
  steps.map (fun step => .edit p (replace file step.1 step.2))

def lanDiscoverySteps : List Step :=
  [.edit lanDiscoveryCpp (replace "lan_discovery.cpp" bridgeInclude.1 bridgeInclude.2),
    .edit lanDiscoveryCpp (replace "lan_discovery.cpp" acceptBlock.1 acceptBlock.2),
    .edit lanDiscoveryCpp (replaceAtLeast "lan_discovery.cpp" 2 closeNewFd.1 closeNewFd.2),
    .edit lanDiscoveryCpp (replaceFunction "lan_discovery.cpp" getBroadcast getBroadcastBody),
    .edit lanDiscoveryCpp (replaceFunction "lan_discovery.cpp" setSocketOpts setSocketOptsBody),
    .edit lanDiscoveryCpp (replace "lan_discovery.cpp" socketStream.1 socketStream.2),
    .edit lanDiscoveryCpp (replaceAtLeast "lan_discovery.cpp" 2 bindFd.1 bindFd.2)] ++
  replaceSteps lanDiscoveryCpp "lan_discovery.cpp" lateSteps

def ldnICommunicationSteps : List Step :=
  [.edit ldnICommunicationCpp (replace "ldn_icommunication.cpp" inetInclude.1 inetInclude.2),
    .edit ldnICommunicationCpp (replace "ldn_icommunication.cpp" initTry.1 initTry.2),
    .edit ldnICommunicationCpp
      (replaceFunction "ldn_icommunication.cpp" getIpv4Address getIpv4AddressBody)]

def versionFlags : Text := text "CXXFLAGS\t+= $(VERSION_DEFINES)\n"

def makefileStep (libztDir : Text) : Step :=
  .edit makefile fun s => .ok (replaceAll versionFlags
    (versionFlags ++ text "LIBDIRS += " ++ libztDir ++ text "\nLIBS += -lzt -lnx\n") s)

def stepsOfMain (host : Host) : List Step :=
  [.copy "zt_bridge.hpp", .copy "zt_bridge.cpp", .copy "errno_compat.c", .unlinkStubs] ++
  replaceSteps mainCpp "ldnmitm_main.cpp" mainSteps ++
  replaceSteps lanProtocolCpp "lan_protocol.cpp" lanProtocolSteps ++
  lanDiscoverySteps ++ ldnICommunicationSteps ++
  [makefileStep host.libztDir, .checkStubs,
    .checkMakefile (text "-lzt") "-lzt missing from LDN Makefile in real-libzt mode",
    .checkMakefile (text "third_party/libzt") "third_party/libzt missing from LDN Makefile"]

/-- Each step changes the tree at once, so a stop leaves what was done before it. -/
def runSteps : List Step → Tree → Tree × Option MainStop
  | [], t => (t, none)
  | step :: steps, t =>
    match step.act t with
    | .error e => (t, some e)
    | .ok t' => runSteps steps t'

/-- patch-ldn-zt.py's `main`: the tree it leaves, and how it stopped, if it did. -/
def main (host : Host) (t : Tree) : Tree × Option MainStop :=
  match checks host t with
  | .error e => (t, some e)
  | .ok () => runSteps (stepsOfMain host) t

end LdnPatch

end SwitchLdnZt.Scripts
