import SwitchLdnZt.Scripts.LwipRun

namespace SwitchLdnZt.Scripts.SwitchPhy
open Library

/-- The constructor of `_phy`, with SO_NO_CHECK on and off. -/
def noCheck : Text := text "_phy(this, false, true)"
def checked : Text := text "_phy(this, false, false)"

def stdioGuard : Text := text "#ifdef __SWITCH__\n#include <stdio.h>\n#endif"

/-- What is put behind an include, where the guard is not there yet. -/
def withStdio (anchor : Text) : Text := anchor ++ (stdioGuard ++ text "\n")

def rxMarker : Text := text "[SWITCH-PHY] NodeService RX"

def phyOnDatagram : Text := text "void NodeService::phyOnDatagram(\n"

/-- `trace`, behind its opening brace. -/
def rxTrace : Text := lines ["",
  "#ifdef __SWITCH__",
  "    static unsigned int switch_phy_rx_trace = 0;",
  "    const unsigned int trace_n = __sync_fetch_and_add(&switch_phy_rx_trace, 1);",
  "    if (trace_n < 20 || (trace_n % 100) == 0) \x7b",
  "        const struct sockaddr_in* la = (localAddr && localAddr->sa_family == AF_INET)",
  "            ? reinterpret_cast<const struct sockaddr_in*>(localAddr) : NULL;",
  "        const struct sockaddr_in* ra = (from && from->sa_family == AF_INET)",
  "            ? reinterpret_cast<const struct sockaddr_in*>(from) : NULL;",
  "        fprintf(stderr,",
  "                \"[SWITCH-PHY] NodeService RX #%u len=%lu local=%u remote=%u\\n\",",
  "                trace_n + 1,",
  "                len,",
  "                la ? (unsigned)ntohs(la->sin_port) : 0u,",
  "                ra ? (unsigned)ntohs(ra->sin_port) : 0u);",
  "    \x7d",
  "#endif",
  ""]

def constructor (p : Path) (s : Text) : Result Text :=
  if occurs noCheck s then
    if occurrences noCheck s ≠ 1 then
      exit (s!"ERROR: expected one {String.ofList noCheck} in {shown p}, found " ++
        s!"{occurrences noCheck s}")
    else .ok (replaceFirst noCheck checked s)
  else .ok s

def stdlibInclude : Text := text "#include <stdlib.h>\n"

def includeStdio (s : Text) : Text :=
  if occurs stdlibInclude s && !occurs stdioGuard s then
    replaceFirst stdlibInclude (withStdio stdlibInclude) s
  else s

/-- The trace goes behind the first brace from the function's name on. -/
def traceRx (p : Path) (s : Text) : Result Text :=
  if occurs rxMarker s then .ok s
  else
    match cut phyOnDatagram (includeStdio s) with
    | none => exit s!"ERROR: phyOnDatagram() not found in {shown p}"
    | some (a, b) =>
      match cut ['\x7b'] (phyOnDatagram ++ b) with
      | none => exit s!"ERROR: phyOnDatagram() body not found in {shown p}"
      | some (u, v) => .ok (a ++ u ++ ('\x7b' :: rxTrace) ++ v)

def nodeService (p : Path) (s : Text) : Result (Option Text) := do
  let s ← constructor p s
  let s ← traceRx p s
  return some s

def recvMarker : Text := text "[SWITCH-PHY] UDP recv"

def stringInclude : Text := text "#include <string.h>\n"

/-- `target` -/
def recvStatement : Text := text
  "long n = (long)::recvfrom(s->sock, buf, sizeof(buf), 0, (struct sockaddr*)&ss, &slen);\n"

def recvTrace : Text := lines [
  "#ifdef __SWITCH__",
  "\t\t\t\t\t\t\tstatic unsigned int switch_phy_recv_trace = 0;",
  "\t\t\t\t\t\t\tconst unsigned int recv_trace_n = " ++
    "__sync_fetch_and_add(&switch_phy_recv_trace, 1);",
  "\t\t\t\t\t\t\tif (recv_trace_n < 20 || (n < 0 && recv_trace_n < 40)) \x7b",
  "\t\t\t\t\t\t\t\tfprintf(stderr, \"[SWITCH-PHY] UDP recv fd=%d n=%ld errno=%d\\n\",",
  "\t\t\t\t\t\t\t\t        (int)s->sock, n, (n < 0) ? errno : 0);",
  "\t\t\t\t\t\t\t\x7d",
  "#endif",
  ""]

/-- `udp_marker` -/
def udpCase : Text := text
  "case ZT_PHY_SOCKET_UDP:\n\t\t\t\t\tif (FD_ISSET(s->sock, &rfds)) \x7b\n"

def udpTrace : Text := lines [
  "#ifdef __SWITCH__",
  "\t\t\t\t\t\tstatic unsigned int switch_phy_ready_trace = 0;",
  "\t\t\t\t\t\tconst unsigned int ready_trace_n = " ++
    "__sync_fetch_and_add(&switch_phy_ready_trace, 1);",
  "\t\t\t\t\t\tif (ready_trace_n < 20) \x7b",
  "\t\t\t\t\t\t\tfprintf(stderr, \"[SWITCH-PHY] UDP select-readable fd=%d\\n\", (int)s->sock);",
  "\t\t\t\t\t\t\x7d",
  "#endif",
  ""]

/-- `s.replace(anchor, anchor + addition, 1)`, where the anchor has to be there. -/
def behind (anchor addition : Text) (message : String) (s : Text) : Result Text :=
  if occurs anchor s then .ok (replaceFirst anchor (anchor ++ addition) s) else exit message

def guardStdio (p : Path) (s : Text) : Result Text :=
  if occurs stdioGuard s then .ok s
  else behind stringInclude (stdioGuard ++ text "\n")
    s!"ERROR: include marker not found in {shown p}" s

def phyHpp (p : Path) (s : Text) : Result (Option Text) :=
  if occurs recvMarker s then .ok none
  else do
    let s ← guardStdio p s
    let s ← behind recvStatement recvTrace
        s!"ERROR: active recvfrom() statement not found in {shown p}" s
    let s ← behind udpCase udpTrace s!"ERROR: UDP poll case marker not found in {shown p}" s
    return some s

/-- How the script tells the PHY header by what is in it. -/
def phyWords : List Text := [text "udpBind(", text "recvfrom(", text "phyOnDatagram"]

def patchNodeService (t : Tree) : Result Tree :=
  match LwipThread.findText t "NodeService.cpp" (fun _ => true) with
  | some p => edit p (nodeService p) t
  | none => exit "ERROR: could not find active libzt NodeService.cpp"

def patchPhyHpp (t : Tree) : Result Tree :=
  match findFile t "Phy.hpp" phyWords with
  | some p => edit p (phyHpp p) t
  | none => exit "ERROR: active libzt Phy.hpp not found"

/-- patch-switch-phy.py -/
def patchPhy (t : Tree) : Result Tree := do
  let t ← patchNodeService t
  patchPhyHpp t

/-- What restore-zt-udp-checksum.py makes of a file that has either constructor. -/
def restored (s : Text) : Result (Option Text) :=
  if occurs checked s then .ok (some (replaceFirst checked noCheck s)) else .ok none

/-- restore-zt-udp-checksum.py -/
def restoreChecksum (t : Tree) : Result Tree :=
  match LwipThread.findText t "NodeService.cpp" (fun s => occurs checked s || occurs noCheck s) with
  | some p => edit p restored t
  | none => exit
      "ERROR: active libzt NodeService.cpp not found or PHY constructor not recognized"

end SwitchLdnZt.Scripts.SwitchPhy
