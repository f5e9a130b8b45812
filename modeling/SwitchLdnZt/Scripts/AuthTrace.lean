import SwitchLdnZt.Scripts.SwitchPhy

namespace SwitchLdnZt.Scripts.AuthTrace
open Library SwitchPhy

def stdioInclude : Text := text "#include <stdio.h>"
def traceInclude : Text := text "#include \"Trace.hpp\"\n"
def metricsInclude : Text := text "#include \"Metrics.hpp\"\n"

/-- `add_stdio`; its message names IncomingPacket.cpp for either file. -/
def addStdio (incoming : Path) (marker s : Text) : Result Text :=
  if occurs stdioInclude s then .ok s
  else behind marker (stdioInclude ++ text "\n")
    s!"ERROR: include anchor not found in {shown incoming}" s

def rejectMarker : Text := text "[SWITCH-AUTH] REJECT invalid-MAC"

/-- `marker` -/
def failureCall : Text := text "RR->t->incomingPacketMessageAuthenticationFailure"

/-- The block of a packet whose MAC does not hold. -/
def invalidMac : List Item :=
  lits "if" ++ ws ++ lits "(" ++ ws ++ lits "!" ++ ws ++ lits "dearmor(peer->key()," ++ ws ++
    lits "peer->aesKeys())" ++ ws ++ lits ")" ++ ws ++ lits "\x7b" ++ anyFew ++
    lits ("RR->t->incomingPacketMessageAuthenticationFailure" ++
      "(tPtr,_path,packetId(),sourceAddress,hops(),\"invalid MAC\");") ++ anyFew ++
    lits "peer->recordIncomingInvalidPacket(_path);" ++ anyFew ++ lits "return true;" ++ ws ++
    lits "\x7d"

/-- `inject`, to the last line's end. -/
def rejectTrace : Text := lines [
  "#ifdef __SWITCH__",
  "\t\t\t\t\tstatic unsigned int switch_auth_bad = 0;",
  "\t\t\t\t\tconst unsigned int bad_n = __sync_fetch_and_add(&switch_auth_bad, 1);",
  "\t\t\t\t\tif (bad_n < 100) \x7b",
  "\t\t\t\t\t\tfprintf(stderr, " ++
    "\"[SWITCH-AUTH] REJECT invalid-MAC src=%llx verb=%u packet=%llx\\n\",",
  "\t\t\t\t\t\t        (unsigned long long)sourceAddress.toInt(),",
  "\t\t\t\t\t\t        (unsigned int)verb(),",
  "\t\t\t\t\t\t        (unsigned long long)packetId());",
  "\t\t\t\t\t\x7d",
  "#endif",
  ""]

def inject : Text := rejectTrace ++ text "\t\t\t\t\t"

def incomingPacket (incoming : Path) (s : Text) : Result Text := do
  let s ← addStdio incoming traceInclude s
  if occurs rejectMarker s then return s
  else
    match search [invalidMac] s with
    | none => exit "ERROR: current invalid-MAC/dearmor block not found"
    | some (b, segs, a) =>
      return b ++ replaceFirst failureCall (inject ++ failureCall) segs.flatten ++ a

def receivedMarker : Text := text "[SWITCH-AUTH] PEER-RECEIVED"

/-- The two lines of `anchor`, with the blank one between them. -/
def nowLine : Text := text "const int64_t now = RR->node->now();\n\n"
def lastReceive : Text := text "\t_lastReceive = now;"

def receivedTrace : Text := lines [
  "#ifdef __SWITCH__",
  "\tstatic unsigned int switch_peer_received = 0;",
  "\tconst unsigned int rx_n = __sync_fetch_and_add(&switch_peer_received, 1);",
  "\tif (rx_n < 150) \x7b",
  "\t\tfprintf(stderr, \"[SWITCH-AUTH] PEER-RECEIVED peer=%llx verb=%u packet=%llx " ++
    "upstream=%d hops=%u now=%lld\\n\",",
  "\t\t        (unsigned long long)_id.address().toInt(),",
  "\t\t        (unsigned int)verb,",
  "\t\t        (unsigned long long)packetId,",
  "\t\t        RR->topology->isUpstream(_id.identity()) ? 1 : 0,",
  "\t\t        hops,",
  "\t\t        (long long)now);",
  "\t\x7d",
  "#endif",
  ""]

def peerReceived (incoming : Path) (s : Text) : Result Text := do
  let s ← addStdio incoming metricsInclude s
  if occurs receivedMarker s then return s
  else if occurs (nowLine ++ lastReceive) s then
    return replaceFirst (nowLine ++ lastReceive)
      (nowLine ++ receivedTrace ++ text "\n" ++ lastReceive) s
  else exit "ERROR: Peer::received() lastReceive anchor not found"

/-- patch-incoming-auth-trace.py; both files are looked for before either is read. -/
def patchAuthTrace (t : Tree) : Result Tree :=
  match (t.rglob "libzt" "IncomingPacket.cpp").head?, (t.rglob "libzt" "Peer.cpp").head? with
  | none, _ => exit "ERROR: active libzt IncomingPacket.cpp not found"
  | some _, none => exit "ERROR: active libzt Peer.cpp not found"
  | some incoming, some peer => do
    let t ← edit incoming (fun s => (incomingPacket incoming s).map some) t
    edit peer (fun s => (peerReceived incoming s).map some) t

end SwitchLdnZt.Scripts.AuthTrace
