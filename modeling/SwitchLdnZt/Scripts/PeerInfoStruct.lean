import SwitchLdnZt.Scripts.Tree

namespace SwitchLdnZt.Scripts.PeerInfoStruct
open Library

def old : Text :=
  lines [
    "            pr = new zts_peer_info_t();",
    "            ZT_Peer* peer = (ZT_Peer*)obj;",
    "            memcpy(pr, peer, sizeof(zts_peer_info_t));",
    "            for (unsigned int j = 0; j < peer->pathCount; j++) \x7b",
    "                native_ss_to_zts_ss(&(pr->paths[j].address), &(peer->paths[j].address));",
    "            \x7d",
    "            objptr = (void*)pr;"]

def new : Text :=
  lines [
    "            pr = new zts_peer_info_t();",
    "            ZT_Peer* peer = (ZT_Peer*)obj;",
    "            // See scripts/patch-zt-peer-info-struct.py for why this cannot be",
    "            // a memcpy: ZT_Peer and zts_peer_info_t do not share a layout",
    "            // past latency, and a raw memcpy(pr, peer, sizeof(zts_peer_info_t))",
    "            // reads past the end of the real ZT_Peer object.",
    "            pr->peer_id = peer->address;",
    "            pr->ver_major = peer->versionMajor;",
    "            pr->ver_minor = peer->versionMinor;",
    "            pr->ver_rev = peer->versionRev;",
    "            pr->latency = peer->latency;",
    "            pr->role = (zts_peer_role_t)peer->role;",
    "            pr->path_count = peer->pathCount;",
    "            pr->unused_0 = 0;",
    "            const unsigned int path_limit = (peer->pathCount < ZTS_MAX_PEER_NETWORK_PATHS)",
    "                ? peer->pathCount : ZTS_MAX_PEER_NETWORK_PATHS;",
    "            for (unsigned int j = 0; j < path_limit; j++) \x7b",
    "                native_ss_to_zts_ss(&(pr->paths[j].address), &(peer->paths[j].address));",
    "                pr->paths[j].last_tx = peer->paths[j].lastSend;",
    "                pr->paths[j].last_rx = peer->paths[j].lastReceive;",
    "                pr->paths[j].trusted_path_id = peer->paths[j].trustedPathId;",
    "                pr->paths[j].latency = peer->paths[j].latencyMean;",
    "                pr->paths[j].expired = peer->paths[j].expired;",
    "                pr->paths[j].preferred = peer->paths[j].preferred;",
    "            \x7d",
    "            objptr = (void*)pr;"]

/-- `new.strip()`: the last character of `new` is no blank. -/
def newStripped : Text := new.dropWhile isSpace

/-- The loop's work on its file; nothing to write is a copy patched before. -/
def nodeService (p : Path) (s : Text) : Result (Option Text) :=
  if occurs newStripped s then .ok none
  else if occurrences old s ≠ 1 then
    exit s!"ERROR: expected one peer-info memcpy block in {shown p}, found {occurrences old s}"
  else .ok (some (replaceFirst old new s))

/-- patch-zt-peer-info-struct.py -/
def patchPeerInfo (t : Tree) : Result Tree :=
  match (t.rglob "libzt" "NodeService.cpp").find? (fun p =>
      match t.readText p with
      | .ok s => occurs newStripped s || occurs old s
      | .error _ => false) with
  | none => exit "ERROR: could not find the peer-info memcpy block in any NodeService.cpp"
  | some p => edit p (nodeService p) t

end SwitchLdnZt.Scripts.PeerInfoStruct
