import SwitchLdnZt.Scripts.Tree

namespace SwitchLdnZt.Scripts.Hotpath
open Library

def sendPat : Pattern :=
  [lits "\n" ++ ws ++ lits "const u32 seq = __sync_fetch_and_add(&g_tx_seq, 1);\n" ++ ws ++
    lits "if ((seq < 12 || (seq % 40) == 0)" ++ anyFew ++ lits "\n" ++ ws ++ lits "\x7d\n" ++
    ws ++ lits "return rc;"]

def recvPat : Pattern :=
  [lits "\n" ++ ws ++ lits "const u32 seq = __sync_fetch_and_add(&g_rx_seq, 1);\n" ++ ws ++
    lits "if ((seq < 12 || (seq % 10) == 0) && from && from->sa_family == AF_INET) \x7b\n" ++
    anyFew ++ lits "\n" ++ ws ++ lits "\x7d\n"]

def sendRepl : Text := text "\n    (void)__sync_fetch_and_add(&g_tx_seq, 1);\n    return rc;"

def recvRepl : Text := text "\n        (void)__sync_fetch_and_add(&g_rx_seq, 1);\n"

/-- The marker lines alone tell a file that was patched before. -/
def alreadyApplied (s : Text) : Bool :=
  occurs (text "(void)__sync_fetch_and_add(&g_tx_seq, 1);") s &&
    occurs (text "(void)__sync_fetch_and_add(&g_rx_seq, 1);") s

def posixCompat (s : Text) : Result (Option Text) :=
  let (s2, n1) := subFirst sendPat (fun _ => sendRepl) s
  let (s3, n2) := subFirst recvPat (fun _ => recvRepl) s2
  if (n1 ≠ 1 ∨ n2 ≠ 1) ∧ ¬ alreadyApplied s then
    exit s!"Expected hot-path log blocks once each; send={n1}, recv={n2}"
  else if n1 = 1 ∨ n2 = 1 then .ok (some s3)
  else .ok none

def sessionsOld : Text := text "        .num_bsd_sessions    = 3,"

def sessionsNew : Text := text "        .num_bsd_sessions    = 16,"

def mainCpp (s : Text) : Result (Option Text) :=
  if occurs sessionsOld s then .ok (some (replaceFirst sessionsOld sessionsNew s))
  else if occurs sessionsNew s then .ok none
  else exit "num_bsd_sessions setting not found"

/-- patch-runtime-hotpath.py -/
def patchHotpath (t : Tree) : Result Tree := do
  let t ← edit ["source", "posix_compat.cpp"] posixCompat t
  edit ["source", "main.cpp"] mainCpp t

end SwitchLdnZt.Scripts.Hotpath
