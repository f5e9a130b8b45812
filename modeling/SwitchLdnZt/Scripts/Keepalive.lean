import SwitchLdnZt.Scripts.Tree

namespace SwitchLdnZt.Scripts.Keepalive
open Library

def scaleOld : Text :=
  text "int roleBasedTimerScale = (role == ZT_PEER_ROLE_LEAF) ? 2 : 16;"

def scaleNew : Text :=
  text "int roleBasedTimerScale = (role == ZT_PEER_ROLE_LEAF) ? 2 : 1;"

/-- `CONST_SUBS` -/
def constSubs : List (Text × Text) :=
  [(text "#define ZT_PEER_PING_PERIOD 60000", text "#define ZT_PEER_PING_PERIOD 10000"),
    (text "#define ZT_PEER_PATH_EXPIRATION ((ZT_PEER_PING_PERIOD * 4) + 3000)",
      text "#define ZT_PEER_PATH_EXPIRATION (243000)"),
    (text "#define ZT_PEER_EXPIRED_PATH_TRIAL_PERIOD (ZT_PEER_PING_PERIOD * 10)",
      text "#define ZT_PEER_EXPIRED_PATH_TRIAL_PERIOD (600000)")]

def pingDone : Text := text "#define ZT_PEER_PING_PERIOD 10000"

/-- The first loop's work on its file; nothing to write is a scale patched before. -/
def scale (p : Path) (s : Text) : Result (Option Text) :=
  if occurs scaleNew s then .ok none
  else if occurrences scaleOld s ≠ 1 then
    exit s!"ERROR: expected one upstream ping scale in {shown p}, found {occurrences scaleOld s}"
  else .ok (some (replaceFirst scaleOld scaleNew s))

/-- One turn of the loop over `CONST_SUBS`, with how many were applied. -/
def substitute (p : Path) (acc : Text × Nat) (sub : Text × Text) : Result (Text × Nat) :=
  let (s, applied) := acc
  let (old, new) := sub
  if occurs old s then
    if occurrences old s ≠ 1 then
      exit s!"ERROR: expected one '{String.ofList old}' in {shown p}, found {occurrences old s}"
    else .ok (replaceFirst old new s, applied + 1)
  else .ok (s, applied)

/-- What becomes of the text of Constants.hpp. -/
def constants (p : Path) (s : Text) : Result (Text × Nat) := do
  let (s, applied) ← constSubs.foldlM (substitute p) (s, 0)
  if occurs pingDone s then return (s, applied)
  else exit s!"ERROR: ZT_PEER_PING_PERIOD in {shown p} is neither 60000 nor already 10000"

def constantsWrite (p : Path) (s : Text) : Result (Option Text) := do
  let (s, applied) ← constants p s
  return if applied = 0 then none else some s

def patchScale (t : Tree) : Result Tree :=
  match (t.rglob "libzt" "Node.cpp").find? (fun p =>
      match t.readText p with
      | .ok s => occurs scaleNew s || occurs scaleOld s
      | .error _ => false) with
  | none => exit
      "ERROR: could not find _PingPeersThatNeedPing role-based timer scale in any Node.cpp"
  | some p => edit p (scale p) t

def patchConstants (t : Tree) : Result Tree :=
  match findFile t "Constants.hpp" [text "ZT_PEER_PING_PERIOD"] with
  | none => exit "ERROR: could not find a Constants.hpp defining ZT_PEER_PING_PERIOD"
  | some p => edit p (constantsWrite p) t

/-- patch-zt-upstream-keepalive.py -/
def patchKeepalive (t : Tree) : Result Tree := do
  let t ← patchScale t
  patchConstants t

/-- Either way the first occurrence, if there is one, is replaced. -/
theorem substitute_ok {p : Path} {s s' : Text} {n n' : Nat} {sub : Text × Text}
    (h : substitute p (s, n) sub = .ok (s', n')) : s' = replaceFirst sub.1 sub.2 s := by
  simp only [substitute] at h
  split at h
  · split at h
    · cases h
    · cases h
      rfl
  next hno =>
    have hcut : cut sub.1 s = none := by simpa [occurs] using hno
    cases h
    rw [replaceFirst, hcut]

end SwitchLdnZt.Scripts.Keepalive
