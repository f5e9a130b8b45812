import SwitchLdnZt.Compat.Diag

namespace SwitchLdnZt.Compat
open Library

/-- `%-<width>d` -/
def fmtDLeft (width : Nat) (i : Int) : Bytes :=
  fmtD i ++ List.replicate (width - (fmtD i).length) (charByte ' ')

/-- What the exception handler prints of a `ThreadExceptionDump`. -/
structure ThreadExceptionDump where
  errorDesc : UInt32
  esr : UInt32
  pc : UInt64
  lr : UInt64
  sp : UInt64
  far : UInt64
  cpuGprs : Fin 29 → UInt64

def ThreadExceptionDump.gpr (ctx : ThreadExceptionDump) (i : Nat) : UInt64 :=
  if h : i < 29 then ctx.cpuGprs ⟨i, h⟩ else 0

def faultLine (ctx : ThreadExceptionDump) : Line :=
  snprintf 256 (ascii "\n[FAULT] desc=0x" ++ fmtX 0 ctx.errorDesc.toNat ++ ascii " esr=0x" ++
    fmtX 8 ctx.esr.toNat ++ ascii " pc=" ++ fmtX 16 ctx.pc.toNat ++ ascii " lr=" ++
    fmtX 16 ctx.lr.toNat ++ ascii " sp=" ++ fmtX 16 ctx.sp.toNat ++ ascii " far=" ++
    fmtX 16 ctx.far.toNat ++ ascii "\n")

def registerText (ctx : ThreadExceptionDump) (i : Nat) : Bytes :=
  ascii " x" ++ fmtDLeft 2 i ++ ascii "=" ++ fmtX 16 (ctx.gpr i).toNat

def registerLine (ctx : ThreadExceptionDump) (i : Nat) : Line :=
  snprintf 256 (ascii "[FAULT]" ++ registerText ctx i ++ registerText ctx (i + 1) ++
    registerText ctx (i + 2) ++ registerText ctx (i + 3) ++ ascii "\n")

/-- What `__libnx_exception_handler` logs before the process ends or the thread sleeps. -/
def exceptionLines (ctx : ThreadExceptionDump) : List Line :=
  faultLine ctx :: (List.range 8).map (fun k => registerLine ctx (4 * k))

def stateNames : List Bytes :=
  [ascii "identity.secret", ascii "identity.public", ascii "roots", ascii "planet"]

/-- `stat` gives the `st_size` of a path that it finds. -/
def stateLine (stat : Bytes → Option Int) (name : Bytes) : Line :=
  match stat (Line.sent (snprintf 160 (ascii "sdmc:/config/zerotier-switch/zt/" ++ name))) with
  | some size => snprintf 224 (ascii "[STATE] " ++ name ++ ascii " = " ++ fmtD size ++
      ascii " bytes\n")
  | none => snprintf 224 (ascii "[STATE] " ++ name ++ ascii " MISSING\n")

/-- What `zt_report_state_files` logs. -/
def reportLines (stat : Bytes → Option Int) : List Line :=
  stateNames.map (stateLine stat)

def fopenText (path mode : Option Bytes) (ok : Bool) : Bytes :=
  ascii "[FILE] fopen(" ++ path.getD (ascii "(null)") ++ ascii ", " ++ mode.getD (ascii "?") ++
    ascii ") -> " ++ (if ok then ascii "ok" else ascii "FAIL") ++ ascii "\n"

def fopenLine (path mode : Option Bytes) (ok : Bool) : Line :=
  snprintf 224 (fopenText path mode ok)

def pthreadCreateLine (original : UInt32) (rc : Int) : Line :=
  snprintf 128 (ascii "[THREAD] default stack " ++ fmtU original.toNat ++
    ascii " -> 524288, rc=" ++ fmtD rc ++ ascii "\n")

def socketLine (domain type protocol fd errno : Int) : Line :=
  let call := ascii "[SOCK] socket(" ++ fmtD domain ++ ascii "," ++ fmtD type ++ ascii "," ++
    fmtD protocol
  if fd < 0 then snprintf 128 (call ++ ascii ") FAILED errno=" ++ fmtD errno ++ ascii "\n")
  else snprintf 128 (call ++ ascii ") -> fd " ++ fmtD fd ++ ascii "\n")

/-- `AF_INET6` and `inet_ntop(AF_INET6, ...)` belong to the platform. -/
structure Platform where
  afInet6 : Int
  inetNtop6 : Bytes → Bytes

inductive SockAddr
  | inet (port : UInt16) (a b c d : UInt8)
  | inet6 (port : UInt16) (addr : Bytes)
  | other (family : Int)
  deriving DecidableEq

def afInet : Int := 2

def SockAddr.family (plat : Platform) : SockAddr → Int
  | .inet .. => afInet
  | .inet6 .. => plat.afInet6
  | .other family => family

def inetNtop4 (a b c d : UInt8) : Bytes :=
  fmtU a.toNat ++ ascii "." ++ fmtU b.toNat ++ ascii "." ++ fmtU c.toNat ++ ascii "." ++
    fmtU d.toNat

/-- `ip` and `port` as the wrappers print them, with what `ip` starts as. -/
def SockAddr.text (plat : Platform) (ip : Bytes) : SockAddr → Bytes × UInt16
  | .inet port a b c d => (inetNtop4 a b c d, port)
  | .inet6 port addr => (plat.inetNtop6 addr, port)
  | .other _ => (ip, 0)

def SockAddr.isRoot : SockAddr → Bool
  | .inet port .. => port == 9993
  | _ => false

/-- `static_cast<int>` of a 64-bit value -/
def castInt (i : Int) : Int := Int.bmod i (2 ^ 32)

def bindLine (plat : Platform) (fd : Int) (addr : Option SockAddr) (rc errno : Int) : Line :=
  let (ip, port) := (addr.map (SockAddr.text plat [])).getD ([], 0)
  let family := (addr.map (SockAddr.family plat)).getD (-1)
  snprintf 192 (ascii "[SOCK] bind(fd=" ++ fmtD fd ++ ascii " fam=" ++ fmtD family ++ ascii " " ++
    ip ++ ascii ":" ++ fmtU port.toNat ++ ascii ") -> " ++ fmtD rc ++ ascii " errno=" ++
    fmtD (if rc ≠ 0 then errno else 0) ++ ascii "\n")

def byteAt (p : Bytes) (i : Nat) : Nat := (p.getD i 0).toNat

def cipherHopsVerb (p : Bytes) : Bytes :=
  ascii " cipher=" ++ fmtU ((byteAt p 18 >>> 3) &&& 7) ++ ascii " hops=" ++
    fmtU (byteAt p 18 &&& 7) ++ ascii " verb=0x" ++ fmtX 2 (byteAt p 27)

/-- The decoded ZeroTier wire header of an outgoing packet. -/
def txHdr (p : Bytes) : Bytes :=
  if p.length ≥ 28 then
    ascii " id=" ++ (List.range 8).flatMap (fun i => fmtX 2 (byteAt p i)) ++ cipherHopsVerb p
  else []

def sendtoLine (plat : Platform) (fd : Int) (buf : Bytes) (dest : SockAddr) (rc saved : Int) :
    Line :=
  let (ip, port) := dest.text plat (ascii "?")
  snprintf 256 (ascii "[TX] fd=" ++ fmtD fd ++ ascii " fam=" ++ fmtD (dest.family plat) ++
    ascii " to=" ++ ip ++ ascii ":" ++ fmtU port.toNat ++ ascii " len=" ++
    fmtD (castInt buf.length) ++ ascii " rc=" ++ fmtD (castInt rc) ++ ascii " errno=" ++
    fmtD (if rc < 0 then saved else 0) ++ Line.sent (snprintf 80 (txHdr buf)) ++ ascii "\n")

def recvfromLine (fd : Int) (buf : Bytes) (port : UInt16) (a b c d : UInt8) (rc : Int) : Line :=
  let hdr := if rc ≥ 28 then cipherHopsVerb buf else []
  snprintf 200 (ascii "[RX] fd=" ++ fmtD fd ++ ascii " from=" ++ inetNtop4 a b c d ++ ascii ":" ++
    fmtU port.toNat ++ ascii " len=" ++ fmtD (castInt rc) ++ Line.sent (snprintf 64 hdr) ++
    ascii "\n")

def closeLine (fd : Int) : Line :=
  snprintf 96 (ascii "[SOCK] close(fd=" ++ fmtD fd ++ ascii ")\n")

def setsockoptLine (fd level name errno : Int) : Line :=
  snprintf 128 (ascii "[SOCK] setsockopt(fd=" ++ fmtD fd ++ ascii " lvl=" ++ fmtD level ++
    ascii " opt=" ++ fmtD name ++ ascii ") FAILED errno=" ++ fmtD errno ++ ascii "\n")

/-- `what` of `__wrap_exit` and `__wrap__exit` -/
def exitText (name : Bytes) (code : Int) : Bytes :=
  Line.sent (snprintf 48 (name ++ ascii "(" ++ fmtD code ++ ascii ")"))

def haltLine (what : Bytes) (t : Thread) : Line :=
  snprintf 160 (ascii "\n[TRAP] " ++ what ++ ascii " from " ++
    (if t = .main then ascii "main" else ascii "worker") ++ ascii " thread - halted\n")

/-- `snprintf(line + off, sizeof(line) - off, ...)` with `off` moved on: the length it
keeps is again of the whole text. -/
def snprintfMore (size : Nat) (l : Line) (text : Bytes) : Line :=
  ⟨l.stored.take l.len ++ (snprintf (size - l.len) text).stored, l.len + text.length⟩

/-- The loop of `getSecureRandom` over the bytes shown. -/
def randBuf (l : Line) : Bytes → Line
  | [] => l
  | b :: bs =>
    if l.len > 0 ∧ l.len < 128 - 4 then
      randBuf (snprintfMore 128 l (ascii " " ++ fmtX 2 b.toNat)) bs
    else l

/-- Its last step writes the line feed over the terminator, where there is room. -/
def randLine (seq : UInt32) (drawn : Bytes) : Option Line :=
  let l := randBuf (snprintf 128 (ascii "[RAND] #" ++ fmtU seq.toNat ++ ascii " n=" ++
    fmtU drawn.length ++ ascii ":")) (drawn.take 8)
  if l.len > 0 ∧ l.len < 128 - 2 then some ⟨l.stored.take l.len ++ ascii "\n", l.len + 1⟩
  else none

end SwitchLdnZt.Compat
