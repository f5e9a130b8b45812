import SwitchLdnZt.Library.Run
import SwitchLdnZt.Compat.Lines

namespace SwitchLdnZt.Compat
open Library

/-- The 32-bit counters of the wrappers; they wrap around. -/
structure Stats where
  gSockN : UInt32
  gSockFail : UInt32
  gBindN : UInt32
  gBindFail : UInt32
  gTxOk : UInt32
  gTxFail : UInt32
  gTxSeq : UInt32
  gRxOk : UInt32
  gRxSeq : UInt32
  gTxRoot : UInt32
  gRxRoot : UInt32
  gTxLogSeq : UInt32
  gRecvCalls : UInt32
  gRecvEmpty : UInt32
  gRecvErr : UInt32
  gRecvErrno : UInt32
  gRecvLogSeq : UInt32
  gSelCalls : UInt32
  gSelReady : UInt32
  gSelErr : UInt32
  gCloseSeq : UInt32
  gSockoptFail : UInt32
  gRandSeq : UInt32

def Stats.zeroed : Stats :=
  ⟨0, 0, 0, 0, 0, 0, 0, 0, 0, 0, 0, 0, 0, 0, 0, 0, 0, 0, 0, 0, 0, 0, 0⟩

/-- `__wrap_sendto`'s classifying increments, down to the one of `g_tx_seq`. -/
def Stats.countSend (t : Stats) (rc : Int) (isRoot : Bool) : Stats :=
  let t := if rc < 0 then { t with gTxFail := t.gTxFail + 1 } else { t with gTxOk := t.gTxOk + 1 }
  let t := if rc ≥ 0 ∧ isRoot then { t with gTxRoot := t.gTxRoot + 1 } else t
  { t with gTxSeq := t.gTxSeq + 1 }

/-- `__wrap_recvfrom`'s increments for a datagram received. -/
def Stats.countReceived (t : Stats) (isRoot : Bool) : Stats :=
  let t := { t with gRxOk := t.gRxOk + 1 }
  let t := if isRoot then { t with gRxRoot := t.gRxRoot + 1 } else t
  { t with gRxSeq := t.gRxSeq + 1 }

def netStatsText (t : Stats) : Bytes :=
  ascii "tx=" ++ fmtU t.gTxOk.toNat ++ ascii "(-" ++ fmtU t.gTxFail.toNat ++ ascii ") rx=" ++
    fmtU t.gRxOk.toNat ++ ascii " root_tx=" ++ fmtU t.gTxRoot.toNat ++ ascii " root_rx=" ++
    fmtU t.gRxRoot.toNat ++ ascii " sock=" ++ fmtU t.gSockN.toNat ++ ascii "(-" ++
    fmtU t.gSockFail.toNat ++ ascii ") recv=" ++ fmtU t.gRecvCalls.toNat ++ ascii "(e" ++
    fmtU t.gRecvEmpty.toNat ++ ascii "/err" ++ fmtU t.gRecvErr.toNat ++ ascii "/e#" ++
    fmtU t.gRecvErrno.toNat ++ ascii ") sel=" ++ fmtU t.gSelCalls.toNat ++ ascii "(r" ++
    fmtU t.gSelReady.toNat ++ ascii "/e" ++ fmtU t.gSelErr.toNat ++ ascii ")"

/-- What `zt_net_stats` leaves in the `n` bytes of `out`. -/
def ztNetStats (n : Nat) (t : Stats) : Line := snprintf n (netStatsText t)

/-- What a wrapped call sees and leaves: the caller's `*__errno()`, the log (its
FILE, what that still buffers, and the file), the console, and the counters. -/
structure Proc where
  errno : Int
  gLog : Bool
  gLogBuffer : Bytes
  logFile : Bytes
  diag : Diag
  drain : Bytes
  screen : List RealCall
  gExiting : Bool
  stats : Stats

def Proc.booted : Proc :=
  ⟨0, false, [], [], Diag.zeroed, List.replicate diagBufSize 0, [], false, Stats.zeroed⟩

def Proc.count (s : Proc) (f : Stats → Stats) : Proc := { s with stats := f s.stats }

/-- What the C library does for one `log_write`: whether `fopen` gives a file, how
many bytes `fwrite` and `fflush` pass on, the errno each of them sets, if it sets
one; and what lies in memory behind the caller's line buffer. -/
structure FileIo where
  opens : Bool
  accepts : Nat
  flushes : Nat
  fopenErrno : Option Int
  fwriteErrno : Option Int
  fflushErrno : Option Int
  behind : Bytes

/-- Everything works and nothing touches errno. -/
def FileIo.fine : FileIo := ⟨true, 8192, 8192, none, none, none, []⟩

/-- `if (!g_log) g_log = fopen(..., "w")`, which empties the file. -/
def Proc.openLog (s : Proc) (io : FileIo) : Proc :=
  if s.gLog then s
  else { s with
    gLog := io.opens
    logFile := if io.opens then [] else s.logFile
    errno := io.fopenErrno.getD s.errno }

/-- `fwrite` and `fflush` -/
def Proc.flushLog (s : Proc) (io : FileIo) (buf : Bytes) : Proc :=
  let buffered := s.gLogBuffer ++ buf.take io.accepts
  { s with
    logFile := s.logFile ++ buffered.take io.flushes
    gLogBuffer := buffered.drop io.flushes
    errno := io.fflushErrno.getD (io.fwriteErrno.getD s.errno) }

def Proc.logWrite (s : Proc) (io : FileIo) (buf : Bytes) : Proc :=
  let s := s.openLog io
  if s.gLog then s.flushLog io buf else s

/-- `if (n > 0) log_write(line, n)`: a length beyond the buffer reads on behind it. -/
def Proc.logLine (s : Proc) (io : FileIo) (line : Line) : Proc :=
  if line.len > 0 then s.logWrite io ((line.stored ++ io.behind).take line.len) else s

/-- What a wrapped call does by itself: its return value and the errno it sets,
if it sets one. -/
structure Outcome where
  rc : Int
  errno : Option Int

def Proc.after (s : Proc) (real : Outcome) : Proc := { s with errno := real.errno.getD s.errno }

def wrapFopen (io : FileIo) (path mode : Option Bytes) (real : Outcome) (s : Proc) : Int × Proc :=
  let s := s.after real
  (real.rc, s.logLine io (fopenLine path mode (real.rc ≠ 0)))

def wrapPthreadCreate (io : FileIo) (attr : Bool) (original : UInt32) (real : Outcome)
    (s : Proc) : Int × Proc :=
  let s := s.after real
  if attr then (real.rc, s)
  else (real.rc, s.logLine io (pthreadCreateLine original real.rc))

def wrapSocket (io : FileIo) (domain type protocol : Int) (real : Outcome) (s : Proc) :
    Int × Proc :=
  let s := s.after real
  let s := s.count fun t => { t with gSockN := t.gSockN + 1 }
  let s := if real.rc < 0 then s.count fun t => { t with gSockFail := t.gSockFail + 1 } else s
  (real.rc, s.logLine io (socketLine domain type protocol real.rc s.errno))

section
variable (plat : Platform)

def wrapBind (io : FileIo) (fd : Int) (addr : Option SockAddr) (real : Outcome) (s : Proc) :
    Int × Proc :=
  let s := s.after real
  let s := s.count fun t => { t with gBindN := t.gBindN + 1 }
  let s := if real.rc ≠ 0 then s.count fun t => { t with gBindFail := t.gBindFail + 1 } else s
  (real.rc, s.logLine io (bindLine plat fd addr real.rc s.errno))

def wrapSendto (io : FileIo) (fd : Int) (buf : Bytes) (dest : Option SockAddr) (real : Outcome)
    (s : Proc) : Int × Proc :=
  let rc := real.rc
  let s := s.after real
  let saved := s.errno
  let isRoot := (dest.map SockAddr.isRoot).getD false
  let s := s.count fun t => t.countSend rc isRoot
  match dest with
  | none => (rc, s)
  | some dest =>
    if isRoot ∨ rc < 0 then
      let seq := s.stats.gTxLogSeq
      let s := s.count fun t => { t with gTxLogSeq := t.gTxLogSeq + 1 }
      if seq < 600 then (rc, s.logLine io (sendtoLine plat fd buf dest rc saved))
      else (rc, s)
    else (rc, s)

/-- The out-parameters of a `recvfrom`. -/
structure Received where
  buf : Bytes
  src : Option SockAddr
  fromlen : Option Nat

def wrapRecvfrom (io : FileIo) (fd : Int) (real : Outcome) (out : Received) (s : Proc) :
    (Int × Received) × Proc :=
  let rc := real.rc
  let s := s.after real
  let s := s.count fun t => { t with gRecvCalls := t.gRecvCalls + 1 }
  if rc > 0 then
    let s := s.count fun t => t.countReceived ((out.src.map SockAddr.isRoot).getD false)
    let seq := s.stats.gRecvLogSeq
    let s := s.count fun t => { t with gRecvLogSeq := t.gRecvLogSeq + 1 }
    match out.src with
    | some (.inet port a b c d) =>
      if seq < 300 then ((rc, out), s.logLine io (recvfromLine fd out.buf port a b c d rc))
      else ((rc, out), s)
    | _ => ((rc, out), s)
  else if rc = 0 then
    ((rc, out), s.count fun t => { t with gRecvEmpty := t.gRecvEmpty + 1 })
  else
    let s := s.count fun t => { t with gRecvErr := t.gRecvErr + 1 }
    let e := UInt32.ofInt s.errno
    ((rc, out), s.count fun t => { t with gRecvErrno := e })

end

def wrapSelect (real : Outcome) (s : Proc) : Int × Proc :=
  let s := s.after real
  let s := s.count fun t => { t with gSelCalls := t.gSelCalls + 1 }
  if real.rc > 0 then (real.rc, s.count fun t => { t with gSelReady := t.gSelReady + 1 })
  else if real.rc < 0 then (real.rc, s.count fun t => { t with gSelErr := t.gSelErr + 1 })
  else (real.rc, s)

def wrapClose (io : FileIo) (fd : Int) (real : Outcome) (s : Proc) : Int × Proc :=
  let seq := s.stats.gCloseSeq
  let s := s.count fun t => { t with gCloseSeq := t.gCloseSeq + 1 }
  let s := if seq < 24 then s.logLine io (closeLine fd) else s
  (real.rc, s.after real)

def wrapSetsockopt (io : FileIo) (fd level name : Int) (real : Outcome) (s : Proc) : Int × Proc :=
  let s := s.after real
  if real.rc ≠ 0 then
    let seq := s.stats.gSockoptFail
    let s := s.count fun t => { t with gSockoptFail := t.gSockoptFail + 1 }
    if seq < 6 then (real.rc, s.logLine io (setsockoptLine fd level name s.errno))
    else (real.rc, s)
  else (real.rc, s)

/-- `__wrap__write_r` as one call of its thread. -/
def wrapWriteR (io : FileIo) (t : Thread) (fd : Int) (buf : Bytes) (s : Proc) : Proc :=
  if isStdio fd then
    let s := s.logWrite io buf
    if t ≠ .main then
      if isSwitchDiag buf then s else { s with diag := s.diag.append buf }
    else { s with screen := s.screen ++ [RealCall.ownWrite buf] }
  else s

def wrapConsoleUpdate (t : Thread) (s : Proc) : Proc :=
  if t = .main then
    let (drain, n, dropped, diag) := s.diag.drainInto s.drain
    let shown := if n = 0 then [] else [RealCall.drainWrite (drain.take n)]
    let notice := if dropped then [RealCall.noticeWrite] else []
    { s with
      drain := drain
      diag := diag
      screen := s.screen ++ shown ++ notice ++ [RealCall.consoleUpdate] }
  else s

/-- `__wrap_mkdir`; `isDir` is what its `stat` after a failure finds. -/
def wrapMkdir (io : FileIo) (t : Thread) (path : Option Bytes) (real : Outcome) (isDir : Bool)
    (s : Proc) : Int × Proc :=
  match path with
  | none | some [] => (0, s)
  | some path =>
    if path.getLast? = some (charByte ':') then
      (0, wrapWriteR io t stdoutFileno
        (ascii "[MKDIR] " ++ path ++ ascii " -> 0 (device root)\n") s)
    else
      let s := s.after real
      let rc := if real.rc ≠ 0 ∧ isDir then 0 else real.rc
      (rc, wrapWriteR io t stdoutFileno
        (ascii "[MKDIR] " ++ path ++ ascii " -> " ++ fmtD rc ++ ascii "\n") s)

/-- `getSecureRandom`; `drawn` is what `randomGet` puts into the caller's buffer. -/
def wrapGetSecureRandom (io : FileIo) (drawn : Bytes) (s : Proc) : Proc :=
  let seq := s.stats.gRandSeq
  let s := s.count fun t => { t with gRandSeq := t.gRandSeq + 1 }
  if seq < 10 then (randLine seq drawn).elim s (s.logLine io) else s

/-- `diag_halt`; the thread never comes back, and the process is gone when it was
exiting already. -/
def diagHalt (io io' : FileIo) (t : Thread) (what : Bytes) (s : Proc) : Option Proc :=
  if s.gExiting then none
  else
    let line := haltLine what t
    let s := s.logLine io line
    some (if line.len > 0 then
      wrapWriteR io' t stdoutFileno ((line.stored ++ io.behind).take line.len) s else s)

/-- One call of a wrapped function, with all that comes from outside: arguments,
what the wrapped call does, and what the file operations of its logging do. -/
inductive Call
  | writeR (io : FileIo) (t : Thread) (fd : Int) (buf : Bytes)
  | consoleUpdate (t : Thread)
  | pthreadCreate (io : FileIo) (attr : Bool) (original : UInt32) (real : Outcome)
  | fopen (io : FileIo) (path mode : Option Bytes) (real : Outcome)
  | socket (io : FileIo) (domain type protocol : Int) (real : Outcome)
  | bind (io : FileIo) (fd : Int) (addr : Option SockAddr) (real : Outcome)
  | sendto (io : FileIo) (fd : Int) (buf : Bytes) (dest : Option SockAddr) (real : Outcome)
  | recvfrom (io : FileIo) (fd : Int) (real : Outcome) (out : Received)
  | select (real : Outcome)
  | close (io : FileIo) (fd : Int) (real : Outcome)
  | setsockopt (io : FileIo) (fd level name : Int) (real : Outcome)
  | mkdir (io : FileIo) (t : Thread) (path : Option Bytes) (real : Outcome) (isDir : Bool)
  | getSecureRandom (io : FileIo) (drawn : Bytes)
  | abort (io io' : FileIo) (t : Thread)
  | exit (io io' : FileIo) (t : Thread) (name : Bytes) (code : Int)

/-- The process after a call; there is none when the call ends the process. -/
def Proc.step (plat : Platform) (s : Proc) : Call → Option Proc
  | .writeR io t fd buf => some (wrapWriteR io t fd buf s)
  | .consoleUpdate t => some (wrapConsoleUpdate t s)
  | .pthreadCreate io attr original real => some (wrapPthreadCreate io attr original real s).2
  | .fopen io path mode real => some (wrapFopen io path mode real s).2
  | .socket io domain type protocol real => some (wrapSocket io domain type protocol real s).2
  | .bind io fd addr real => some (wrapBind plat io fd addr real s).2
  | .sendto io fd buf dest real => some (wrapSendto plat io fd buf dest real s).2
  | .recvfrom io fd real out => some (wrapRecvfrom io fd real out s).2
  | .select real => some (wrapSelect real s).2
  | .close io fd real => some (wrapClose io fd real s).2
  | .setsockopt io fd level name real => some (wrapSetsockopt io fd level name real s).2
  | .mkdir io t path real isDir => some (wrapMkdir io t path real isDir s).2
  | .getSecureRandom io drawn => some (wrapGetSecureRandom io drawn s)
  | .abort io io' t => diagHalt io io' t (ascii "abort()") s
  | .exit io io' t name code =>
    if t = .main then none else diagHalt io io' t (exitText name code) s

@[simp] theorem countSend_txLogSeq (t : Stats) (rc : Int) (isRoot : Bool) :
    (t.countSend rc isRoot).gTxLogSeq = t.gTxLogSeq := by
  simp only [Stats.countSend]
  split <;> split <;> rfl

@[simp] theorem countReceived_recvLogSeq (t : Stats) (isRoot : Bool) :
    (t.countReceived isRoot).gRecvLogSeq = t.gRecvLogSeq := by
  cases isRoot <;> rfl

@[simp] theorem count_errno (s : Proc) (f : Stats → Stats) : (s.count f).errno = s.errno := rfl
@[simp] theorem count_gLog (s : Proc) (f : Stats → Stats) : (s.count f).gLog = s.gLog := rfl
@[simp] theorem count_stats (s : Proc) (f : Stats → Stats) : (s.count f).stats = f s.stats := rfl
@[simp] theorem after_gLog (s : Proc) (real : Outcome) : (s.after real).gLog = s.gLog := rfl
@[simp] theorem after_stats (s : Proc) (real : Outcome) : (s.after real).stats = s.stats := rfl

@[simp] theorem logWrite_stats (s : Proc) (io : FileIo) (buf : Bytes) :
    (s.logWrite io buf).stats = s.stats := by
  unfold Proc.logWrite Proc.openLog Proc.flushLog
  by_cases hg : s.gLog = true
  · simp [hg]
  · by_cases ho : io.opens = true <;> simp [hg, ho]

@[simp] theorem logLine_stats (s : Proc) (io : FileIo) (line : Line) :
    (s.logLine io line).stats = s.stats := by
  unfold Proc.logLine
  split <;> simp

@[simp] theorem writeR_stats (io : FileIo) (t : Thread) (fd : Int) (buf : Bytes) (s : Proc) :
    (wrapWriteR io t fd buf s).stats = s.stats := by
  unfold wrapWriteR
  split
  · by_cases ht : t = .main <;> by_cases hb : isSwitchDiag buf = true <;> simp [ht, hb]
  · rfl

@[simp] theorem getSecureRandom_stats (io : FileIo) (drawn : Bytes) (s : Proc) :
    (wrapGetSecureRandom io drawn s).stats =
      { s.stats with gRandSeq := s.stats.gRandSeq + 1 } := by
  simp only [wrapGetSecureRandom]
  split
  · cases randLine s.stats.gRandSeq drawn <;> simp
  · rfl

end SwitchLdnZt.Compat
