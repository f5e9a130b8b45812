import SwitchLdnZt.Compat.Wrappers

namespace SwitchLdnZt.Proofs.ErrnoTransparency
open Library Compat

/-- A call of an interposed function, with what the wrapped function does. -/
inductive Interposed
  | socket (domain type protocol : Int) (real : Outcome)
  | bind (fd : Int) (addr : Option SockAddr) (real : Outcome)
  | sendto (fd : Int) (buf : Bytes) (dest : Option SockAddr) (real : Outcome)
  | recvfrom (fd : Int) (real : Outcome) (out : Received)
  | setsockopt (fd level name : Int) (real : Outcome)
  | fopen (path mode : Option Bytes) (real : Outcome)

/-- What the caller can look at when the call is over. -/
structure Seen where
  ret : Int
  out : Option Received
  errno : Int

section
variable (plat : Platform) (io : FileIo) (s : Proc)

def Interposed.wrapped : Interposed → Seen
  | .socket domain type protocol real =>
    let (fd, s) := wrapSocket io domain type protocol real s
    ⟨fd, none, s.errno⟩
  | .bind fd addr real =>
    let (rc, s) := wrapBind plat io fd addr real s
    ⟨rc, none, s.errno⟩
  | .sendto fd buf dest real =>
    let (rc, s) := wrapSendto plat io fd buf dest real s
    ⟨rc, none, s.errno⟩
  | .recvfrom fd real out =>
    let ((rc, out), s) := wrapRecvfrom io fd real out s
    ⟨rc, some out, s.errno⟩
  | .setsockopt fd level name real =>
    let (rc, s) := wrapSetsockopt io fd level name real s
    ⟨rc, none, s.errno⟩
  | .fopen path mode real =>
    let (f, s) := wrapFopen io path mode real s
    ⟨f, none, s.errno⟩

/-- The wrapped call without its wrapper. -/
def Interposed.alone : Interposed → Seen
  | .socket _ _ _ real | .bind _ _ real | .sendto _ _ _ real | .setsockopt _ _ _ real
  | .fopen _ _ real => ⟨real.rc, none, (s.after real).errno⟩
  | .recvfrom _ real out => ⟨real.rc, some out, (s.after real).errno⟩

end

def isInet : Option SockAddr → Bool
  | some (.inet ..) => true
  | _ => false

/-- The call comes to its `log_write`. -/
def Interposed.logs (stats : Stats) : Interposed → Bool
  | .socket .. | .bind .. | .fopen .. => true
  | .sendto _ _ dest real =>
    match dest with
    | none => false
    | some a => (a.isRoot || decide (real.rc < 0)) && decide (stats.gTxLogSeq < 600)
  | .recvfrom _ real out =>
    decide (real.rc > 0) && isInet out.src && decide (stats.gRecvLogSeq < 300)
  | .setsockopt _ _ _ real => decide (real.rc ≠ 0) && decide (stats.gSockoptFail < 6)

/-- The last errno that the file operations of one `log_write` set: `fopen` runs
when the log is not open, the others when it then is. -/
def errnoSet (io : FileIo) (gLog : Bool) : Option Int :=
  let opened := if gLog then none else io.fopenErrno
  if gLog || io.opens then (io.fflushErrno.or io.fwriteErrno).or opened else opened

variable {plat : Platform} {io : FileIo} {s : Proc}

theorem logWrite_errno (s : Proc) (io : FileIo) (buf : Bytes) :
    (s.logWrite io buf).errno = (errnoSet io s.gLog).getD s.errno := by
  unfold Proc.logWrite Proc.openLog Proc.flushLog errnoSet
  by_cases hg : s.gLog
  · cases io.fwriteErrno <;> cases io.fflushErrno <;> simp [hg]
  · by_cases ho : io.opens
    · cases io.fopenErrno <;> cases io.fwriteErrno <;> cases io.fflushErrno <;> simp [hg, ho]
    · simp [hg, ho]

/-- A non-empty line is logged, whatever became of it in its buffer. -/
theorem logLine_errno (s : Proc) (io : FileIo) {size : Nat} {text : Bytes} (h : text ≠ []) :
    (s.logLine io (snprintf size text)).errno = (errnoSet io s.gLog).getD s.errno := by
  have hpos : (snprintf size text).len > 0 := List.length_pos_iff.mpr h
  rw [Proc.logLine, if_pos hpos, logWrite_errno]

/-- The wrapper returns what the wrapped call returned, and the errno is that of
the call, or of the logging after it. -/
theorem wrapped_eq (c : Interposed) :
    c.wrapped plat io s = { c.alone s with
      errno := if c.logs s.stats then (errnoSet io s.gLog).getD (c.alone s).errno
        else (c.alone s).errno } := by
  cases c with
  | socket domain type protocol real =>
    simp only [Interposed.wrapped, Interposed.alone, Interposed.logs, wrapSocket, socketLine]
    split <;> simp [logLine_errno]
  | bind fd addr real =>
    simp only [Interposed.wrapped, Interposed.alone, Interposed.logs, wrapBind, bindLine]
    split <;> simp [logLine_errno]
  | sendto fd buf dest real =>
    cases dest with
    | none => simp [Interposed.wrapped, Interposed.alone, Interposed.logs, wrapSendto]
    | some a =>
      simp only [Interposed.wrapped, Interposed.alone, Interposed.logs, wrapSendto,
        Option.map_some, Option.getD_some, count_stats, countSend_txLogSeq, after_stats]
      by_cases hl : a.isRoot = true ∨ real.rc < 0
      · by_cases hq : s.stats.gTxLogSeq < 600
        · rcases hl with ha | hr <;> simp [*, sendtoLine, logLine_errno]
        · simp [hl, hq]
      · obtain ⟨ha, hr⟩ := not_or.mp hl
        simp [ha, hr]
  | recvfrom fd real out =>
    obtain ⟨buf, src, fromlen⟩ := out
    simp only [Interposed.wrapped, Interposed.alone, Interposed.logs, wrapRecvfrom]
    by_cases hr : real.rc > 0
    · rcases src with _ | ⟨port, a, b, c, d⟩ | _ | _
      · simp [hr, isInet]
      · by_cases hq : s.stats.gRecvLogSeq < 300 <;>
          simp [hr, hq, isInet, recvfromLine, logLine_errno]
      · simp [hr, isInet]
      · simp [hr, isInet]
    · by_cases hz : real.rc = 0 <;> simp [hr, hz]
  | setsockopt fd level name real =>
    simp only [Interposed.wrapped, Interposed.alone, Interposed.logs, wrapSetsockopt]
    by_cases hr : real.rc = 0 <;> by_cases hq : s.stats.gSockoptFail < 6 <;>
      simp [hr, hq, setsockoptLine, logLine_errno]
  | fopen path mode real =>
    simp [Interposed.wrapped, Interposed.alone, Interposed.logs, wrapFopen, fopenLine,
      fopenText, logLine_errno]

/-- Return value and out-parameters always come through. The errno does exactly
when the call logs nothing, or the last errno its file operations set, if they set
one, is the one the wrapped call left. -/
theorem wrapped_transparent_iff (plat : Platform) (io : FileIo) (s : Proc) (c : Interposed) :
    c.wrapped plat io s = c.alone s ↔
      (c.logs s.stats = true → ∀ e ∈ errnoSet io s.gLog, e = (c.alone s).errno) := by
  rw [wrapped_eq]
  cases hl : c.logs s.stats with
  | false => simp
  | true =>
    cases he : errnoSet io s.gLog with
    | none => simp
    | some e =>
      simp only [↓reduceIte, Option.getD_some, Option.mem_def, Option.some.injEq, forall_const,
        forall_eq']
      constructor
      · intro h
        exact congrArg Seen.errno h
      · intro h
        rw [h]

/-- `socket` fails for want of memory and the log cannot be opened: the caller
reads `ENOENT`. -/
theorem socket_errno_lost :
    let io : FileIo := { FileIo.fine with opens := false, fopenErrno := some 2 }
    let c := Interposed.socket 2 2 0 ⟨-1, some 12⟩
    (c.wrapped ⟨28, id⟩ io Proc.booted).errno = 2 ∧ (c.alone Proc.booted).errno = 12 := by
  decide

end SwitchLdnZt.Proofs.ErrnoTransparency
