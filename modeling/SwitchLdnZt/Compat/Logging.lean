import SwitchLdnZt.Compat.Wrappers

namespace SwitchLdnZt.Compat
open Library

/-- The lines that a wrapped call formats and passes to `log_write`. -/
def Call.lines (plat : Platform) (s : Proc) : Call → List Line
  | .writeR .. | .consoleUpdate .. | .select .. | .mkdir .. => []
  | .pthreadCreate _ attr original real => if attr then [] else [pthreadCreateLine original real.rc]
  | .fopen _ path mode real => [fopenLine path mode (real.rc ≠ 0)]
  | .socket _ domain type protocol real =>
    [socketLine domain type protocol real.rc (s.after real).errno]
  | .bind _ fd addr real => [bindLine plat fd addr real.rc (s.after real).errno]
  | .sendto _ fd buf dest real =>
    match dest with
    | none => []
    | some dest =>
      if (dest.isRoot ∨ real.rc < 0) ∧ s.stats.gTxLogSeq < 600 then
        [sendtoLine plat fd buf dest real.rc (s.after real).errno]
      else []
  | .recvfrom _ fd real out =>
    match out.src with
    | some (.inet port a b c d) =>
      if real.rc > 0 ∧ s.stats.gRecvLogSeq < 300 then
        [recvfromLine fd out.buf port a b c d real.rc]
      else []
    | _ => []
  | .close _ fd _ => if s.stats.gCloseSeq < 24 then [closeLine fd] else []
  | .setsockopt _ fd level name real =>
    if real.rc ≠ 0 ∧ s.stats.gSockoptFail < 6 then
      [setsockoptLine fd level name (s.after real).errno]
    else []
  | .getSecureRandom _ drawn =>
    if s.stats.gRandSeq < 10 then (randLine s.stats.gRandSeq drawn).toList else []
  | .abort _ _ t => if s.gExiting then [] else [haltLine (ascii "abort()") t]
  | .exit _ _ t name code =>
    if t = .main ∨ s.gExiting then [] else [haltLine (exitText name code) t]

/-- The file operations of a call that logs nothing but its lines. -/
def Call.logIo : Call → Option FileIo
  | .pthreadCreate io .. | .fopen io .. | .socket io .. | .bind io .. | .sendto io ..
  | .recvfrom io .. | .close io .. | .setsockopt io .. | .getSecureRandom io _ => some io
  | _ => none

def Proc.logLines (s : Proc) (io : FileIo) (lines : List Line) : Proc :=
  lines.foldl (fun s line => s.logLine io line) s

/-- Every place that formats a line for the log. -/
inductive Logging
  | call (s : Proc) (c : Call)
  | exception (ctx : ThreadExceptionDump)
  | stateFiles (stat : Bytes → Option Int)

def Logging.lines (plat : Platform) : Logging → List Line
  | .call s c => c.lines plat s
  | .exception ctx => exceptionLines ctx
  | .stateFiles stat => reportLines stat

end SwitchLdnZt.Compat
