import SwitchLdnZt.Compat.Logging
import SwitchLdnZt.Library.CNumber

namespace SwitchLdnZt.Proofs.LineBounds
open Library Compat

/-- `log_write(line, len)` reads nothing but what was written. -/
def Bounded (l : Line) : Prop := l.len ≤ l.stored.length

/-- The terminator counts as written. -/
theorem snprintf_bounded_iff {size : Nat} (h : 0 < size) (text : Bytes) :
    Bounded (snprintf size text) ↔ text.length ≤ size := by
  simp only [Bounded, snprintf, List.length_append, List.length_take, List.length_singleton]
  omega

theorem snprintf_bounded {size : Nat} {text : Bytes} (h : 0 < size) (hle : text.length ≤ size) :
    Bounded (snprintf size text) :=
  (snprintf_bounded_iff h text).mpr hle

theorem sent_length_le {size : Nat} (h : 0 < size) (text : Bytes) :
    (Line.sent (snprintf size text)).length ≤ size := by
  simp only [Line.sent, snprintf, List.length_take, List.length_append, List.length_singleton]
  omega

/-- A value of C's `int` -/
def IsInt (i : Int) : Prop := -2 ^ 31 ≤ i ∧ i < 2 ^ 31

theorem castInt_isInt (i : Int) : IsInt (castInt i) := by
  have hl : -((2 ^ 32 : Nat) / 2 : Int) ≤ castInt i := Int.le_bmod (by decide)
  have hu : castInt i < ((2 ^ 32 : Nat) + 1) / 2 := Int.bmod_lt (by decide)
  unfold IsInt
  omega

theorem fmtU_length {n k : Nat} (hk : 0 < k) (h : n < 10 ^ k) : (fmtU n).length ≤ k := by
  have hd := (Nat.length_toDigits_le_iff (b := 10) (by decide) hk).mpr h
  simpa [fmtU] using hd

theorem fmtD_length {i : Int} {k : Nat} (hk : 0 < k) (h : i.natAbs < 10 ^ k) :
    (fmtD i).length ≤ k + 1 := by
  have := fmtU_length hk h
  unfold fmtD
  split
  · rw [List.length_cons]
    omega
  · omega

theorem IsInt.fmtD {i : Int} (h : IsInt i) : (fmtD i).length ≤ 11 := by
  unfold IsInt at h
  exact fmtD_length (by decide) (by omega)

@[simp] theorem fmtD_castInt (i : Int) : (fmtD (castInt i)).length ≤ 11 :=
  (castInt_isInt i).fmtD

theorem fmtU_uint32 (n : UInt32) : (fmtU n.toNat).length ≤ 10 :=
  fmtU_length_le n.toNat_lt

theorem fmtU_uint16 (n : UInt16) : (fmtU n.toNat).length ≤ 5 :=
  fmtU_length (by decide) (by have := n.toNat_lt; omega)

theorem fmtU_uint8 (n : UInt8) : (fmtU n.toNat).length ≤ 3 :=
  fmtU_length (by decide) (by have := n.toNat_lt; omega)

theorem inetNtop4_length (a b c d : UInt8) : (inetNtop4 a b c d).length ≤ 15 := by
  have ha := fmtU_uint8 a
  have hb := fmtU_uint8 b
  have hc := fmtU_uint8 c
  have hd := fmtU_uint8 d
  simp [inetNtop4, ascii]
  omega

/-- `inet_ntop` writes at most `INET6_ADDRSTRLEN` bytes, its terminator among them. -/
def Platform.Fits (plat : Platform) : Prop :=
  IsInt plat.afInet6 ∧ ∀ addr, (plat.inetNtop6 addr).length ≤ 45

/-- The integers of an address are of their C types. -/
def FamilyIsInt : SockAddr → Prop
  | .other family => IsInt family
  | _ => True

theorem text_length {plat : Platform} (hp : Platform.Fits plat) {ip : Bytes} (hip : ip.length ≤ 45)
    (addr : SockAddr) : (addr.text plat ip).1.length ≤ 45 := by
  cases addr with
  | inet port a b c d =>
    have := inetNtop4_length a b c d
    simp only [SockAddr.text]
    omega
  | inet6 port addr => exact hp.2 addr
  | other family => exact hip

theorem family_isInt {plat : Platform} (hp : Platform.Fits plat) {addr : SockAddr}
    (h : FamilyIsInt addr) : IsInt (addr.family plat) := by
  cases addr with
  | inet port a b c d => exact (⟨by decide, by decide⟩ : IsInt 2)
  | inet6 port addr => exact hp.1
  | other family => exact h

section Lines
variable {plat : Platform}

theorem pthreadCreateLine_bounded (original : UInt32) {rc : Int} (h : IsInt rc) :
    Bounded (pthreadCreateLine original rc) := by
  apply snprintf_bounded (by decide)
  have ho := fmtU_uint32 original
  have hr := h.fmtD
  simp [ascii]
  omega

theorem socketLine_bounded {domain type protocol fd errno : Int} (hd : IsInt domain)
    (ht : IsInt type) (hp : IsInt protocol) (hf : IsInt fd) (he : IsInt errno) :
    Bounded (socketLine domain type protocol fd errno) := by
  have hd := hd.fmtD
  have ht := ht.fmtD
  have hp := hp.fmtD
  have hf := hf.fmtD
  have he := he.fmtD
  unfold socketLine
  split <;> apply snprintf_bounded (by decide)
  · simp [ascii]
    omega
  · simp [ascii]
    omega

theorem bindLine_bounded (hplat : Platform.Fits plat) {fd : Int} {addr : Option SockAddr}
    {rc errno : Int} (hf : IsInt fd) (ha : ∀ a ∈ addr, FamilyIsInt a) (hr : IsInt rc)
    (he : IsInt errno) : Bounded (bindLine plat fd addr rc errno) := by
  have hfam : IsInt ((addr.map (SockAddr.family plat)).getD (-1)) := by
    cases addr with
    | none => exact (⟨by decide, by decide⟩ : IsInt (-1))
    | some a => exact family_isInt hplat (ha a rfl)
  have hip : ((addr.map (SockAddr.text plat [])).getD ([], 0)).1.length ≤ 45 := by
    cases addr with
    | none => simp
    | some a => exact text_length hplat (by simp) a
  have herr : IsInt (if rc ≠ 0 then errno else 0) := by
    split
    · exact he
    · exact ⟨by decide, by decide⟩
  unfold bindLine
  cases hx : (addr.map (SockAddr.text plat [])).getD ([], 0) with
  | mk ip port =>
    replace hip : ip.length ≤ 45 := by rwa [hx] at hip
    generalize (addr.map (SockAddr.family plat)).getD (-1) = family at hfam ⊢
    generalize (if rc ≠ 0 then errno else 0) = e at herr ⊢
    have hf := hf.fmtD
    have hfam := hfam.fmtD
    have hr := hr.fmtD
    have herr := herr.fmtD
    have hport := fmtU_uint16 port
    apply snprintf_bounded (by decide)
    simp [ascii]
    omega

theorem sendtoLine_bounded (hplat : Platform.Fits plat) {fd : Int} (buf : Bytes) {dest : SockAddr}
    (rc : Int) {saved : Int} (hf : IsInt fd) (ha : FamilyIsInt dest) (he : IsInt saved) :
    Bounded (sendtoLine plat fd buf dest rc saved) := by
  have hfam := (family_isInt hplat ha).fmtD
  have herr : IsInt (if rc < 0 then saved else 0) := by
    split
    · exact he
    · exact ⟨by decide, by decide⟩
  have hip : (dest.text plat (ascii "?")).1.length ≤ 45 := text_length hplat (by simp [ascii]) dest
  unfold sendtoLine
  cases hx : dest.text plat (ascii "?") with
  | mk ip port =>
    replace hip : ip.length ≤ 45 := by rwa [hx] at hip
    generalize dest.family plat = family at hfam ⊢
    generalize (if rc < 0 then saved else 0) = e at herr ⊢
    have hf := hf.fmtD
    have herr := herr.fmtD
    have hport := fmtU_uint16 port
    have hlen := fmtD_castInt buf.length
    have hrc := fmtD_castInt rc
    have hhdr : (Line.sent (snprintf 80 (txHdr buf))).length ≤ 80 := sent_length_le (by decide) _
    have hlit : (ascii "[TX] fd=").length + (ascii " fam=").length + (ascii " to=").length +
        (ascii ":").length + (ascii " len=").length + (ascii " rc=").length +
        (ascii " errno=").length + (ascii "\n").length = 35 := rfl
    apply snprintf_bounded (by decide)
    simp only [List.length_append]
    omega

theorem recvfromLine_bounded {fd : Int} (buf : Bytes) (port : UInt16) (a b c d : UInt8) (rc : Int)
    (hf : IsInt fd) : Bounded (recvfromLine fd buf port a b c d rc) := by
  have hf := hf.fmtD
  have hip := inetNtop4_length a b c d
  have hport := fmtU_uint16 port
  have hrc := fmtD_castInt rc
  unfold recvfromLine
  generalize (if rc ≥ 28 then cipherHopsVerb buf else []) = hdr
  have hhdr : (Line.sent (snprintf 64 hdr)).length ≤ 64 := sent_length_le (by decide) hdr
  apply snprintf_bounded (by decide)
  simp [ascii]
  omega

theorem closeLine_bounded {fd : Int} (hf : IsInt fd) : Bounded (closeLine fd) := by
  have hf := hf.fmtD
  apply snprintf_bounded (by decide)
  simp [ascii]
  omega

theorem setsockoptLine_bounded {fd level name errno : Int} (hf : IsInt fd) (hl : IsInt level)
    (hn : IsInt name) (he : IsInt errno) : Bounded (setsockoptLine fd level name errno) := by
  have hf := hf.fmtD
  have hl := hl.fmtD
  have hn := hn.fmtD
  have he := he.fmtD
  apply snprintf_bounded (by decide)
  simp [ascii]
  omega

/-- `what` is cut to its buffer of 48 bytes before. -/
theorem haltLine_bounded {what : Bytes} (h : what.length ≤ 48) (t : Thread) :
    Bounded (haltLine what t) := by
  apply snprintf_bounded (by decide)
  by_cases ht : t = .main <;> simp [ascii, ht] <;> omega

theorem fmtX_uint32 (n : UInt32) : (fmtX 0 n.toNat).length ≤ 8 := by
  have hd := (Nat.length_toDigits_le_iff (b := 16) (by decide) (by decide : 0 < 8)).mpr n.toNat_lt
  simpa [fmtX] using hd

theorem fmtX_uint64 (n : UInt64) : (fmtX 16 n.toNat).length = 16 :=
  fmtX_length (by decide) n.toNat_lt

theorem faultLine_bounded (ctx : ThreadExceptionDump) : Bounded (faultLine ctx) := by
  have hdesc := fmtX_uint32 ctx.errorDesc
  have hesr : (fmtX 8 ctx.esr.toNat).length = 8 := fmtX_length (by decide) ctx.esr.toNat_lt
  have hpc := fmtX_uint64 ctx.pc
  have hlr := fmtX_uint64 ctx.lr
  have hsp := fmtX_uint64 ctx.sp
  have hfar := fmtX_uint64 ctx.far
  apply snprintf_bounded (by decide)
  simp [ascii]
  omega

theorem registerText_length (ctx : ThreadExceptionDump) {i : Nat} (hi : i < 100) :
    (registerText ctx i).length ≤ 22 := by
  have hd : (fmtD i).length ≤ 3 := fmtD_length (by decide) (by omega)
  have hx := fmtX_uint64 (ctx.gpr i)
  simp [registerText, fmtDLeft, ascii]
  omega

theorem registerLine_bounded (ctx : ThreadExceptionDump) {i : Nat} (hi : i < 97) :
    Bounded (registerLine ctx i) := by
  have h₀ := registerText_length ctx (by omega : i < 100)
  have h₁ := registerText_length ctx (by omega : i + 1 < 100)
  have h₂ := registerText_length ctx (by omega : i + 2 < 100)
  have h₃ := registerText_length ctx (by omega : i + 3 < 100)
  apply snprintf_bounded (by decide)
  simp [ascii]
  omega

theorem exceptionLines_bounded (ctx : ThreadExceptionDump) :
    ∀ l ∈ exceptionLines ctx, Bounded l := by
  intro l hl
  rcases List.mem_cons.mp hl with he | hmem
  · subst he
    exact faultLine_bounded ctx
  · obtain ⟨k, hk, he⟩ := List.mem_map.mp hmem
    subst he
    rw [List.mem_range] at hk
    exact registerLine_bounded ctx (by omega)

theorem stateNames_length {name : Bytes} (h : name ∈ stateNames) : name.length ≤ 15 := by
  simp only [stateNames, List.mem_cons, List.not_mem_nil, or_false] at h
  rcases h with h | h | h | h <;> subst h <;> decide

theorem stateLine_bounded {stat : Bytes → Option Int}
    (hs : ∀ path, ∀ n ∈ stat path, n.natAbs < 2 ^ 64) {name : Bytes} (hn : name ∈ stateNames) :
    Bounded (stateLine stat name) := by
  have hname := stateNames_length hn
  unfold stateLine
  split
  · rename_i size hsize
    have hd : (fmtD size).length ≤ 21 :=
      fmtD_length (by decide) (Nat.lt_trans (hs _ size hsize) (by decide))
    apply snprintf_bounded (by decide)
    simp [ascii]
    omega
  · apply snprintf_bounded (by decide)
    simp [ascii]
    omega

end Lines

/-- What the loop of `getSecureRandom` makes of a text, the buffer aside. -/
def randLoop (line : Bytes) : Bytes → Bytes
  | [] => line
  | b :: bs =>
    if line.length > 0 ∧ line.length < 128 - 4 then
      randLoop (line ++ ascii " " ++ fmtX 2 b.toNat) bs
    else line

/-- What stands in the buffer of the random source: a text and its terminator. -/
def Holds (l : Line) (text : Bytes) : Prop := l.stored = text ++ [0] ∧ l.len = text.length

theorem snprintf_holds {size : Nat} {text : Bytes} (h : text.length < size) :
    Holds (snprintf size text) text := by
  refine ⟨?_, rfl⟩
  rw [snprintf, List.take_of_length_le (by omega)]

theorem snprintfMore_holds {size : Nat} {l : Line} {text more : Bytes} (h : Holds l text)
    (hfits : text.length + more.length < size) :
    Holds (snprintfMore size l more) (text ++ more) := by
  obtain ⟨hs, hl⟩ := h
  have hm : (snprintf (size - l.len) more).stored = more ++ [0] :=
    (snprintf_holds (by omega : more.length < size - l.len)).1
  refine ⟨?_, ?_⟩
  · rw [snprintfMore, hm, hs, hl, List.take_left', List.append_assoc]
    rfl
  · simp [snprintfMore, hl]

/-- The loop keeps `off` and the buffer together: its guard leaves room for what a turn
prints. -/
theorem randBuf_holds {l : Line} {text : Bytes} (h : Holds l text) (bs : Bytes) :
    Holds (randBuf l bs) (randLoop text bs) := by
  induction bs generalizing l text with
  | nil => exact h
  | cons b bs ih =>
    rw [randBuf, randLoop, h.2]
    split
    · rename_i hroom
      have hx : (fmtX 2 b.toNat).length = 2 := fmtX_length (by decide) b.toNat_lt
      have hturn : (ascii " " ++ fmtX 2 b.toNat).length = 3 := by simp [ascii, hx]
      rw [List.append_assoc]
      exact ih (snprintfMore_holds h (by omega))
    · exact h

theorem randLine_holds {seq : UInt32} {drawn : Bytes} (h : drawn.length < 2 ^ 32) :
    let text := randLoop (ascii "[RAND] #" ++ fmtU seq.toNat ++ ascii " n=" ++
      fmtU drawn.length ++ ascii ":") (drawn.take 8)
    randLine seq drawn = if text.length > 0 ∧ text.length < 128 - 2 then
      some ⟨text ++ ascii "\n", text.length + 1⟩ else none := by
  intro text
  have hseq := fmtU_uint32 seq
  have hn := fmtU_length_le h
  have hstart : Holds (snprintf 128 (ascii "[RAND] #" ++ fmtU seq.toNat ++ ascii " n=" ++
      fmtU drawn.length ++ ascii ":")) (ascii "[RAND] #" ++ fmtU seq.toNat ++ ascii " n=" ++
      fmtU drawn.length ++ ascii ":") := by
    apply snprintf_holds
    simp [ascii]
    omega
  obtain ⟨hs, hl⟩ := randBuf_holds hstart (drawn.take 8)
  simp only [randLine, hs, hl, List.take_left']
  rfl

theorem randLine_bounded {seq : UInt32} {drawn : Bytes} (h : drawn.length < 2 ^ 32) :
    ∀ l ∈ randLine seq drawn, Bounded l := by
  intro l hl
  rw [randLine_holds h] at hl
  split at hl
  · cases hl
    simp [Bounded, ascii]
  · cases hl

/-- Two processes with the same log file. -/
structure SameLog (s t : Proc) : Prop where
  gLog : t.gLog = s.gLog
  buffer : t.gLogBuffer = s.gLogBuffer
  file : t.logFile = s.logFile

theorem SameLog.refl (s : Proc) : SameLog s s := ⟨rfl, rfl, rfl⟩

theorem SameLog.after (s : Proc) (real : Outcome) : SameLog s (s.after real) := ⟨rfl, rfl, rfl⟩

theorem SameLog.count {s t : Proc} (h : SameLog s t) (f : Stats → Stats) : SameLog s (t.count f) :=
  ⟨h.gLog, h.buffer, h.file⟩

theorem logLines_nil (s : Proc) (io : FileIo) : s.logLines io [] = s := rfl

theorem logLines_one (s : Proc) (io : FileIo) (line : Line) :
    s.logLines io [line] = s.logLine io line := rfl

/-- From `s` to `u` the log got these lines, one after the other. -/
def Logs (s : Proc) (io : FileIo) (lines : List Line) (u : Proc) : Prop :=
  ∃ t, SameLog s t ∧ SameLog (t.logLines io lines) u

section Wrappers
variable (plat : Platform) (s : Proc) (io : FileIo) (real : Outcome)

theorem wrapPthreadCreate_logs (attr : Bool) (original : UInt32) :
    Logs s io ((Call.pthreadCreate io attr original real).lines plat s)
      (wrapPthreadCreate io attr original real s).2 := by
  refine ⟨s.after real, .after s real, ?_⟩
  cases attr <;> exact .refl _

theorem wrapFopen_logs (path mode : Option Bytes) :
    Logs s io ((Call.fopen io path mode real).lines plat s) (wrapFopen io path mode real s).2 := by
  refine ⟨s.after real, .after s real, ?_⟩
  exact .refl _

theorem wrapSocket_logs (domain type protocol : Int) :
    Logs s io ((Call.socket io domain type protocol real).lines plat s)
      (wrapSocket io domain type protocol real s).2 := by
  have hn := (SameLog.after s real).count fun t => { t with gSockN := t.gSockN + 1 }
  simp only [wrapSocket, Call.lines]
  by_cases hfd : real.rc < 0
  · refine ⟨_, hn.count fun t => { t with gSockFail := t.gSockFail + 1 }, ?_⟩
    simp only [if_pos hfd, logLines_one, count_errno]
    exact .refl _
  · refine ⟨_, hn, ?_⟩
    simp only [if_neg hfd, logLines_one]
    exact .refl _

theorem wrapBind_logs (fd : Int) (addr : Option SockAddr) :
    Logs s io ((Call.bind io fd addr real).lines plat s) (wrapBind plat io fd addr real s).2 := by
  have hn := (SameLog.after s real).count fun t => { t with gBindN := t.gBindN + 1 }
  simp only [wrapBind, Call.lines]
  by_cases hrc : real.rc ≠ 0
  · refine ⟨_, hn.count fun t => { t with gBindFail := t.gBindFail + 1 }, ?_⟩
    simp only [if_pos hrc, logLines_one, count_errno]
    exact .refl _
  · refine ⟨_, hn, ?_⟩
    simp only [if_neg hrc, logLines_one]
    exact .refl _

theorem wrapSendto_logs (fd : Int) (buf : Bytes) (dest : Option SockAddr) :
    Logs s io ((Call.sendto io fd buf dest real).lines plat s)
      (wrapSendto plat io fd buf dest real s).2 := by
  have hn := (SameLog.after s real).count fun t =>
    t.countSend real.rc ((dest.map SockAddr.isRoot).getD false)
  cases dest with
  | none => exact ⟨_, hn, .refl _⟩
  | some dest =>
    simp only [wrapSendto, Call.lines, Option.map_some, Option.getD_some, count_stats,
      countSend_txLogSeq, after_stats] at hn ⊢
    by_cases hsend : dest.isRoot = true ∨ real.rc < 0
    · have hlog := hn.count fun t => { t with gTxLogSeq := t.gTxLogSeq + 1 }
      by_cases hseq : s.stats.gTxLogSeq < 600
      · refine ⟨_, hlog, ?_⟩
        simp only [hsend, hseq, and_self, if_true, logLines_one]
        exact .refl _
      · refine ⟨_, hlog, ?_⟩
        simp only [hsend, hseq, and_false, if_true, if_false, logLines_nil]
        exact .refl _
    · refine ⟨_, hn, ?_⟩
      simp only [hsend, false_and, if_false, logLines_nil]
      exact .refl _

theorem wrapRecvfrom_logs (fd : Int) (out : Received) :
    Logs s io ((Call.recvfrom io fd real out).lines plat s) (wrapRecvfrom io fd real out s).2 := by
  have hn := (SameLog.after s real).count fun t => { t with gRecvCalls := t.gRecvCalls + 1 }
  by_cases hrc : real.rc > 0
  · have hlog := (hn.count fun t =>
      t.countReceived ((out.src.map SockAddr.isRoot).getD false)).count fun t =>
        { t with gRecvLogSeq := t.gRecvLogSeq + 1 }
    refine ⟨_, hlog, ?_⟩
    simp only [wrapRecvfrom, Call.lines, hrc, if_true, true_and, count_stats,
      countReceived_recvLogSeq, after_stats]
    rcases out.src with _ | ⟨port, a, b, c, d⟩ | _ | _
    case some.inet =>
      by_cases hseq : s.stats.gRecvLogSeq < 300
      · simp only [hseq, if_true, logLines_one]
        exact .refl _
      · simp only [hseq, if_false, logLines_nil]
        exact .refl _
    all_goals exact .refl _
  · have hlines : (Call.recvfrom io fd real out).lines plat s = [] := by
      simp only [Call.lines, hrc, false_and, if_false]
      split <;> rfl
    rw [hlines]
    by_cases hempty : real.rc = 0
    · refine ⟨_, hn.count fun t => { t with gRecvEmpty := t.gRecvEmpty + 1 }, ?_⟩
      simp only [wrapRecvfrom, hempty, if_true, logLines_nil]
      exact .refl _
    · refine ⟨_, (hn.count fun t => { t with gRecvErr := t.gRecvErr + 1 }).count fun t =>
        { t with gRecvErrno := UInt32.ofInt (s.after real).errno }, ?_⟩
      simp only [wrapRecvfrom, hrc, hempty, if_false, logLines_nil]
      exact .refl _

theorem wrapClose_logs (fd : Int) :
    Logs s io ((Call.close io fd real).lines plat s) (wrapClose io fd real s).2 := by
  have hn := (SameLog.refl s).count fun t => { t with gCloseSeq := t.gCloseSeq + 1 }
  refine ⟨_, hn, ?_⟩
  simp only [wrapClose, Call.lines]
  split
  · exact .after _ real
  · exact .after _ real

theorem wrapSetsockopt_logs (fd level name : Int) :
    Logs s io ((Call.setsockopt io fd level name real).lines plat s)
      (wrapSetsockopt io fd level name real s).2 := by
  have hn := SameLog.after s real
  simp only [wrapSetsockopt, Call.lines, after_stats]
  by_cases hrc : real.rc ≠ 0
  · have hfail := hn.count fun t => { t with gSockoptFail := t.gSockoptFail + 1 }
    refine ⟨_, hfail, ?_⟩
    by_cases hseq : s.stats.gSockoptFail < 6
    · simp only [if_pos hrc, hseq, and_true, if_true, logLines_one, count_errno]
      exact .refl _
    · simp only [if_pos hrc, hseq, and_false, if_false, logLines_nil]
      exact .refl _
  · refine ⟨_, hn, ?_⟩
    simp only [hrc, false_and, if_false, logLines_nil]
    exact .refl _

theorem wrapGetSecureRandom_logs (drawn : Bytes) :
    Logs s io ((Call.getSecureRandom io drawn).lines plat s) (wrapGetSecureRandom io drawn s) := by
  have hn := (SameLog.refl s).count fun t => { t with gRandSeq := t.gRandSeq + 1 }
  refine ⟨_, hn, ?_⟩
  simp only [wrapGetSecureRandom, Call.lines]
  split
  · cases randLine s.stats.gRandSeq drawn with
    | none => exact .refl _
    | some line => exact .refl _
  · exact .refl _

end Wrappers

/-- A call that logs does to the log what `log_write` does with its lines. -/
theorem step_logs (plat : Platform) (s : Proc) {c : Call} {io : FileIo} (h : c.logIo = some io) :
    ∃ u, s.step plat c = some u ∧ Logs s io (c.lines plat s) u := by
  cases c <;> cases h
  case pthreadCreate attr original real => exact ⟨_, rfl, wrapPthreadCreate_logs plat s io real _ _⟩
  case fopen path mode real => exact ⟨_, rfl, wrapFopen_logs plat s io real _ _⟩
  case socket domain type protocol real => exact ⟨_, rfl, wrapSocket_logs plat s io real _ _ _⟩
  case bind fd addr real => exact ⟨_, rfl, wrapBind_logs plat s io real _ _⟩
  case sendto fd buf dest real => exact ⟨_, rfl, wrapSendto_logs plat s io real _ _ _⟩
  case recvfrom fd real out => exact ⟨_, rfl, wrapRecvfrom_logs plat s io real _ _⟩
  case close fd real => exact ⟨_, rfl, wrapClose_logs plat s io real _⟩
  case setsockopt fd level name real => exact ⟨_, rfl, wrapSetsockopt_logs plat s io real _ _ _⟩
  case getSecureRandom drawn => exact ⟨_, rfl, wrapGetSecureRandom_logs plat s io _⟩

/-- `diag_halt` hands its line to `log_write` and then, with the same length, to
`__wrap__write_r`. -/
theorem diagHalt_logs (io io' : FileIo) (t : Thread) (what : Bytes) {s : Proc}
    (h : s.gExiting = false) :
    diagHalt io io' t what s = some (if (haltLine what t).len > 0 then
      wrapWriteR io' t stdoutFileno (((haltLine what t).stored ++ io.behind).take
        (haltLine what t).len) (s.logLines io [haltLine what t])
      else s.logLines io [haltLine what t]) := by
  rw [diagHalt, h]
  rfl

/-- What a call is given, and `errno` after it, are values of their C types. -/
def CallTyped (s : Proc) : Call → Prop
  | .pthreadCreate _ _ _ real => IsInt real.rc
  | .socket _ domain type protocol real =>
    IsInt domain ∧ IsInt type ∧ IsInt protocol ∧ IsInt real.rc ∧ IsInt (s.after real).errno
  | .bind _ fd addr real =>
    IsInt fd ∧ (∀ a ∈ addr, FamilyIsInt a) ∧ IsInt real.rc ∧ IsInt (s.after real).errno
  | .sendto _ fd _ dest real =>
    IsInt fd ∧ (∀ a ∈ dest, FamilyIsInt a) ∧ IsInt (s.after real).errno
  | .recvfrom _ fd _ _ => IsInt fd
  | .close _ fd _ => IsInt fd
  | .setsockopt _ fd level name real =>
    IsInt fd ∧ IsInt level ∧ IsInt name ∧ IsInt (s.after real).errno
  | .getSecureRandom _ drawn => drawn.length < 2 ^ 32
  | _ => True

def Typed : Logging → Prop
  | .call s c => CallTyped s c
  | .exception _ => True
  | .stateFiles stat => ∀ path, ∀ n ∈ stat path, n.natAbs < 2 ^ 64

/-- Only `fopen` prints texts of any length, and they have room for so many bytes. -/
def FitsLine : Logging → Prop
  | .call _ (.fopen _ path mode real) =>
    (path.getD (ascii "(null)")).length + (mode.getD (ascii "?")).length +
      (if real.rc ≠ 0 then 2 else 4) ≤ 203
  | _ => True

theorem fopenText_length (path mode : Option Bytes) (ok : Bool) :
    (fopenText path mode ok).length = (path.getD (ascii "(null)")).length +
      (mode.getD (ascii "?")).length + (if ok then 2 else 4) + 21 := by
  have hlit : (ascii "[FILE] fopen(").length + (ascii ", ").length + (ascii ") -> ").length +
      (ascii "\n").length = 21 := rfl
  have hok : (ascii "ok").length = 2 := rfl
  have hfail : (ascii "FAIL").length = 4 := rfl
  simp only [fopenText, List.length_append]
  split <;> omega

/-- Every line but that of `fopen` has room for whatever it can print. -/
theorem lines_bounded {plat : Platform} (hplat : Platform.Fits plat) {s : Proc} {c : Call}
    (ht : CallTyped s c) (hc : ∀ io path mode real, c ≠ .fopen io path mode real) :
    ∀ l ∈ c.lines plat s, Bounded l := by
  intro l hl
  cases c with
  | writeR | consoleUpdate | select | mkdir => cases hl
  | fopen io path mode real => exact absurd rfl (hc io path mode real)
  | pthreadCreate io attr original real =>
    simp only [Call.lines] at hl
    split at hl
    · cases hl
    · rw [List.mem_singleton.mp hl]
      exact pthreadCreateLine_bounded original ht
  | socket io domain type protocol real =>
    obtain ⟨hd, hy, hp, hr, he⟩ := ht
    rw [List.mem_singleton.mp hl]
    exact socketLine_bounded hd hy hp hr he
  | bind io fd addr real =>
    obtain ⟨hf, ha, hr, he⟩ := ht
    rw [List.mem_singleton.mp hl]
    exact bindLine_bounded hplat hf ha hr he
  | sendto io fd buf dest real =>
    obtain ⟨hf, ha, he⟩ := ht
    cases dest with
    | none => cases hl
    | some dest =>
      simp only [Call.lines] at hl
      split at hl
      · rw [List.mem_singleton.mp hl]
        exact sendtoLine_bounded hplat buf real.rc hf (ha dest rfl) he
      · cases hl
  | recvfrom io fd real out =>
    simp only [Call.lines] at hl
    split at hl
    · split at hl
      · rw [List.mem_singleton.mp hl]
        exact recvfromLine_bounded _ _ _ _ _ _ _ ht
      · cases hl
    · cases hl
  | close io fd real =>
    simp only [Call.lines] at hl
    split at hl
    · rw [List.mem_singleton.mp hl]
      exact closeLine_bounded ht
    · cases hl
  | setsockopt io fd level name real =>
    obtain ⟨hf, hlv, hn, he⟩ := ht
    simp only [Call.lines] at hl
    split at hl
    · rw [List.mem_singleton.mp hl]
      exact setsockoptLine_bounded hf hlv hn he
    · cases hl
  | getSecureRandom io drawn =>
    simp only [Call.lines] at hl
    split at hl
    · exact randLine_bounded ht l (Option.mem_toList.mp hl)
    · cases hl
  | abort io io' t =>
    simp only [Call.lines] at hl
    split at hl
    · cases hl
    · rw [List.mem_singleton.mp hl]
      exact haltLine_bounded (by decide) t
  | exit io io' t name code =>
    simp only [Call.lines] at hl
    split at hl
    · cases hl
    · rw [List.mem_singleton.mp hl]
      exact haltLine_bounded (sent_length_le (by decide) _) t

/-- A line is read past its end for exactly the calls of `fopen` whose text is too long. -/
theorem lines_bounded_iff {plat : Platform} (hplat : Platform.Fits plat) {x : Logging}
    (ht : Typed x) : (∀ l ∈ x.lines plat, Bounded l) ↔ FitsLine x := by
  cases x with
  | exception ctx => exact ⟨fun _ => trivial, fun _ => exceptionLines_bounded ctx⟩
  | stateFiles stat =>
    refine ⟨fun _ => trivial, ?_⟩
    intro _ l hl
    obtain ⟨name, hn, he⟩ := List.mem_map.mp hl
    subst he
    exact stateLine_bounded ht hn
  | call s c =>
    have hother := lines_bounded hplat (s := s) (c := c) ht
    cases c with
    | fopen io path mode real =>
      simp only [Logging.lines, Call.lines, List.mem_singleton, forall_eq, FitsLine]
      rw [fopenLine, snprintf_bounded_iff (by decide), fopenText_length]
      by_cases hr : real.rc ≠ 0 <;> simp [hr]
    | _ =>
      exact ⟨fun _ => trivial, fun _ => hother (by simp)⟩

def configOpen : Logging := .call .booted (.fopen .fine
  (some (ascii "sdmc:/config/zerotier-switch/network_id.txt")) (some (ascii "r")) ⟨1, none⟩)

theorem lines_bounded_fopen : FitsLine configOpen ∧
    ∀ l ∈ configOpen.lines ⟨10, fun _ => ascii "::1"⟩, Bounded l := by
  have hplat : Platform.Fits ⟨10, fun _ => ascii "::1"⟩ :=
    ⟨⟨by decide, by decide⟩, fun _ => by simp [ascii]⟩
  have hfits : FitsLine configOpen := by simp [configOpen, FitsLine, ascii]
  refine ⟨hfits, (lines_bounded_iff hplat ?_).mpr hfits⟩
  trivial

/-- Of a path too long the buffer of `fopen` keeps 223 bytes, and its text goes on. -/
theorem long_text_overreads {path mode : Option Bytes} {ok : Bool}
    (h : 224 < (fopenText path mode ok).length) :
    (fopenLine path mode ok).stored.length = 224 := by
  rw [fopenLine, snprintf, List.length_append, List.length_take, List.length_singleton]
  omega

/-- A path of 300 bytes: 326 bytes are read of a buffer of 224. -/
theorem long_path_overreads : ∃ l ∈ (Logging.call .booted (.fopen .fine
    (some (List.replicate 300 (charByte 'a'))) (some (ascii "r")) ⟨0, none⟩)).lines
      ⟨10, fun _ => ascii "::1"⟩, l.len = 326 ∧ l.stored.length = 224 ∧ ¬ Bounded l := by
  have hlen : (fopenText (some (List.replicate 300 (charByte 'a'))) (some (ascii "r"))
      false).length = 326 := by
    rw [fopenText_length, Option.getD_some, List.length_replicate]
    rfl
  have hstored := long_text_overreads (by rw [hlen]; decide : 224 < (fopenText
    (some (List.replicate 300 (charByte 'a'))) (some (ascii "r")) false).length)
  refine ⟨fopenLine _ _ false, List.mem_singleton.mpr rfl, hlen, hstored, ?_⟩
  rw [Bounded, hstored]
  exact Nat.not_le.mpr (Nat.lt_of_lt_of_eq (by decide) hlen.symm)

end SwitchLdnZt.Proofs.LineBounds
