import Mathlib.Data.List.Basic
import SwitchLdnZt.Library.Fields
import SwitchLdnZt.Proofs.LineBounds

namespace SwitchLdnZt.Proofs.LogTells
open Library Compat LineBounds

/-- The counters that `zt_net_stats` prints, in its order. -/
def netCounters (t : Stats) : List UInt32 :=
  [t.gTxOk, t.gTxFail, t.gRxOk, t.gTxRoot, t.gRxRoot, t.gSockN, t.gSockFail, t.gRecvCalls,
    t.gRecvEmpty, t.gRecvErr, t.gRecvErrno, t.gSelCalls, t.gSelReady, t.gSelErr]

def netSeps : List Bytes :=
  [ascii "tx=", ascii "(-", ascii ") rx=", ascii " root_tx=", ascii " root_rx=", ascii " sock=",
    ascii "(-", ascii ") recv=", ascii "(e", ascii "/err", ascii "/e#", ascii ") sel=",
    ascii "(r", ascii "/e", ascii ")"]

def decimals (ns : List UInt32) : List Bytes := ns.map (fun n => fmtU n.toNat)

theorem netStatsText_eq (t : Stats) :
    netStatsText t = weave netSeps (decimals (netCounters t)) := by
  unfold netStatsText
  simp only [netSeps, decimals, netCounters, List.map_cons, List.map_nil, weave_cons, weave_nil,
    List.flatten_cons, List.flatten_nil, List.append_nil, List.append_assoc]

theorem decimals_length (ns : List UInt32) : (decimals ns).flatten.length ≤ 10 * ns.length := by
  induction ns with
  | nil => exact Nat.le_refl 0
  | cons n ns ih =>
    have hn := fmtU_uint32 n
    simp only [decimals, List.map_cons, List.flatten_cons, List.length_append,
      List.length_cons] at *
    omega

theorem decimals_injective {ms ns : List UInt32} (h : decimals ms = decimals ns) : ms = ns := by
  have hinj : Function.Injective (fun n : UInt32 => fmtU n.toNat) :=
    fun m n hmn => UInt32.toNat_inj.mp (fmtU_injective hmn)
  exact hinj.list_map h

/-- The main loop's buffer holds the whole line. -/
theorem netStatsText_fits (t : Stats) : (netStatsText t).length < 256 := by
  have hfields := decimals_length (netCounters t)
  have hseps : netSeps.flatten.length = 63 := by decide +kernel
  have hlen : (netCounters t).length = 14 := rfl
  rw [netStatsText_eq, weave_length _ _ (by simp [decimals, netSeps, netCounters]), hseps]
  omega

/-- The line of `zt_net_stats` is never cut in the 256 bytes of its caller, and tells all
fourteen counters. -/
theorem net_stats_tells (s t : Stats) : (ztNetStats 256 s).stored = netStatsText s ++ [0] ∧
    ((ztNetStats 256 s).stored = (ztNetStats 256 t).stored ↔ netCounters s = netCounters t) := by
  refine ⟨?_, ?_, ?_⟩
  · have hfits := netStatsText_fits s
    rw [ztNetStats, snprintf, List.take_of_length_le (by omega)]
  · intro h
    have htext := stored_injective (netStatsText_fits s) (netStatsText_fits t) h
    rw [netStatsText_eq, netStatsText_eq] at htext
    have hdecimal (ns : List UInt32) : ∀ f ∈ decimals ns, ∀ b ∈ f, isDecimal b = true := by
      intro f hf
      obtain ⟨n, -, rfl⟩ := List.mem_map.mp hf
      exact fmtU_decimal n.toNat
    apply decimals_injective
    exact weave_injective (by decide +kernel) rfl rfl (hdecimal _) (hdecimal _) htext
  · intro h
    rw [ztNetStats, ztNetStats, netStatsText_eq, netStatsText_eq, h]

/-- What stands before a register's value; four of them make a line. -/
def gprSep (i : Nat) : Bytes :=
  (if i % 4 = 0 then ascii "\n[FAULT]" else []) ++ ascii " x" ++ fmtDLeft 2 i ++ ascii "="

def faultSeps : List Bytes :=
  [ascii "\n[FAULT] desc=0x", ascii " esr=0x", ascii " pc=", ascii " lr=", ascii " sp=",
    ascii " far="] ++ (List.range 32).map gprSep ++ [ascii "\n"]

def faultFields (ctx : ThreadExceptionDump) : List Bytes :=
  [fmtX 0 ctx.errorDesc.toNat, fmtX 8 ctx.esr.toNat, fmtX 16 ctx.pc.toNat, fmtX 16 ctx.lr.toNat,
    fmtX 16 ctx.sp.toNat, fmtX 16 ctx.far.toNat] ++
    (List.range 32).map (fun i => fmtX 16 (ctx.gpr i).toNat)

theorem registerLine_sent (ctx : ThreadExceptionDump) {i : Nat} (hi : i < 97) :
    Line.sent (registerLine ctx i) = ascii "[FAULT]" ++ registerText ctx i ++
      registerText ctx (i + 1) ++ registerText ctx (i + 2) ++ registerText ctx (i + 3) ++
      ascii "\n" := by
  have h₀ := registerText_length ctx (by omega : i < 100)
  have h₁ := registerText_length ctx (by omega : i + 1 < 100)
  have h₂ := registerText_length ctx (by omega : i + 2 < 100)
  have h₃ := registerText_length ctx (by omega : i + 3 < 100)
  apply sent_of_fits
  simp [ascii]
  omega

theorem faultLine_sent (ctx : ThreadExceptionDump) : Line.sent (faultLine ctx) =
    ascii "\n[FAULT] desc=0x" ++ fmtX 0 ctx.errorDesc.toNat ++ ascii " esr=0x" ++
      fmtX 8 ctx.esr.toNat ++ ascii " pc=" ++ fmtX 16 ctx.pc.toNat ++ ascii " lr=" ++
      fmtX 16 ctx.lr.toNat ++ ascii " sp=" ++ fmtX 16 ctx.sp.toNat ++ ascii " far=" ++
      fmtX 16 ctx.far.toNat ++ ascii "\n" := by
  have hdesc := fmtX_uint32 ctx.errorDesc
  have hesr : (fmtX 8 ctx.esr.toNat).length = 8 := fmtX_length (by decide) ctx.esr.toNat_lt
  have hpc := fmtX_uint64 ctx.pc
  have hlr := fmtX_uint64 ctx.lr
  have hsp := fmtX_uint64 ctx.sp
  have hfar := fmtX_uint64 ctx.far
  apply sent_of_fits
  simp [ascii]
  omega

/-- A register and what stands before it, as the line that it is in has it. -/
theorem gpr_text (ctx : ThreadExceptionDump) (i : Nat) : gprSep i ++ fmtX 16 (ctx.gpr i).toNat =
    (if i % 4 = 0 then ascii "\n[FAULT]" else []) ++ registerText ctx i := by
  rw [gprSep, registerText]
  simp only [List.append_assoc]

theorem registers_eq (ctx : ThreadExceptionDump) :
    (List.range 32).flatMap (fun i => gprSep i ++ fmtX 16 (ctx.gpr i).toNat) ++ ascii "\n" =
      ascii "\n" ++ (List.range 8).flatMap (fun k => Line.sent (registerLine ctx (4 * k))) := by
  have hnewline : ascii "\n[FAULT]" = ascii "\n" ++ ascii "[FAULT]" := rfl
  have hline : ∀ k ∈ List.range 8, Line.sent (registerLine ctx (4 * k)) =
      ascii "[FAULT]" ++ registerText ctx (4 * k) ++ registerText ctx (4 * k + 1) ++
        registerText ctx (4 * k + 2) ++ registerText ctx (4 * k + 3) ++ ascii "\n" := by
    intro k hk
    rw [List.mem_range] at hk
    exact registerLine_sent ctx (by omega)
  have hfours := flatMap_fours 8 (fun i => gprSep i ++ fmtX 16 (ctx.gpr i).toNat)
  rw [show 4 * 8 = 32 from rfl] at hfours
  rw [hfours, List.flatMap_congr hline, ← flatMap_turn]
  refine congrArg (· ++ ascii "\n") (List.flatMap_congr ?_)
  intro k _
  have h₀ : (4 * k) % 4 = 0 := by omega
  have h₁ : ¬ (4 * k + 1) % 4 = 0 := by omega
  have h₂ : ¬ (4 * k + 2) % 4 = 0 := by omega
  have h₃ : ¬ (4 * k + 3) % 4 = 0 := by omega
  simp only [gpr_text, h₀, h₁, h₂, h₃, if_true, if_false, List.nil_append, hnewline,
    List.append_assoc]

/-- What the handler logs, as one text of separators and fields. -/
theorem exceptionLines_eq (ctx : ThreadExceptionDump) :
    (exceptionLines ctx).flatMap Line.sent = weave faultSeps (faultFields ctx) := by
  have hweave := weave_map (List.range 32) gprSep (fun i => fmtX 16 (ctx.gpr i).toNat)
    (ascii "\n")
  rw [registers_eq] at hweave
  rw [exceptionLines, List.flatMap_cons, List.flatMap_map, faultLine_sent]
  simp only [faultSeps, faultFields, List.cons_append, List.nil_append, weave_cons, hweave,
    List.append_assoc]

theorem faultFields_hex (ctx : ThreadExceptionDump) :
    ∀ f ∈ faultFields ctx, ∀ b ∈ f, isHex b = true := by
  intro f hf
  have hprinted : ∃ width n, f = fmtX width n := by
    simp only [faultFields, List.mem_append, List.mem_cons, List.not_mem_nil, or_false,
      List.mem_map] at hf
    rcases hf with (rfl | rfl | rfl | rfl | rfl | rfl) | ⟨i, -, rfl⟩ <;> exact ⟨_, _, rfl⟩
  obtain ⟨width, n, rfl⟩ := hprinted
  exact (fmtX_hex width n).1

theorem faultFields_injective {a b : ThreadExceptionDump} (h : faultFields a = faultFields b) :
    a = b := by
  obtain ⟨desc, esr, pc, lr, sp, far, gprs⟩ := a
  obtain ⟨desc', esr', pc', lr', sp', far', gprs'⟩ := b
  have hlong {n n' : UInt64} (h : fmtX 16 n.toNat = fmtX 16 n'.toNat) : n = n' :=
    UInt64.toNat_inj.mp (fmtX_injective h)
  simp only [faultFields, List.cons_append, List.nil_append, List.cons.injEq] at h
  obtain ⟨hdesc, hesr, hpc, hlr, hsp, hfar, hgprs⟩ := h
  rw [UInt32.toNat_inj.mp (fmtX_injective hdesc), UInt32.toNat_inj.mp (fmtX_injective hesr),
    hlong hpc, hlong hlr, hlong hsp, hlong hfar]
  congr 1
  funext i
  have hi := List.map_inj_left.mp hgprs i (List.mem_range.mpr (by omega))
  simpa [ThreadExceptionDump.gpr] using hlong hi

/-- The crash report that goes to the log tells the whole dump. -/
theorem fault_log_tells (a b : ThreadExceptionDump) :
    (exceptionLines a).flatMap Line.sent = (exceptionLines b).flatMap Line.sent ↔ a = b := by
  constructor
  · intro h
    rw [exceptionLines_eq, exceptionLines_eq] at h
    apply faultFields_injective
    exact weave_injective (by decide +kernel) (by simp [faultSeps, faultFields])
      (by simp [faultFields]) (faultFields_hex a) (faultFields_hex b) h
  · intro h
    rw [h]

end SwitchLdnZt.Proofs.LogTells
