import Mathlib.Algebra.Group.Int.Defs
import SwitchLdnZt.Patched.Now

namespace SwitchLdnZt.Proofs.MonotonicNow
open Patched

/-- The ticks from one reading to a later one. -/
def ticksSince (start tick : UInt64) : Nat :=
  tick.toNat - start.toNat

/-- Milliseconds that the ticks since `start` take, rounded down. -/
def elapsedMs (start tick : UInt64) : Nat :=
  ticksSince start tick * 625 / (12 * 1000000)

/-- The readings of a run that begins with `first`: its tick baseline is non-zero, no
tick reading is below the one before, and all stay near the first. -/
structure Steady (first : NowCall) (rest : List NowCall) : Prop where
  start : first.baseline ≠ 0
  ticks : (first.baseline :: (first :: rest).map NowCall.tick).Pairwise (· ≤ ·)
  near : ∀ c ∈ first :: rest, ticksSince first.baseline c.tick * 625 < 2 ^ 64

/-- The wall-clock reading of the first call, in milliseconds. -/
def baselineMs (first : NowCall) : Int :=
  1000 * first.tv0.tvSec.toInt + first.tv0.tvUsec.toInt.tdiv 1000

/-- No signed operation of the run leaves 64 bits. -/
structure Fits (first : NowCall) (rest : List NowCall) : Prop where
  seconds : -2 ^ 63 ≤ 1000 * first.tv0.tvSec.toInt ∧ 1000 * first.tv0.tvSec.toInt < 2 ^ 63
  baseline : -2 ^ 63 ≤ baselineMs first ∧ baselineMs first < 2 ^ 63
  sum : ∀ c ∈ first :: rest, baselineMs first + elapsedMs first.baseline c.tick < 2 ^ 63

theorem bmod_of_fits {n : Int} (hl : -2 ^ 63 ≤ n) (hu : n < 2 ^ 63) : n.bmod (2 ^ 64) = n :=
  Int.bmod_eq_of_le (by omega) (by omega)

theorem ms_toInt {first : NowCall} {rest : List NowCall} (h : Fits first rest) :
    first.tv0.ms.toInt = baselineMs first := by
  obtain ⟨hsl, hsu⟩ := h.seconds
  obtain ⟨hbl, hbu⟩ := h.baseline
  have hmul : (1000 * first.tv0.tvSec).toInt = 1000 * first.tv0.tvSec.toInt := by
    rw [Int64.toInt_mul]
    exact bmod_of_fits hsl hsu
  have hdiv : (first.tv0.tvUsec / 1000).toInt = first.tv0.tvUsec.toInt.tdiv 1000 :=
    Int64.toInt_div_of_ne_right _ _ (by decide)
  rw [Timeval.ms, Int64.toInt_add, hmul, hdiv]
  exact bmod_of_fits hbl hbu

/-- The two divisions of the code are one division of the elapsed ticks. -/
theorem armTicksToNs_ms {start tick : UInt64} (hle : start ≤ tick)
    (hnear : ticksSince start tick * 625 < 2 ^ 64) :
    (armTicksToNs (tick - start) / 1000000).toNat = elapsedMs start tick := by
  have hsub : (tick - start).toNat = ticksSince start tick := UInt64.toNat_sub_of_le _ _ hle
  have hns : (armTicksToNs (tick - start)).toNat = ticksSince start tick * 625 / 12 := by
    rw [armTicksToNs, UInt64.toNat_div, UInt64.toNat_mul, hsub]
    change ticksSince start tick * 625 % 2 ^ 64 / 12 = _
    rw [Nat.mod_eq_of_lt hnear]
  rw [UInt64.toNat_div, hns]
  exact Nat.div_div_eq_div_mul _ 12 1000000

theorem elapsed_toInt {start tick : UInt64} (hle : start ≤ tick)
    (hnear : ticksSince start tick * 625 < 2 ^ 64) :
    (armTicksToNs (tick - start) / 1000000).toInt64.toInt = elapsedMs start tick := by
  have hms := armTicksToNs_ms hle hnear
  have hsmall : 2 * elapsedMs start tick < 2 ^ 64 := by
    unfold elapsedMs
    omega
  rw [← Int64.toInt_toBitVec, UInt64.toBitVec_toInt64, BitVec.toInt_eq_toNat_of_lt]
  · exact congrArg Int.ofNat hms
  · rw [← hms] at hsmall
    exact hsmall

/-- A call after the first: it leaves the baselines and returns their sum with what elapsed. -/
theorem now_set {s : NowStatics} (h : s.tickBaseline ≠ 0) (c : NowCall) :
    now s c = (s, s.wallclockBaselineMs +
      (armTicksToNs (c.tick - s.tickBaseline) / 1000000).toInt64) := by
  simp [now, h]

theorem now_init (c : NowCall) : now .init c = now ⟨c.tv0.ms, c.baseline⟩ c := by
  by_cases h : c.baseline = 0 <;> simp [now, NowStatics.init, h]

theorem nows_set {s : NowStatics} (h : s.tickBaseline ≠ 0) (cs : List NowCall) :
    nows s cs = cs.map (fun c => s.wallclockBaselineMs +
      (armTicksToNs (c.tick - s.tickBaseline) / 1000000).toInt64) := by
  induction cs with
  | nil => rfl
  | cons c cs ih => simp only [nows, now_set h, ih, List.map_cons]

theorem nows_init {first : NowCall} (h : first.baseline ≠ 0) (rest : List NowCall) :
    nows .init (first :: rest) = (first :: rest).map (fun c => first.tv0.ms +
      (armTicksToNs (c.tick - first.baseline) / 1000000).toInt64) := by
  rw [nows, now_init, ← nows]
  exact nows_set (s := ⟨first.tv0.ms, first.baseline⟩) h _

/-- What each call returns, where nothing overflows. -/
theorem nows_toInt {first : NowCall} {rest : List NowCall} (h : Steady first rest)
    (hf : Fits first rest) :
    (nows .init (first :: rest)).map Int64.toInt =
      (first :: rest).map (fun c => baselineMs first + elapsedMs first.baseline c.tick) := by
  rw [nows_init h.start, List.map_map]
  apply List.map_congr_left
  intro c hc
  have hle : first.baseline ≤ c.tick :=
    List.rel_of_pairwise_cons h.ticks (List.mem_map_of_mem hc)
  have helapsed := elapsed_toInt hle (h.near c hc)
  have hbase := hf.baseline.1
  have hsum := hf.sum c hc
  rw [Function.comp, Int64.toInt_add, ms_toInt hf, helapsed]
  exact bmod_of_fits (by omega) hsum

theorem elapsedMs_mono {start t u : UInt64} (h : t ≤ u) :
    elapsedMs start t ≤ elapsedMs start u := by
  have hle : t.toNat ≤ u.toNat := h
  unfold elapsedMs ticksSince
  omega

theorem nows_mono {first : NowCall} {rest : List NowCall} (h : Steady first rest)
    (hf : Fits first rest) : (nows .init (first :: rest)).Pairwise (· ≤ ·) := by
  have hvalues : ((nows .init (first :: rest)).map Int64.toInt).Pairwise (· ≤ ·) := by
    rw [nows_toInt h hf, List.pairwise_map]
    have hticks := h.ticks.of_cons
    rw [List.pairwise_map] at hticks
    apply hticks.imp
    intro c d hcd
    have : elapsedMs first.baseline c.tick ≤ elapsedMs first.baseline d.tick := elapsedMs_mono hcd
    omega
  rw [List.pairwise_map] at hvalues
  apply hvalues.imp
  intro a b hab
  exact Int64.le_iff_toInt_le.mpr hab

/-- Later wall-clock readings change nothing. -/
theorem nows_ticks {first : NowCall} (h : first.baseline ≠ 0) {rest rest' : List NowCall}
    (hticks : rest'.map NowCall.tick = rest.map NowCall.tick) :
    nows .init (first :: rest') = nows .init (first :: rest) := by
  have hmap (cs : List NowCall) :
      cs.map (fun c => first.tv0.ms + (armTicksToNs (c.tick - first.baseline) / 1000000).toInt64) =
        (cs.map NowCall.tick).map
          (fun t => first.tv0.ms + (armTicksToNs (t - first.baseline) / 1000000).toInt64) := by
    simp [Function.comp_def]
  rw [nows_init h, nows_init h, List.map_cons, List.map_cons, hmap rest', hmap rest, hticks]

/-- The clock follows the ticks alone, and where nothing overflows it never goes back:
it is its baseline and the time that the ticks say has passed since. -/
theorem now_monotonic {first : NowCall} {rest : List NowCall} (h : Steady first rest) :
    (Fits first rest →
      (nows .init (first :: rest)).Pairwise (· ≤ ·) ∧
      (nows .init (first :: rest)).map Int64.toInt =
        (first :: rest).map (fun c => baselineMs first + elapsedMs first.baseline c.tick)) ∧
    ∀ rest' : List NowCall, rest'.map NowCall.tick = rest.map NowCall.tick →
      nows .init (first :: rest') = nows .init (first :: rest) :=
  ⟨fun hf => ⟨nows_mono h hf, nows_toInt h hf⟩, fun _ => nows_ticks h.start⟩

/-- A clock set back by an hour after the first call: 0.1 s of ticks later `now` is
100 ms later. -/
theorem now_monotonic_set_back :
    nows .init [⟨⟨1700000000, 250000⟩, 960, 970⟩, ⟨⟨1699996400, 0⟩, 0, 1920960⟩] =
        [1700000000250, 1700000000350] ∧
      (nows .init [⟨⟨1700000000, 250000⟩, 960, 970⟩, ⟨⟨1699996400, 0⟩, 0, 1920960⟩]).Pairwise
        (· ≤ ·) := by
  have hsteady : Steady ⟨⟨1700000000, 250000⟩, 960, 970⟩ [⟨⟨1699996400, 0⟩, 0, 1920960⟩] :=
    ⟨by decide, by decide, by decide⟩
  have hfits : Fits ⟨⟨1700000000, 250000⟩, 960, 970⟩ [⟨⟨1699996400, 0⟩, 0, 1920960⟩] :=
    ⟨by decide, by decide, by decide⟩
  exact ⟨by decide, ((now_monotonic hsteady).1 hfits).1⟩

/-- A wall clock at the end of what 64 bits of milliseconds hold: one millisecond of
ticks later the sum wraps. -/
theorem now_wraps :
    Steady ⟨⟨9223372036854775, 807000⟩, 1, 1⟩ [⟨⟨9223372036854775, 808000⟩, 0, 19201⟩] ∧
      nows .init [⟨⟨9223372036854775, 807000⟩, 1, 1⟩, ⟨⟨9223372036854775, 808000⟩, 0, 19201⟩] =
        [9223372036854775807, -9223372036854775808] :=
  ⟨⟨by decide, by decide, by decide⟩, by decide⟩

end SwitchLdnZt.Proofs.MonotonicNow
