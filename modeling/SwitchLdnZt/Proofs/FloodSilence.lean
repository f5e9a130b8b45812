import Mathlib.Algebra.Order.Field.Rat
import Mathlib.Tactic.Linarith
import Mathlib.Tactic.Ring
import SwitchLdnZt.App.Flood

namespace SwitchLdnZt.Proofs.FloodSilence
open Library App

variable {K : Type} [Field K] [LinearOrder K]

/-- The time since the last datagram, of any length, or since the start. -/
def silence (passes : List (Pass K)) : K :=
  ((passes.reverse.takeWhile (fun p => p.lengths.isEmpty)).map (fun p => p.waited.val)).sum

/-- The passes since the last one that the loop counts as having got data. -/
def idlePasses (passes : List (Pass K)) : List (Pass K) :=
  passes.reverse.takeWhile (fun p => !p.gotData)

theorem idlePasses_snoc (passes : List (Pass K)) (p : Pass K) :
    idlePasses (passes ++ [p]) = if p.gotData then [] else p :: idlePasses passes := by
  cases h : p.gotData <;> simp [idlePasses, h]

/-- The inner loop leaves alone what each of its receives leaves alone. -/
theorem drain_keeps {α : Type} (read : Flood → α) (hn : ∀ f n, read (f.recv n) = read f)
    (hr : ∀ (f : Flood) n, read { f with ready := n } = read f)
    (he : ∀ (f : Flood) n, read { f with errCount := n } = read f)
    (f : Flood) (p : Pass K) : read (f.drain p) = read f := by
  have hfold (ns : List Nat) (g : Flood) : read (ns.foldl Flood.recv g) = read g := by
    induction ns generalizing g with
    | nil => rfl
    | cons n ns ih => rw [List.foldl_cons, ih, hn]
  unfold Flood.drain
  split
  · rw [hfold, hr]
  · split
    · exact he f _
    · rfl

theorem recv_idleMs (f : Flood) (n : Nat) : (f.recv n).idleMs = f.idleMs := by
  unfold Flood.recv
  split <;> rfl

theorem recv_phase (f : Flood) (n : Nat) : (f.recv n).phase = f.phase := by
  unfold Flood.recv
  split <;> rfl

@[simp] theorem drain_idleMs (f : Flood) (p : Pass K) : (f.drain p).idleMs = f.idleMs :=
  drain_keeps Flood.idleMs recv_idleMs (fun _ _ => rfl) (fun _ _ => rfl) f p

@[simp] theorem drain_phase (f : Flood) (p : Pass K) : (f.drain p).phase = f.phase :=
  drain_keeps Flood.phase recv_phase (fun _ _ => rfl) (fun _ _ => rfl) f p

@[simp] theorem report_idleMs (f : Flood) : f.report.idleMs = f.idleMs := by
  unfold Flood.report
  split <;> rfl

@[simp] theorem report_phase (f : Flood) : f.report.phase = f.phase := by
  unfold Flood.report
  split <;> rfl

/-- The idle counter is the number of passes without data, each as 250 ms. -/
structure Idle (passes : List (Pass K)) (f : Flood) : Prop where
  idle : f.idleMs.toNat = 250 * (idlePasses passes).length
  waiting : f.phase = .waiting → f.idleMs.toNat < 3000
  done : f.phase = .done → f.idleMs.toNat = 3000

theorem enter_idle (s rc errno : Int) : Idle (K := K) [] (Flood.enter s rc errno) := by
  unfold Flood.enter
  split
  · exact ⟨rfl, fun h => (by cases h), fun h => (by cases h)⟩
  · split
    · exact ⟨rfl, fun h => (by cases h), fun h => (by cases h)⟩
    · exact ⟨rfl, fun _ => (by decide), fun h => (by cases h)⟩

theorem count_idleMs {f : Flood} (hlt : f.idleMs.toNat < 3000) (p : Pass K) :
    (f.count p).idleMs.toNat = if p.gotData then 0 else f.idleMs.toNat + 250 := by
  unfold Flood.count
  split
  · rfl
  · simp only [UInt32.toNat_add, UInt32.reduceToNat]
    omega

theorem pass_idle {passes : List (Pass K)} {f g : Flood} {p : Pass K} (h : Idle passes f)
    (hs : f.pass p = some g) : Idle (passes ++ [p]) g := by
  unfold Flood.pass at hs
  split at hs
  next hw =>
    have hlt := h.waiting hw
    have hc : ((f.drain p).count p).idleMs.toNat =
        if p.gotData then 0 else f.idleMs.toNat + 250 := by
      rw [count_idleMs (by simpa using hlt), drain_idleMs]
    have hidle : ((f.drain p).count p).idleMs.toNat =
        250 * (idlePasses (passes ++ [p])).length := by
      rw [hc, idlePasses_snoc, h.idle]
      split
      · rfl
      · rw [List.length_cons]
        ring
    have hbound : ((f.drain p).count p).idleMs.toNat ≤ 3000 := by
      have hk := h.idle
      rw [hc]
      split <;> omega
    have hphase : ((f.drain p).count p).phase = .waiting := by
      rw [← hw]
      exact drain_phase f p
    cases hs
    split
    next hle =>
      have hle' := UInt32.le_iff_toNat_le.mp hle
      simp only [UInt32.reduceToNat] at hle'
      exact ⟨hidle, fun h => (by cases h), fun _ => Nat.le_antisymm hbound hle'⟩
    next hlt' =>
      have hlt'' := mt UInt32.le_iff_toNat_le.mpr hlt'
      simp only [UInt32.reduceToNat] at hlt''
      refine ⟨by rw [report_idleMs, hidle], ?_, ?_⟩
      · intro _
        rw [report_idleMs]
        omega
      · intro hd
        rw [report_phase, hphase] at hd
        cases hd
  next => cases hs

theorem flood_idle {s rc errno : Int} {passes : List (Pass K)} {f : Flood}
    (hr : probeUdpFlood s rc errno passes = some f) : Idle passes f :=
  run_history (enter_idle s rc errno) (fun _ _ _ _ _ h hs => pass_idle h hs) hr

theorem silent_idle (p : Pass K) : (p.lengths.isEmpty && !p.gotData) = p.lengths.isEmpty := by
  cases h : p.lengths <;> simp [Pass.gotData, h]

theorem silence_idle (passes : List (Pass K)) :
    silence passes = (((idlePasses passes).takeWhile (fun p => p.lengths.isEmpty)).map
      (fun p => p.waited.val)).sum := by
  unfold silence idlePasses
  rw [List.takeWhile_takeWhile]
  simp only [Bool.decide_and, Bool.decide_eq_true, silent_idle]

section
variable [IsStrictOrderedRing K]

theorem sum_waited_le (ps : List (Pass K)) :
    (ps.map (fun p => p.waited.val)).sum ≤ 250 * ps.length := by
  induction ps with
  | nil => simp
  | cons p ps ih =>
    have hp := p.waited.property.2
    simp only [List.map_cons, List.sum_cons, List.length_cons, Nat.cast_add, Nat.cast_one]
    linarith

/-- The whole time has passed only if every pass took its whole share. -/
theorem full_sum_iff (q : Pass K → Bool) (ps : List (Pass K)) :
    250 * (ps.length : K) ≤ ((ps.takeWhile q).map (fun p => p.waited.val)).sum ↔
      ∀ p ∈ ps, p.waited.val = 250 ∧ q p := by
  induction ps with
  | nil => simp
  | cons p ps ih =>
    have hp := p.waited.property.2
    have hle := sum_waited_le (ps.takeWhile q)
    have hlen : ((ps.takeWhile q).length : K) ≤ ps.length :=
      Nat.cast_le.mpr ((List.takeWhile_prefix q).length_le)
    simp only [List.forall_mem_cons, ← ih, List.length_cons, Nat.cast_add, Nat.cast_one]
    cases hq : q p with
    | false =>
      have hn : (0 : K) ≤ ps.length := Nat.cast_nonneg _
      simp only [List.takeWhile_cons, hq, Bool.false_eq_true, ↓reduceIte, List.map_nil,
        List.sum_nil, and_false, false_and, iff_false, not_le]
      linarith
    | true =>
      simp only [List.takeWhile_cons, hq, ↓reduceIte, List.map_cons, List.sum_cons, and_true]
      constructor
      · intro h
        constructor <;> linarith
      · rintro ⟨hw, hs⟩
        linarith

/-- The loop ends after 3 s of silence exactly when each of its last twelve passes
waited its 250 ms in `select` and none took an empty datagram. -/
theorem flood_silence {s rc errno : Int} {passes : List (Pass K)} {f : Flood}
    (hr : probeUdpFlood s rc errno passes = some f) (done : f.phase = .done) :
    3000 ≤ silence passes ↔
      ∀ p ∈ passes.reverse.take 12, p.waited.val = 250 ∧ 0 ∉ p.lengths := by
  have hi := flood_idle hr
  have hlen : (idlePasses passes).length = 12 := by
    have := hi.idle
    rw [hi.done done] at this
    omega
  have htake : passes.reverse.take 12 = idlePasses passes := by
    have := List.prefix_iff_eq_take.mp (List.takeWhile_prefix (l := passes.reverse)
      (fun p => !p.gotData))
    rw [show (passes.reverse.takeWhile (fun p => !p.gotData)).length = 12 from hlen] at this
    exact this.symm
  have hall := full_sum_iff (fun p => p.lengths.isEmpty) (idlePasses passes)
  rw [hlen, ← silence_idle] at hall
  have h3000 : (250 : K) * ((12 : ℕ) : K) = 3000 := by norm_num
  rw [h3000] at hall
  rw [hall, htake]
  refine forall₂_congr fun p hp => and_congr_right fun _ => ?_
  have hq : p.gotData = false := by simpa using List.mem_takeWhile_imp hp
  simp only [Pass.gotData, List.any_eq_false, decide_eq_true_eq] at hq
  cases hl : p.lengths with
  | nil => simp
  | cons n ns =>
    have h0 : n = 0 := by
      have := hq n (by simp [hl])
      omega
    simp [h0]

end

def timeout : Pass ℚ := ⟨0, ⟨250, by norm_num⟩, []⟩

theorem flood_silence_timeouts :
    ∃ f, probeUdpFlood 3 0 0 (List.replicate 12 timeout) = some f ∧
      3000 ≤ silence (List.replicate 12 timeout) := by
  obtain ⟨f, hf⟩ := Option.isSome_iff_exists.mp
    (rfl : (probeUdpFlood 3 0 0 (List.replicate 12 timeout)).isSome = true)
  have hd : f.phase = .done := (Option.some.inj (congrArg (Option.map Flood.phase) hf)).symm
  refine ⟨f, hf, (flood_silence hf hd).mpr ?_⟩
  intro p hp
  have he : p = timeout := List.eq_of_mem_replicate
    (List.mem_reverse.mp (List.mem_of_mem_take hp))
  subst he
  exact ⟨rfl, List.not_mem_nil⟩

/-- A sender that keeps sending empty datagrams, ten a second. -/
def emptyDatagram : Pass ℚ := ⟨1, ⟨100, by norm_num⟩, [0]⟩

theorem flood_ends_early :
    ¬ ∀ (passes : List (Pass ℚ)) (f : Flood), probeUdpFlood 3 0 0 passes = some f →
      f.phase = .done → 3000 ≤ silence passes := by
  intro h
  obtain ⟨f, hf⟩ := Option.isSome_iff_exists.mp
    (rfl : (probeUdpFlood 3 0 0 (List.replicate 12 emptyDatagram)).isSome = true)
  have hd : f.phase = .done := (Option.some.inj (congrArg (Option.map Flood.phase) hf)).symm
  have hs : silence (List.replicate 12 emptyDatagram) = 0 := rfl
  have hle := h _ f hf hd
  rw [hs] at hle
  norm_num at hle

end SwitchLdnZt.Proofs.FloodSilence
