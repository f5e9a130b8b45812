import Mathlib.Data.List.Infix
import SwitchLdnZt.Proofs.FloodSilence

namespace SwitchLdnZt.Proofs.FloodReports
open Library App FloodSilence

variable {K : Type} [Field K] [LinearOrder K]

/-- All the lengths that `recvfrom` returned. -/
def taken (passes : List (Pass K)) : List Nat := passes.flatMap Pass.lengths

/-- What the loop has to say of its passes, its counters being 32 bits wide. -/
def countsText (passes : List (Pass K)) : Bytes :=
  ascii "recvd=" ++ fmtU ((taken passes).countP (0 < ·) % 2 ^ 32) ++
    ascii " ready=" ++ fmtU (passes.countP (0 < ·.sr) % 2 ^ 32) ++
    ascii " empty=" ++ fmtU ((taken passes).count 0 % 2 ^ 32) ++
    ascii " err=" ++ fmtU (passes.countP (·.sr < 0) % 2 ^ 32) ++ ascii "\n"

def reportText (passes : List (Pass K)) : Bytes :=
  ascii "[FLOOD] t=" ++ fmtU (250 * passes.length % 2 ^ 32) ++ ascii "ms " ++ countsText passes

def doneText (passes : List (Pass K)) : Bytes := ascii "[FLOOD] DONE " ++ countsText passes

/-- A line at every fourth pass, on all the passes up to it. -/
def reports (passes : List (Pass K)) : List Bytes :=
  (passes.inits.filter (fun ps => ps ≠ [] ∧ ps.length % 4 = 0)).map reportText

theorem reports_snoc (passes : List (Pass K)) (p : Pass K) : reports (passes ++ [p]) =
    reports passes ++ if (passes.length + 1) % 4 = 0 then [reportText (passes ++ [p])] else [] := by
  have hinits : (passes ++ [p]).inits = passes.inits ++ [passes ++ [p]] := by
    simp [List.inits_append]
  rw [reports, hinits, List.filter_append, List.map_append]
  congr 1
  split
  next h => simp [h]
  next h => simp [h]

/-- The counters are what has been counted, as far as 32 bits go. -/
structure Counts (passes : List (Pass K)) (f : Flood) : Prop where
  ready : f.ready.toNat = passes.countP (0 < ·.sr) % 2 ^ 32
  recvd : f.recvd.toNat = (taken passes).countP (0 < ·) % 2 ^ 32
  empty : f.empty.toNat = (taken passes).count 0 % 2 ^ 32
  errCount : f.errCount.toNat = passes.countP (·.sr < 0) % 2 ^ 32

theorem Counts.counts {passes : List (Pass K)} {f : Flood} (h : Counts passes f) :
    f.counts = countsText passes := by
  rw [Flood.counts, countsText, h.ready, h.recvd, h.empty, h.errCount]

theorem toNat_succ (a : UInt32) : (a + 1).toNat = (a.toNat + 1) % 2 ^ 32 := by
  rw [UInt32.toNat_add]
  rfl

/-- The inner loop counts each of its receives on one side or the other. -/
theorem recv_counts (ns : List Nat) (f : Flood) :
    (ns.foldl Flood.recv f).recvd.toNat = (f.recvd.toNat + ns.countP (0 < ·)) % 2 ^ 32 ∧
      (ns.foldl Flood.recv f).empty.toNat = (f.empty.toNat + ns.count 0) % 2 ^ 32 := by
  induction ns generalizing f with
  | nil =>
    have hr := f.recvd.toNat_lt
    have he := f.empty.toNat_lt
    simp [Nat.mod_eq_of_lt hr, Nat.mod_eq_of_lt he]
  | cons n ns ih =>
    obtain ⟨hr, he⟩ := ih (f.recv n)
    rw [List.foldl_cons, hr, he]
    unfold Flood.recv
    split
    next hn =>
      rw [toNat_succ, List.countP_cons_of_pos (by simpa using hn),
        List.count_cons_of_ne (by omega)]
      dsimp only
      omega
    next hn =>
      obtain rfl : n = 0 := by omega
      rw [toNat_succ, List.countP_cons_of_neg (by simp), List.count_cons_self]
      dsimp only
      omega

theorem recv_keeps {α : Type} (read : Flood → α) (hr : ∀ (f : Flood) n, read (f.recv n) = read f)
    (ns : List Nat) (f : Flood) : read (ns.foldl Flood.recv f) = read f := by
  induction ns generalizing f with
  | nil => rfl
  | cons n ns ih => rw [List.foldl_cons, ih, hr]

theorem taken_snoc (passes : List (Pass K)) (p : Pass K) :
    taken (passes ++ [p]) = taken passes ++ p.lengths := by
  simp [taken]

theorem Counts.drain {passes : List (Pass K)} {f : Flood} (h : Counts passes f) (p : Pass K) :
    Counts (passes ++ [p]) (f.drain p) := by
  have hready (f : Flood) (n : Nat) : (f.recv n).ready = f.ready := by
    unfold Flood.recv
    split <;> rfl
  have herr (f : Flood) (n : Nat) : (f.recv n).errCount = f.errCount := by
    unfold Flood.recv
    split <;> rfl
  obtain ⟨h₁, h₂, h₃, h₄⟩ := h
  unfold Flood.drain
  split
  next hpos =>
    have hneg : ¬ p.sr < 0 := by omega
    have hlengths : p.lengths = p.received := by rw [Pass.lengths, if_pos hpos]
    obtain ⟨hr, he⟩ := recv_counts p.received { f with ready := f.ready + 1 }
    refine ⟨?_, ?_, ?_, ?_⟩
    · rw [recv_keeps Flood.ready hready, toNat_succ, List.countP_append, h₁]
      simp [hpos]
    · rw [hr, taken_snoc, List.countP_append, hlengths, h₂]
      omega
    · rw [he, taken_snoc, List.count_append, hlengths, h₃]
      omega
    · rw [recv_keeps Flood.errCount herr, List.countP_append, h₄]
      simp [hneg]
  next hpos =>
    have hlengths : p.lengths = [] := by rw [Pass.lengths, if_neg hpos]
    split
    next hneg =>
      refine ⟨?_, ?_, ?_, ?_⟩
      · simp [h₁, hpos]
      · simp [h₂, taken_snoc, hlengths]
      · simp [h₃, taken_snoc, hlengths]
      · rw [toNat_succ, List.countP_append, h₄]
        simp [hneg]
    next hneg =>
      refine ⟨?_, ?_, ?_, ?_⟩
      · simp [h₁, hpos]
      · simp [h₂, taken_snoc, hlengths]
      · simp [h₃, taken_snoc, hlengths]
      · simp [h₄, hneg]

/-- What the loop has printed, and when it will print again. -/
structure Shown (start : List Bytes) (passes : List (Pass K)) (f : Flood) : Prop where
  counts : Counts passes f
  total : f.totalMs.toNat = 250 * passes.length % 2 ^ 32
  last : f.phase = .waiting → f.lastReport.toNat = 1000 * (passes.length / 4) % 2 ^ 32
  out : f.out = start ++ if f.phase = .done then reports passes.dropLast ++ [doneText passes]
    else reports passes

theorem enter_shown {s rc : Int} (hs : 0 ≤ s) (hrc : rc = 0) (errno : Int) :
    Shown (K := K) (Flood.enter s rc errno).out [] (Flood.enter s rc errno) := by
  rw [Flood.enter, if_neg (by omega), if_neg (by simpa using hrc)]
  refine ⟨⟨rfl, rfl, rfl, rfl⟩, rfl, fun _ => by simp, ?_⟩
  simp [reports]

theorem toNat_add_250 (a : UInt32) : (a + 250).toNat = (a.toNat + 250) % 2 ^ 32 := by
  rw [UInt32.toNat_add]
  rfl

/-- The loop's own bookkeeping is none of the receives' business. -/
theorem recv_rest (f : Flood) (n : Nat) : (f.recv n).totalMs = f.totalMs ∧
    (f.recv n).lastReport = f.lastReport ∧ (f.recv n).out = f.out := by
  unfold Flood.recv
  split <;> exact ⟨rfl, rfl, rfl⟩

theorem drain_rest (f : Flood) (p : Pass K) : (f.drain p).totalMs = f.totalMs ∧
    (f.drain p).lastReport = f.lastReport ∧ (f.drain p).out = f.out := by
  refine ⟨?_, ?_, ?_⟩
  · exact drain_keeps Flood.totalMs (fun f n => (recv_rest f n).1) (fun _ _ => rfl)
      (fun _ _ => rfl) f p
  · exact drain_keeps Flood.lastReport (fun f n => (recv_rest f n).2.1) (fun _ _ => rfl)
      (fun _ _ => rfl) f p
  · exact drain_keeps Flood.out (fun f n => (recv_rest f n).2.2) (fun _ _ => rfl)
      (fun _ _ => rfl) f p

/-- A short time is what it is between two readings of a wrapping clock. -/
theorem wrapped_sub {x : Nat} (hx : x < 2 ^ 32) (y : Nat) :
    (2 ^ 32 - y % 2 ^ 32 + (y + x) % 2 ^ 32) % 2 ^ 32 = x := by
  omega

/-- The second that the loop waits is over at every fourth pass, however often its
clock has wrapped. -/
theorem due_iff {total last : UInt32} {n : Nat} (ht : total.toNat = 250 * (n + 1) % 2 ^ 32)
    (hl : last.toNat = 1000 * (n / 4) % 2 ^ 32) : total - last ≥ 1000 ↔ (n + 1) % 4 = 0 := by
  have hpassed : 250 * (n + 1) = 1000 * (n / 4) + 250 * (n % 4 + 1) := by omega
  have hsub : (total - last).toNat = 250 * (n % 4 + 1) := by
    rw [UInt32.toNat_sub, ht, hl, hpassed, wrapped_sub (by omega)]
  rw [ge_iff_le, UInt32.le_iff_toNat_le, hsub]
  simp only [UInt32.reduceToNat]
  omega

theorem pass_shown {start : List Bytes} {passes : List (Pass K)} {f g : Flood} {p : Pass K}
    (h : Shown start passes f) (hs : f.pass p = some g) : Shown start (passes ++ [p]) g := by
  unfold Flood.pass at hs
  split at hs
  next hw =>
    obtain ⟨hdrainTotal, hdrainLast, hdrainOut⟩ := drain_rest f p
    obtain ⟨h₁, h₂, h₃, h₄⟩ := h.counts.drain p
    have hcounts : Counts (passes ++ [p]) ((f.drain p).count p) := ⟨h₁, h₂, h₃, h₄⟩
    have htotal : ((f.drain p).count p).totalMs.toNat = 250 * (passes.length + 1) % 2 ^ 32 := by
      change ((f.drain p).totalMs + 250).toNat = _
      rw [toNat_add_250, hdrainTotal, h.total]
      omega
    have hlast : ((f.drain p).count p).lastReport.toNat = 1000 * (passes.length / 4) % 2 ^ 32 := by
      change (f.drain p).lastReport.toNat = _
      rw [hdrainLast, h.last hw]
    have hout : ((f.drain p).count p).out = start ++ reports passes := by
      change (f.drain p).out = _
      rw [hdrainOut, h.out, if_neg (by rw [hw]; decide)]
    have hphase : ((f.drain p).count p).phase = .waiting := by
      rw [← hw]
      exact drain_phase f p
    have hlength : (passes ++ [p]).length = passes.length + 1 := List.length_append
    generalize (f.drain p).count p = c at hs hcounts htotal hlast hout hphase
    cases hs
    split
    next =>
      refine ⟨⟨hcounts.ready, hcounts.recvd, hcounts.empty, hcounts.errCount⟩,
        by rw [hlength]; exact htotal, fun h => (by cases h), ?_⟩
      rw [Flood.leave, if_pos rfl, hout, List.dropLast_concat, hcounts.counts, doneText,
        List.append_assoc]
    next =>
      have hdue := due_iff htotal hlast
      unfold Flood.report
      split
      next hyes =>
        have hfourth := hdue.mp hyes
        refine ⟨⟨hcounts.ready, hcounts.recvd, hcounts.empty, hcounts.errCount⟩,
          by rw [hlength]; exact htotal, ?_, ?_⟩
        · intro _
          dsimp only
          rw [htotal, hlength]
          omega
        · dsimp only
          rw [if_neg (by rw [hphase]; decide), reports_snoc, if_pos hfourth, hout, reportText,
            hcounts.counts, htotal, hlength, List.append_assoc]
      next hno =>
        have hfourth : ¬ (passes.length + 1) % 4 = 0 := fun h => hno (hdue.mpr h)
        refine ⟨hcounts, by rw [hlength]; exact htotal, ?_, ?_⟩
        · intro _
          rw [hlast, hlength]
          have hsame : (passes.length + 1) / 4 = passes.length / 4 := by omega
          rw [hsame]
        · rw [if_neg (by rw [hphase]; decide), reports_snoc, if_neg hfourth, hout,
            List.append_nil]
  next => cases hs

/-- The test prints a line at every fourth pass of its loop and one when it is done, each
with what it has counted up to there, also when a counter or the clock has wrapped. -/
theorem flood_output {s rc errno : Int} {passes : List (Pass K)} {f : Flood} (hs : 0 ≤ s)
    (hrc : rc = 0) (hr : probeUdpFlood s rc errno passes = some f) :
    f.out = (Flood.enter s rc errno).out ++ if f.phase = .done
      then reports passes.dropLast ++ [doneText passes] else reports passes :=
  (run_history (enter_shown hs hrc errno) (fun _ _ _ _ _ h hs => pass_shown h hs) hr).out

/-- Three quiet passes around one with a datagram and an empty one. -/
def fourPasses : List (Pass Rat) :=
  [timeout, { emptyDatagram with received := [5, 0] }, timeout, { timeout with sr := -1 }]

theorem flood_output_fourth : ∃ f, probeUdpFlood 3 0 0 fourPasses = some f ∧
    f.out = (Flood.enter 3 0 0).out ++
      [ascii "[FLOOD] t=1000ms recvd=1 ready=1 empty=1 err=1\n"] := by
  obtain ⟨f, hf⟩ : ∃ f, probeUdpFlood 3 0 0 fourPasses = some f := ⟨_, rfl⟩
  have hphase : f.phase = .waiting := by
    have hrun : (probeUdpFlood 3 0 0 fourPasses).map Flood.phase = some .waiting := rfl
    rw [hf] at hrun
    exact Option.some.inj hrun
  refine ⟨f, hf, ?_⟩
  rw [flood_output (by decide) rfl hf, if_neg (by rw [hphase]; decide)]
  rfl

end SwitchLdnZt.Proofs.FloodReports
