import SwitchLdnZt.Proofs.CounterFlow

namespace SwitchLdnZt.Proofs.LogCaps
open Library Compat CounterFlow

/-- The call has a number below the cap and its line still to write. -/
def pending (w : Numbered) (r : Running) : Bool :=
  r.seq < w.cap && r.left.contains (.log w) && !r.left.contains (.fetch w)

/-- The lines written and to be written stay below the cap, and below the number of
numbers that were given out. -/
def Capped (w : Numbered) (s : Counting) : Prop :=
  s.lines w + s.calls.countP (pending w) ≤ min (made s w.seq) w.cap.toNat

/-- A line has its number fetched before. -/
theorem log_fetched : ∀ ops ∈ programs, ∀ w, ops.contains (.log w) = true →
    ops.contains (.fetch w) = true := by
  intro ops ho w
  revert ops
  cases w <;> decide

/-- Nothing of another number stands behind a fetch, and nothing at all behind a line. -/
def orderly : List Op → Bool
  | .fetch v :: left => left = [] ∨ left = [.log v]
  | .log _ :: left => left = []
  | _ => true

theorem programs_orderly : ∀ ops ∈ programs, ∀ left ∈ ops.tails, orderly left = true := by
  decide +kernel

theorem Counted.orderly {s : Counting} (h : Counted s) {r : Running} (hr : r ∈ s.calls) :
    orderly r.left = true :=
  programs_orderly _ (ops_mem r.call) _ ((List.mem_tails _ _).mpr (h.suffix r hr))

/-- The call and what it is about to fetch. -/
def fetchesNext (s : Counting) : CountEvent → Option Numbered
  | .call _ => none
  | .step i => match s.calls[i]? with
    | some r => match r.left with
      | .fetch w :: _ => some w
      | _ => none
    | none => none

/-- The counter of a number about to be fetched has not come round yet. -/
def notRound (s : Counting) (e : CountEvent) : Bool :=
  (fetchesNext s e).all (fun w => made s w.seq < 2 ^ 32)

theorem Moved.countP {s t : Counting} {i : Nat} {r : Running} {op : Op} {left : List Op}
    (m : Moved s t i r op left) (p : Running → Bool) :
    t.calls.countP p + (p r).toNat =
      s.calls.countP p + (p ⟨r.call, seqAfter s r op, left⟩).toNat := by
  have h := sum_map_set (fun r => (p r).toNat) m.here ⟨r.call, seqAfter s r op, left⟩
  rwa [← m.calls, sum_map_toNat, sum_map_toNat] at h

theorem call_capped {s : Counting} {w : Numbered} (h : Capped w s) (c : Call) :
    Capped w { s with calls := s.calls ++ [⟨c, 0, c.ops⟩] } := by
  have hp : pending w ⟨c, 0, c.ops⟩ = false := by
    cases hl : c.ops.contains (.log w) with
    | false => simp only [pending, hl, Bool.and_false, Bool.false_and]
    | true =>
      have hf := log_fetched _ (ops_mem c) w hl
      simp only [pending, hf, Bool.not_true, Bool.and_false]
  unfold Capped at h ⊢
  simpa [made, share, hp] using h

theorem seq_injective {v w : Numbered} (h : v.seq = w.seq) : v = w := by
  cases v <;> cases w <;> first | rfl | cases h

theorem step_capped {s t : Counting} {w : Numbered} {i : Nat} (hc : Counted s)
    (h : Capped w s) (hn : notRound s (.step i) = true) (hs : s.next (.step i) = some t) :
    Capped w t := by
  obtain ⟨r, op, left, m⟩ := next_moved hs
  have hcount := Moved.countP m (pending w)
  have hmade := m.made hc w.seq
  have hlines := m.lines w
  have hord := Counted.orderly hc (List.mem_of_getElem? m.here)
  rw [m.todo] at hord
  unfold Capped at h ⊢
  cases op with
  | add c =>
    -- `seq` and what it is for stay; the counter of `w` can only have grown.
    have hsame : pending w ⟨r.call, seqAfter s r (.add c), left⟩ = pending w r := by
      simp only [pending, m.todo, List.contains_cons]
      rfl
    rw [hsame] at hcount
    simp only [reduceCtorEq, false_and, ↓reduceIte] at hlines
    have hmono : made s w.seq ≤ made t w.seq := by omega
    omega
  | fetch v =>
    simp only [reduceCtorEq, false_and, ↓reduceIte] at hlines
    rcases eq_or_ne v w with rfl | hne
    · have hbefore : pending v r = false := by simp [pending, m.todo]
      have hone : increments v.seq (.fetch v) = true := by simp [increments, Op.counter]
      have hlt : made s v.seq < 2 ^ 32 := by
        simpa [notRound, fetchesNext, m.here, m.todo] using hn
      have hseq : (seqAfter s r (.fetch v)).toNat = made s v.seq := by
        rw [seqAfter, hc.value, UInt32.toNat_ofNat', Nat.mod_eq_of_lt hlt]
      simp only [hone, ↓reduceIte] at hmade
      cases hp : pending v ⟨r.call, seqAfter s r (.fetch v), left⟩ with
      | false =>
        simp only [hbefore, hp] at hcount
        omega
      | true =>
        simp only [hbefore, hp, Bool.toNat_true, Bool.toNat_false] at hcount
        simp only [pending, Bool.and_eq_true, decide_eq_true_eq] at hp
        have hcap := UInt32.lt_iff_toNat_lt.mp hp.1.1
        rw [hseq] at hcap
        omega
    · have hbefore : pending w r = false := by
        simp only [orderly, decide_eq_true_eq] at hord
        rcases hord with rfl | rfl <;> simp [pending, m.todo, hne.symm]
      have hafter : pending w ⟨r.call, seqAfter s r (.fetch v), left⟩ = false := by
        simp only [orderly, decide_eq_true_eq] at hord
        rcases hord with rfl | rfl <;> simp [pending, hne.symm]
      have hzero : increments w.seq (.fetch v) = false := by
        simp only [increments, Op.counter, Option.some.injEq, decide_eq_false_iff_not]
        exact fun he => hne (seq_injective he)
      simp only [hzero] at hmade
      simp only [hbefore, hafter] at hcount
      omega
  | log v =>
    have hnil : left = [] := by simpa [orderly] using hord
    subst hnil
    have hafter : pending w ⟨r.call, seqAfter s r (.log v), []⟩ = false := by simp [pending]
    have hzero : increments w.seq (.log v) = false := rfl
    simp only [hzero] at hmade
    rw [hafter] at hcount
    rcases eq_or_ne v w with rfl | hne
    · have hbefore : pending v r = decide (r.seq < v.cap) := by simp [pending, m.todo]
      rw [hbefore] at hcount
      by_cases hlt : r.seq < v.cap
      · simp only [hlt, and_self, ↓reduceIte] at hlines
        simp only [hlt, decide_true, Bool.toNat_true, Bool.toNat_false] at hcount
        omega
      · simp only [hlt, and_false, ↓reduceIte] at hlines
        simp only [hlt, decide_false, Bool.toNat_false] at hcount
        omega
    · have hno : ¬ (Op.log v = .log w ∧ r.seq < w.cap) := fun he => hne (Op.log.inj he.1)
      have hbefore : pending w r = false := by simp [pending, m.todo, hne.symm]
      rw [if_neg hno] at hlines
      rw [hbefore] at hcount
      omega

theorem start_capped (w : Numbered) : Capped w .start := by
  simp [Capped, Counting.start]

theorem next_capped {s t : Counting} {w : Numbered} {e : CountEvent} (hc : Counted s)
    (h : Capped w s) (hn : notRound s e = true) (hs : s.next e = some t) : Capped w t := by
  cases e with
  | call c =>
    cases hs
    exact call_capped h c
  | step i => exact step_capped hc h hn hs

/-- As long as no number is fetched from a counter that has come round, each wrapper
keeps its cap, over any run of any threads. -/
theorem log_lines_capped {es : List CountEvent} {s : Counting}
    (hr : run (guarded notRound Counting.next) .start es = some s) :
    s.lines .sendto ≤ 600 ∧ s.lines .recvfrom ≤ 300 ∧ s.lines .close ≤ 24 ∧
      s.lines .setsockopt ≤ 6 ∧ s.lines .getSecureRandom ≤ 10 := by
  have hcap (w : Numbered) : s.lines w ≤ w.cap.toNat := by
    have h : Counted s ∧ Capped w s :=
      run_guarded (P := fun s => Counted s ∧ Capped w s) ⟨start_counted, start_capped w⟩
        (fun _ _ _ h hn hs => ⟨next_counted h.1 hs, next_capped h.1 h.2 hn hs⟩) hr
    have hle := h.2
    unfold Capped at hle
    omega
  exact ⟨hcap .sendto, hcap .recvfrom, hcap .close, hcap .setsockopt, hcap .getSecureRandom⟩

def failingOption : Call := .setsockopt .fine 3 1 2 ⟨-1, some 22⟩

/-- Two threads at once whose calls of `setsockopt` fail, seven of them in all. -/
def sevenFailures : List CountEvent :=
  (List.range 3).flatMap (fun k => [.call failingOption, .call failingOption, .step (2 * k),
    .step (2 * k + 1), .step (2 * k + 1), .step (2 * k)]) ++
    [.call failingOption, .step 6, .step 6]

/-- The seventh has a number and no line. -/
theorem log_lines_capped_setsockopt :
    ∃ s, run (guarded notRound Counting.next) .start sevenFailures = some s ∧
      s.value .sockoptFail = 7 ∧ s.lines .setsockopt = 6 ∧ s.lines .sendto ≤ 600 ∧
      s.lines .recvfrom ≤ 300 ∧ s.lines .close ≤ 24 ∧ s.lines .setsockopt ≤ 6 ∧
      s.lines .getSecureRandom ≤ 10 := by
  obtain ⟨s, hs⟩ := Option.isSome_iff_exists.mp
    (rfl : (run (guarded notRound Counting.next) .start sevenFailures).isSome = true)
  have hseven : s.value .sockoptFail = 7 :=
    (Option.some.inj (congrArg (Option.map (fun s => s.value .sockoptFail)) hs)).symm
  have hsix : s.lines .setsockopt = 6 :=
    (Option.some.inj (congrArg (Option.map (fun s => s.lines .setsockopt)) hs)).symm
  exact ⟨s, hs, hseven, hsix, log_lines_capped hs⟩

def closeCall : Call := .close .fine 3 ⟨0, none⟩

/-- One close after another, each run to its end. -/
def closes (n : Nat) : List CountEvent :=
  (List.range n).flatMap (fun k => [.call closeCall, .step k, .step k])

/-- After `n` closes every full round of the counter has logged its 24 lines. -/
structure Closed (n : Nat) (s : Counting) : Prop where
  calls : s.calls.length = n
  value : (s.value .closeSeq).toNat = n % 2 ^ 32
  lines : s.lines .close = 24 * (n / 2 ^ 32) + min 24 (n % 2 ^ 32)

theorem close_once {n : Nat} {s : Counting} (h : Closed n s) :
    ∃ t, run Counting.next s [.call closeCall, .step n, .step n] = some t ∧ Closed (n + 1) t := by
  let u : Counting := { s with calls := s.calls ++ [⟨closeCall, 0, closeCall.ops⟩] }
  have hcall : s.next (.call closeCall) = some u := rfl
  have hu : u.calls[n]? = some ⟨closeCall, 0, [.fetch .close, .log .close]⟩ := by
    simp only [u, ← h.calls, List.getElem?_concat_length]
    rfl
  obtain ⟨v, hv⟩ := next_here hu rfl
  obtain ⟨r, op, left, m⟩ := next_moved hv
  obtain rfl := Option.some.inj (m.here.symm.trans hu)
  obtain ⟨rfl, rfl⟩ := List.cons.inj m.todo
  have hlen : n < u.calls.length := (List.getElem?_eq_some_iff.mp hu).1
  have hvn : v.calls[n]? = some ⟨closeCall, s.value .closeSeq, [.log .close]⟩ := by
    rw [m.calls, List.getElem?_set_self hlen]
    rfl
  obtain ⟨t, ht⟩ := next_here hvn rfl
  obtain ⟨q, op, left, m'⟩ := next_moved ht
  obtain rfl := Option.some.inj (m'.here.symm.trans hvn)
  obtain ⟨rfl, rfl⟩ := List.cons.inj m'.todo
  refine ⟨t, run_cons.mpr ⟨u, hcall, run_cons.mpr ⟨v, hv, run_cons.mpr ⟨t, ht, rfl⟩⟩⟩, ?_⟩
  have hval : t.value .closeSeq = s.value .closeSeq + 1 := by
    rw [m'.value, m.value]
    simp [increments, Op.counter, Numbered.seq, u]
  have hlines : t.lines .close = s.lines .close +
      if s.value .closeSeq < 24 then 1 else 0 := by
    rw [m'.lines, m.lines]
    simp [Numbered.cap, u]
  have hlt : s.value .closeSeq < 24 ↔ n % 2 ^ 32 < 24 := by
    rw [UInt32.lt_iff_toNat_lt, h.value]
    rfl
  constructor
  · rw [m'.calls, m.calls]
    simp [u, h.calls]
  · rw [hval, UInt32.toNat_add, h.value]
    simp
  · rw [hlines, h.lines]
    simp only [hlt]
    split <;> omega

theorem closes_closed (n : Nat) :
    ∃ s, run Counting.next .start (closes n) = some s ∧ Closed n s := by
  induction n with
  | zero => exact ⟨.start, rfl, rfl, rfl, rfl⟩
  | succ n ih =>
    obtain ⟨s, hs, hc⟩ := ih
    obtain ⟨t, ht, hc'⟩ := close_once hc
    refine ⟨t, ?_, hc'⟩
    rw [closes, List.range_succ, List.flatMap_append, List.flatMap_singleton]
    exact run_append.mpr ⟨s, hs, ht⟩

/-- The counter of the closes comes round, and the 25th line is written. -/
theorem log_lines_uncapped :
    ¬ ∀ (es : List CountEvent) (s : Counting), run Counting.next .start es = some s →
      s.lines .close ≤ 24 := by
  intro h
  obtain ⟨s, hs, hc⟩ := closes_closed (2 ^ 32 + 1)
  have hle := h _ s hs
  have hlines := hc.lines
  omega

end SwitchLdnZt.Proofs.LogCaps
