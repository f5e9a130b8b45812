import Mathlib.Data.List.Infix
import SwitchLdnZt.Compat.Counters
import SwitchLdnZt.Library.Tally

namespace SwitchLdnZt.Proofs.CounterFlow
open Library Compat

def increments (c : Counter) (op : Op) : Bool := op.counter = some c

/-- How often a call has incremented a counter so far. -/
def share (c : Counter) (r : Running) : Nat := executed (increments c) r.call.ops r.left

def made (s : Counting) (c : Counter) : Nat := (s.calls.map (share c)).sum

/-- `seq` of a call behind one of its steps. -/
def seqAfter (s : Counting) (r : Running) : Op → UInt32
  | .fetch w => s.value w.seq
  | .add _ | .log _ => r.seq

/-- What one step of the `i`-th call does. -/
structure Moved (s t : Counting) (i : Nat) (r : Running) (op : Op) (left : List Op) : Prop where
  here : s.calls[i]? = some r
  todo : r.left = op :: left
  calls : t.calls = s.calls.set i ⟨r.call, seqAfter s r op, left⟩
  value : ∀ c, t.value c = s.value c + if increments c op then 1 else 0
  lines : ∀ w, t.lines w = s.lines w + if op = .log w ∧ r.seq < w.cap then 1 else 0

theorem increment_value (s : Counting) (c d : Counter) :
    (s.increment c).value d = s.value d + if c = d then 1 else 0 := by
  unfold Counting.increment
  rcases eq_or_ne d c with rfl | hne
  · simp
  · simp [Function.update_of_ne hne, hne.symm]

theorem next_moved {s t : Counting} {i : Nat} (h : s.next (.step i) = some t) :
    ∃ r op left, Moved s t i r op left := by
  simp only [Counting.next] at h
  split at h
  · cases h
  next r hr =>
    split at h
    · cases h
    next c left hl =>
      cases h
      refine ⟨r, .add c, left, hr, hl, rfl, fun d => ?_, fun w => by simp [Counting.put,
        Counting.increment]⟩
      simp [Counting.put, increment_value, increments, Op.counter]
    next w left hl =>
      cases h
      refine ⟨r, .fetch w, left, hr, hl, rfl, fun d => ?_, fun w => by simp [Counting.put,
        Counting.increment]⟩
      simp [Counting.put, increment_value, increments, Op.counter]
    next w left hl =>
      have hvalue (c : Counter) : increments c (.log w) = false := rfl
      split at h
      next hlt =>
        cases h
        refine ⟨r, .log w, left, hr, hl, rfl, fun d => by simp [Counting.put, hvalue], ?_⟩
        intro v
        rcases eq_or_ne v w with rfl | hne
        · simp [Counting.put, hlt]
        · simp [Function.update_of_ne hne, Counting.put, hne.symm]
      next hge =>
        cases h
        refine ⟨r, .log w, left, hr, hl, rfl, fun d => by simp [Counting.put, hvalue], ?_⟩
        intro v
        have hno : ¬ (Op.log w = .log v ∧ r.seq < v.cap) := by
          rintro ⟨he, hlt⟩
          cases he
          exact hge hlt
        rw [if_neg hno]
        rfl

/-- Each counter holds the number of its increments, modulo 2^32. -/
structure Counted (s : Counting) : Prop where
  suffix : ∀ r ∈ s.calls, r.left <:+ r.call.ops
  value : ∀ c, s.value c = UInt32.ofNat (made s c)

theorem start_counted : Counted .start :=
  ⟨fun _ h => (by cases h), fun _ => rfl⟩

theorem Moved.suffix {s t : Counting} {i : Nat} {r : Running} {op : Op} {left : List Op}
    (m : Moved s t i r op left) (h : Counted s) : op :: left <:+ r.call.ops := by
  rw [← m.todo]
  exact h.suffix r (List.mem_of_getElem? m.here)

theorem Moved.made {s t : Counting} {i : Nat} {r : Running} {op : Op} {left : List Op}
    (m : Moved s t i r op left) (h : Counted s) (c : Counter) :
    made t c = made s c + if increments c op then 1 else 0 := by
  have hset := sum_map_set (share c) m.here ⟨r.call, seqAfter s r op, left⟩
  have hshare : share c ⟨r.call, seqAfter s r op, left⟩ =
      share c r + if increments c op then 1 else 0 := by
    simp only [share, m.todo]
    exact executed_cons (m.suffix h)
  rw [← m.calls] at hset
  unfold CounterFlow.made
  omega

theorem call_counted {s : Counting} (h : Counted s) (c : Call) :
    Counted { s with calls := s.calls ++ [⟨c, 0, c.ops⟩] } := by
  constructor
  · intro r hr
    rcases List.mem_append.mp hr with hr | hr
    · exact h.suffix r hr
    · obtain rfl := List.mem_singleton.mp hr
      exact List.suffix_refl _
  · intro d
    rw [h.value d]
    simp [made, share]

theorem next_counted {s t : Counting} {e : CountEvent} (h : Counted s)
    (hs : s.next e = some t) : Counted t := by
  cases e with
  | call c =>
    cases hs
    exact call_counted h c
  | step i =>
    obtain ⟨r, op, left, m⟩ := next_moved hs
    constructor
    · intro q hq
      rw [m.calls] at hq
      rcases List.mem_or_eq_of_mem_set hq with hq | rfl
      · exact h.suffix q hq
      · exact (List.suffix_cons op left).trans (m.suffix h)
    · intro c
      rw [m.value, m.made h, h.value]
      split
      · rw [UInt32.ofNat_add]
        rfl
      · simp

theorem run_counted {es : List CountEvent} {s : Counting}
    (hr : run Counting.next .start es = some s) : Counted s :=
  run_invariant start_counted (fun _ _ _ h hs => next_counted h hs) hr

theorem next_here {s : Counting} {i : Nat} {r : Running} {op : Op} {left : List Op}
    (hr : s.calls[i]? = some r) (hl : r.left = op :: left) :
    ∃ t, s.next (.step i) = some t := by
  cases op with
  | add c | fetch w =>
    simp only [Counting.next, hr, hl]
    exact ⟨_, rfl⟩
  | log w =>
    simp only [Counting.next, hr, hl]
    by_cases hlt : r.seq < w.cap
    · exact ⟨_, if_pos hlt⟩
    · exact ⟨_, if_neg hlt⟩

theorem Moved.read {s t : Counting} {i : Nat} {r : Running} {op : Op} {left : List Op}
    (m : Moved s t i r op left) {stats : Stats} (hv : s.value = stats.read) :
    t.value = (stats.after [op]).read := by
  funext c
  rw [m.value, hv]
  simp only [Stats.after, List.foldl_cons, List.foldl_nil, increments, decide_eq_true_eq]
  cases hc : op.counter with
  | none => simp
  | some d =>
    rw [read_bump]
    rcases eq_or_ne c d with rfl | hne
    · simp
    · simp [Function.update_of_ne hne, hne.symm]

/-- A call that nothing comes between does what the wrappers do as one step. -/
theorem call_alone {s : Counting} {i : Nat} {r : Running} {stats : Stats}
    (hr : s.calls[i]? = some r) (hv : s.value = stats.read) :
    ∃ t, run Counting.next s (List.replicate r.left.length (.step i)) = some t ∧
      t.value = (stats.after r.left).read := by
  generalize hl : r.left = left
  induction left generalizing s r stats with
  | nil => exact ⟨s, rfl, hv⟩
  | cons op left ih =>
    obtain ⟨u, hu⟩ := next_here hr hl
    obtain ⟨q, op', left', m⟩ := next_moved hu
    obtain rfl := Option.some.inj (m.here.symm.trans hr)
    obtain ⟨rfl, rfl⟩ := List.cons.inj (m.todo.symm.trans hl)
    have hq : u.calls[i]? = some ⟨q.call, seqAfter s q op', left'⟩ := by
      rw [m.calls, List.getElem?_set_self (List.getElem?_eq_some_iff.mp hr).1]
    obtain ⟨t, ht, hvt⟩ := ih hq (m.read hv) rfl
    exact ⟨t, run_cons.mpr ⟨u, hu, ht⟩, hvt⟩

/-- The increment of `recvfrom` that says how the call went, and that of `sendto`. -/
def received (rc : Int) : Counter :=
  if rc > 0 then .rxOk else if rc = 0 then .recvEmpty else .recvErr

def sent (rc : Int) : Counter := if rc < 0 then .txFail else .txOk

/-- The increment is still to come for a call with this left to do, or it is not. -/
def ahead (c : Counter) (left : List Op) : Bool := left.contains (.add c)

def behind (c : Counter) (left : List Op) : Bool := !ahead c left

def betweenRecv : Call → List Op → Bool
  | .recvfrom _ _ real _, left => behind .recvCalls left && ahead (received real.rc) left
  | _, _ => false

def betweenSend : Call → List Op → Bool
  | .sendto _ _ _ _ real, left => behind (sent real.rc) left && ahead .txSeq left
  | _, _ => false

def betweenSock : Call → List Op → Bool
  | .socket _ _ _ _ real, left => real.rc < 0 && behind .sockN left && ahead .sockFail left
  | _, _ => false

def betweenSel : Call → List Op → Bool
  | .select real, left =>
    real.rc ≠ 0 && behind .selCalls left && ahead (if real.rc > 0 then .selReady else .selErr) left
  | _, _ => false

/-- A successful call of `socket`. -/
def socketSucceeds : Call → Bool
  | .socket _ _ _ _ real => real.rc ≥ 0
  | _ => false

def selectTimesOut : Call → Bool
  | .select real => real.rc = 0
  | _ => false

/-- A successful send to port 9993 of an IPv4 address. -/
def sendsToRoot : Call → Bool
  | .sendto _ _ _ dest real => real.rc ≥ 0 && (dest.map SockAddr.isRoot).getD false
  | _ => false

/-- A receipt of at least one byte from port 9993 of an IPv4 address. -/
def receivesFromRoot : Call → Bool
  | .recvfrom _ _ real out => real.rc > 0 && (out.src.map SockAddr.isRoot).getD false
  | _ => false

/-- The calls under way that are between two increments. -/
def inFlight (s : Counting) (p : Call → List Op → Bool) : Nat :=
  s.calls.countP (fun r => p r.call r.left)

/-- The calls of a kind that have the increment of `c` no longer ahead of them, whatever
their wrapper has done. -/
def counted (s : Counting) (q : Call → Bool) (c : Counter) : Nat :=
  s.calls.countP (fun r => q r.call && behind c r.left)

/-- The equations between the counters, in 32-bit arithmetic. -/
structure Consistent (s : Counting) : Prop where
  recv : s.value .recvCalls = s.value .rxOk + s.value .recvEmpty + s.value .recvErr +
    UInt32.ofNat (inFlight s betweenRecv)
  send : s.value .txOk + s.value .txFail = s.value .txSeq + UInt32.ofNat (inFlight s betweenSend)
  sock : s.value .sockN - s.value .sockFail =
    UInt32.ofNat (counted s socketSucceeds .sockN + inFlight s betweenSock)
  sel : s.value .selCalls = s.value .selReady + s.value .selErr +
    UInt32.ofNat (counted s selectTimesOut .selCalls + inFlight s betweenSel)
  txRoot : s.value .txRoot = UInt32.ofNat (counted s sendsToRoot .txRoot)
  rxRoot : s.value .rxRoot = UInt32.ofNat (counted s receivesFromRoot .rxRoot)

/-- No wrapped call is under way. -/
def Quiescent (s : Counting) : Prop := ∀ r ∈ s.calls, r.left = []

/-- How the call went, whether it was to port 9993 of an IPv4 address, and what it did. -/
def sendtoWays : List (Counter × Bool × List Op) :=
  [(.txFail, false, [.add .txFail, .add .txSeq, .fetch .sendto, .log .sendto]),
    (.txFail, false, [.add .txFail, .add .txSeq]),
    (.txOk, true, [.add .txOk, .add .txRoot, .add .txSeq, .fetch .sendto, .log .sendto]),
    (.txOk, false, [.add .txOk, .add .txSeq])]

def recvfromWays : List (Counter × Bool × List Op) :=
  [(.rxOk, true, [.add .recvCalls, .add .rxOk, .add .rxRoot, .add .rxSeq, .fetch .recvfrom,
      .log .recvfrom]),
    (.rxOk, false, [.add .recvCalls, .add .rxOk, .add .rxSeq, .fetch .recvfrom, .log .recvfrom]),
    (.rxOk, false, [.add .recvCalls, .add .rxOk, .add .rxSeq, .fetch .recvfrom]),
    (.recvEmpty, false, [.add .recvCalls, .add .recvEmpty]),
    (.recvErr, false, [.add .recvCalls, .add .recvErr])]

theorem sendto_ways (io : FileIo) (fd : Int) (buf : Bytes) (dest : Option SockAddr)
    (real : Outcome) :
    (sent real.rc, sendsToRoot (.sendto io fd buf dest real), sendtoOps real.rc dest) ∈
      sendtoWays := by
  unfold sendtoOps sent
  by_cases hrc : real.rc < 0
  · have hge : ¬ real.rc ≥ 0 := by omega
    cases dest <;> simp [hrc, hge, sendtoWays, sendsToRoot]
  · have hge : real.rc ≥ 0 := by omega
    cases dest with
    | none => simp [hrc, sendtoWays, sendsToRoot]
    | some a => cases h : a.isRoot <;> simp [hrc, hge, h, sendtoWays, sendsToRoot]

theorem recvfrom_ways (io : FileIo) (fd : Int) (real : Outcome) (out : Received) :
    (received real.rc, receivesFromRoot (.recvfrom io fd real out),
      recvfromOps real.rc out.src) ∈ recvfromWays := by
  unfold recvfromOps received
  split
  next hrc =>
    cases hsrc : out.src with
    | none => simp [recvfromWays, receivesFromRoot, hsrc]
    | some a =>
      cases a with
      | inet port a b c d =>
        cases h : SockAddr.isRoot (.inet port a b c d) <;>
          simp [h, hrc, hsrc, recvfromWays, receivesFromRoot]
      | inet6 port addr | other family =>
        simp [SockAddr.isRoot, hsrc, recvfromWays, receivesFromRoot]
  next hrc => split <;> simp [hrc, recvfromWays, receivesFromRoot]

/-- All the ways a call can go, as far as the counters see it. -/
def programs : List (List Op) :=
  (sendtoWays ++ recvfromWays).map (fun way => way.2.2) ++
    [[.add .sockN, .add .sockFail], [.add .sockN], [.add .bindN, .add .bindFail], [.add .bindN],
      [.add .selCalls, .add .selReady], [.add .selCalls, .add .selErr], [.add .selCalls],
      [.fetch .close, .log .close], [.fetch .setsockopt, .log .setsockopt],
      [.fetch .getSecureRandom, .log .getSecureRandom], []]

theorem ops_mem (c : Call) : c.ops ∈ programs := by
  unfold programs
  cases c with
  | sendto io fd buf dest real =>
    exact List.mem_append_left _ (List.mem_map_of_mem
      (List.mem_append_left _ (sendto_ways io fd buf dest real)))
  | recvfrom io fd real out =>
    exact List.mem_append_left _ (List.mem_map_of_mem
      (List.mem_append_right _ (recvfrom_ways io fd real out)))
  | socket io domain type protocol real =>
    apply List.mem_append_right
    by_cases h : real.rc < 0 <;> simp [Call.ops, h]
  | bind io fd addr real =>
    apply List.mem_append_right
    by_cases h : real.rc = 0 <;> simp [Call.ops, h]
  | setsockopt io fd level name real =>
    apply List.mem_append_right
    by_cases h : real.rc = 0 <;> simp [Call.ops, h]
  | select real =>
    apply List.mem_append_right
    simp only [Call.ops, selectOps]
    split
    · simp
    · split <;> simp
  | close io fd real | getSecureRandom io drawn =>
    apply List.mem_append_right
    simp [Call.ops]
  | writeR | consoleUpdate | pthreadCreate | fopen | mkdir | abort | exit =>
    apply List.mem_append_right
    simp [Call.ops]

/-- The counters that a call of this kind may increment. -/
def bumps : Call → List Counter
  | .socket .. => [.sockN, .sockFail]
  | .bind .. => [.bindN, .bindFail]
  | .sendto .. => [.txOk, .txFail, .txRoot, .txSeq, .txLogSeq]
  | .recvfrom .. => [.recvCalls, .rxOk, .rxRoot, .rxSeq, .recvLogSeq, .recvEmpty, .recvErr]
  | .select .. => [.selCalls, .selReady, .selErr]
  | .close .. => [.closeSeq]
  | .setsockopt .. => [.sockoptFail]
  | .getSecureRandom .. => [.randSeq]
  | _ => []

theorem sendto_bumps : ∀ way ∈ sendtoWays, ∀ op ∈ way.2.2, ∀ d, op.counter = some d →
    d ∈ [Counter.txOk, .txFail, .txRoot, .txSeq, .txLogSeq] := by
  simp [sendtoWays, Op.counter, Numbered.seq]

theorem recvfrom_bumps : ∀ way ∈ recvfromWays, ∀ op ∈ way.2.2, ∀ d, op.counter = some d →
    d ∈ [Counter.recvCalls, .rxOk, .rxRoot, .rxSeq, .recvLogSeq, .recvEmpty, .recvErr] := by
  simp [recvfromWays, Op.counter, Numbered.seq]

theorem ops_bumps (c : Call) : ∀ op ∈ c.ops, ∀ d, op.counter = some d → d ∈ bumps c := by
  cases c with
  | sendto io fd buf dest real => exact sendto_bumps _ (sendto_ways io fd buf dest real)
  | recvfrom io fd real out => exact recvfrom_bumps _ (recvfrom_ways io fd real out)
  | socket io domain type protocol real | bind io fd addr real
  | setsockopt io fd level name real =>
    simp only [Call.ops]
    split <;> simp [bumps, Op.counter, Numbered.seq]
  | select real =>
    simp only [Call.ops, selectOps]
    split
    · simp [bumps, Op.counter]
    · split <;> simp [bumps, Op.counter]
  | _ => simp [Call.ops, bumps, Op.counter, Numbered.seq]

/-- A call of another kind has no share in a counter. -/
theorem idle {c : Call} {d : Counter} (h : d ∉ bumps c) (left : List Op) :
    executed (increments d) c.ops left = 0 := by
  have hnone : c.ops.countP (increments d) = 0 := by
    apply List.countP_eq_zero.mpr
    intro op hop hinc
    exact h (ops_bumps c op hop d (of_decide_eq_true hinc))
  rw [executed, hnone, Nat.zero_sub]

theorem sendto_share : ∀ way ∈ sendtoWays, ∀ left ∈ way.2.2.tails,
    executed (increments .txOk) way.2.2 left + executed (increments .txFail) way.2.2 left =
        executed (increments .txSeq) way.2.2 left +
          (behind way.1 left && ahead .txSeq left).toNat ∧
      executed (increments .txRoot) way.2.2 left = (way.2.1 && behind .txRoot left).toNat := by
  decide

theorem recvfrom_share : ∀ way ∈ recvfromWays, ∀ left ∈ way.2.2.tails,
    executed (increments .recvCalls) way.2.2 left =
        executed (increments .rxOk) way.2.2 left + executed (increments .recvEmpty) way.2.2 left +
          executed (increments .recvErr) way.2.2 left +
          (behind .recvCalls left && ahead way.1 left).toNat ∧
      executed (increments .rxRoot) way.2.2 left = (way.2.1 && behind .rxRoot left).toNat := by
  decide

theorem recv_share (c : Call) : ∀ left ∈ c.ops.tails,
    executed (increments .recvCalls) c.ops left =
      executed (increments .rxOk) c.ops left + executed (increments .recvEmpty) c.ops left +
        executed (increments .recvErr) c.ops left + (betweenRecv c left).toNat := by
  intro left hleft
  cases c with
  | recvfrom io fd real out =>
    exact (recvfrom_share _ (recvfrom_ways io fd real out) left hleft).1
  | _ => simp only [idle, bumps, betweenRecv, List.mem_cons, reduceCtorEq, List.not_mem_nil,
      or_self, not_false_eq_true, Bool.toNat_false]

theorem send_share (c : Call) : ∀ left ∈ c.ops.tails,
    executed (increments .txOk) c.ops left + executed (increments .txFail) c.ops left =
      executed (increments .txSeq) c.ops left + (betweenSend c left).toNat := by
  intro left hleft
  cases c with
  | sendto io fd buf dest real =>
    exact (sendto_share _ (sendto_ways io fd buf dest real) left hleft).1
  | _ => simp only [idle, bumps, betweenSend, List.mem_cons, reduceCtorEq, List.not_mem_nil,
      or_self, not_false_eq_true, Bool.toNat_false]

theorem sock_share (c : Call) : ∀ left ∈ c.ops.tails,
    executed (increments .sockN) c.ops left = executed (increments .sockFail) c.ops left +
      ((socketSucceeds c && behind .sockN left).toNat + (betweenSock c left).toNat) := by
  cases c with
  | socket io domain type protocol real =>
    by_cases h : real.rc < 0
    · have hge : ¬ real.rc ≥ 0 := by omega
      simp only [Call.ops, socketSucceeds, betweenSock, h, hge, ↓reduceIte, decide_true,
        decide_false, Bool.true_and, Bool.false_and]
      decide
    · have hge : real.rc ≥ 0 := by omega
      simp only [Call.ops, socketSucceeds, betweenSock, h, hge, ↓reduceIte, decide_true,
        decide_false, Bool.true_and, Bool.false_and]
      decide
  | _ =>
    intro left hleft
    simp only [idle, bumps, socketSucceeds, betweenSock, List.mem_cons, reduceCtorEq,
      List.not_mem_nil, or_self, not_false_eq_true, Bool.false_and, Bool.toNat_false]

theorem sel_share (c : Call) : ∀ left ∈ c.ops.tails,
    executed (increments .selCalls) c.ops left =
      executed (increments .selReady) c.ops left + executed (increments .selErr) c.ops left +
        ((selectTimesOut c && behind .selCalls left).toNat + (betweenSel c left).toNat) := by
  cases c with
  | select real =>
    rcases Int.lt_trichotomy real.rc 0 with h | h | h
    · have hle : ¬ real.rc > 0 := by omega
      have hne : real.rc ≠ 0 := by omega
      simp only [Call.ops, selectOps, selectTimesOut, betweenSel, h, hle, hne, ↓reduceIte,
        decide_false, ne_eq, not_false_eq_true, decide_true, Bool.true_and, Bool.false_and]
      decide
    · simp only [Call.ops, selectOps, selectTimesOut, betweenSel, h]
      decide
    · have hne : real.rc ≠ 0 := by omega
      simp only [Call.ops, selectOps, selectTimesOut, betweenSel, h, hne, ↓reduceIte,
        decide_false, ne_eq, not_false_eq_true, decide_true, Bool.true_and, Bool.false_and]
      decide
  | _ =>
    intro left hleft
    simp only [idle, bumps, selectTimesOut, betweenSel, List.mem_cons, reduceCtorEq,
      List.not_mem_nil, or_self, not_false_eq_true, Bool.false_and, Bool.toNat_false]

theorem txRoot_share (c : Call) : ∀ left ∈ c.ops.tails,
    executed (increments .txRoot) c.ops left = (sendsToRoot c && behind .txRoot left).toNat := by
  intro left hleft
  cases c with
  | sendto io fd buf dest real =>
    exact (sendto_share _ (sendto_ways io fd buf dest real) left hleft).2
  | _ => simp only [idle, bumps, sendsToRoot, List.mem_cons, reduceCtorEq, List.not_mem_nil,
      or_self, not_false_eq_true, Bool.false_and, Bool.toNat_false]

theorem rxRoot_share (c : Call) : ∀ left ∈ c.ops.tails,
    executed (increments .rxRoot) c.ops left =
      (receivesFromRoot c && behind .rxRoot left).toNat := by
  intro left hleft
  cases c with
  | recvfrom io fd real out =>
    exact (recvfrom_share _ (recvfrom_ways io fd real out) left hleft).2
  | _ => simp only [idle, bumps, receivesFromRoot, List.mem_cons, reduceCtorEq, List.not_mem_nil,
      or_self, not_false_eq_true, Bool.false_and, Bool.toNat_false]

/-- An equation between the shares of each call holds of the whole. -/
theorem Counted.total {s : Counting} (h : Counted s) {f g : Call → List Op → Nat}
    (hfg : ∀ c, ∀ left ∈ c.ops.tails, f c left = g c left) :
    (s.calls.map (fun r => f r.call r.left)).sum =
      (s.calls.map (fun r => g r.call r.left)).sum := by
  apply sum_map_congr
  intro r hr
  exact hfg r.call _ ((List.mem_tails _ _).mpr (h.suffix r hr))

theorem made_sum (s : Counting) (c : Counter) :
    (s.calls.map (fun r => executed (increments c) r.call.ops r.left)).sum = made s c := rfl

theorem inFlight_sum (s : Counting) (p : Call → List Op → Bool) :
    (s.calls.map (fun r => (p r.call r.left).toNat)).sum = inFlight s p :=
  sum_map_toNat _ _

theorem counted_sum (s : Counting) (q : Call → Bool) (c : Counter) :
    (s.calls.map (fun r => (q r.call && behind c r.left).toNat)).sum = counted s q c :=
  sum_map_toNat _ _

theorem Counted.recv {s : Counting} (h : Counted s) :
    made s .recvCalls =
      made s .rxOk + made s .recvEmpty + made s .recvErr + inFlight s betweenRecv := by
  have ht := h.total recv_share
  simpa only [List.sum_map_add, made_sum, inFlight_sum] using ht

theorem Counted.send {s : Counting} (h : Counted s) :
    made s .txOk + made s .txFail = made s .txSeq + inFlight s betweenSend := by
  have ht := h.total send_share
  simpa only [List.sum_map_add, made_sum, inFlight_sum] using ht

theorem Counted.sock {s : Counting} (h : Counted s) :
    made s .sockN =
      made s .sockFail + (counted s socketSucceeds .sockN + inFlight s betweenSock) := by
  have ht := h.total sock_share
  simpa only [List.sum_map_add, made_sum, inFlight_sum, counted_sum] using ht

theorem Counted.sel {s : Counting} (h : Counted s) :
    made s .selCalls = made s .selReady + made s .selErr +
      (counted s selectTimesOut .selCalls + inFlight s betweenSel) := by
  have ht := h.total sel_share
  simpa only [List.sum_map_add, made_sum, inFlight_sum, counted_sum] using ht

theorem Counted.txRoot {s : Counting} (h : Counted s) :
    made s .txRoot = counted s sendsToRoot .txRoot := by
  have ht := h.total txRoot_share
  simpa only [made_sum, counted_sum] using ht

theorem Counted.rxRoot {s : Counting} (h : Counted s) :
    made s .rxRoot = counted s receivesFromRoot .rxRoot := by
  have ht := h.total rxRoot_share
  simpa only [made_sum, counted_sum] using ht

theorem Counted.consistent {s : Counting} (h : Counted s) : Consistent s := by
  constructor
  · rw [h.value, h.value, h.value, h.value, h.recv]
    simp only [UInt32.ofNat_add]
  · rw [h.value, h.value, h.value, ← UInt32.ofNat_add, h.send, UInt32.ofNat_add]
  · rw [h.value, h.value, h.sock, UInt32.ofNat_add, UInt32.add_comm, UInt32.add_sub_cancel]
  · rw [h.value, h.value, h.value, h.sel]
    simp only [UInt32.ofNat_add]
  · rw [h.value, h.txRoot]
  · rw [h.value, h.rxRoot]

theorem quiescent_inFlight {s : Counting} (hq : Quiescent s) {p : Call → List Op → Bool}
    (hp : ∀ c, p c [] = false) : inFlight s p = 0 := by
  apply List.countP_eq_zero.mpr
  intro r hr
  rw [hq r hr, hp]
  decide

/-- At every point of every interleaving the counters agree with one another and with the
calls made, up to the calls that are between two of their increments, and at rest there
are none. -/
theorem counters_consistent {es : List CountEvent} {s : Counting}
    (hr : run Counting.next .start es = some s) :
    Consistent s ∧ (Quiescent s → inFlight s betweenRecv = 0 ∧ inFlight s betweenSend = 0 ∧
      inFlight s betweenSock = 0 ∧ inFlight s betweenSel = 0) := by
  refine ⟨(run_counted hr).consistent, fun hq => ⟨?_, ?_, ?_, ?_⟩⟩
  · exact quiescent_inFlight hq fun c => by cases c <;> simp [betweenRecv, ahead]
  · exact quiescent_inFlight hq fun c => by cases c <;> simp [betweenSend, ahead]
  · exact quiescent_inFlight hq fun c => by cases c <;> simp [betweenSock, ahead]
  · exact quiescent_inFlight hq fun c => by cases c <;> simp [betweenSel, ahead]

/-- Four threads: a receipt that is counted and not yet classified, a failed socket, a
select that timed out, and a send to a root whose sequence number is still to come. -/
def fourThreads : List CountEvent :=
  [.call (.recvfrom .fine 3 ⟨-1, some 11⟩ ⟨[], none, none⟩),
    .call (.socket .fine 2 2 0 ⟨-1, some 105⟩), .step 0, .call (.select ⟨0, none⟩), .step 1,
    .call (.sendto .fine 3 [] (some (.inet 9993 84 17 53 155)) ⟨28, none⟩), .step 3, .step 2,
    .step 3, .step 1]

theorem counters_consistent_midway :
    ∃ s, run Counting.next .start fourThreads = some s ∧
      (inFlight s betweenRecv, inFlight s betweenSend, counted s selectTimesOut .selCalls,
        counted s sendsToRoot .txRoot) = (1, 1, 1, 1) ∧ Consistent s := by
  obtain ⟨s, hs⟩ := Option.isSome_iff_exists.mp
    (rfl : (run Counting.next .start fourThreads).isSome = true)
  have hf : (inFlight s betweenRecv, inFlight s betweenSend, counted s selectTimesOut .selCalls,
      counted s sendsToRoot .txRoot) = (1, 1, 1, 1) :=
    (Option.some.inj (congrArg (Option.map (fun s => (inFlight s betweenRecv,
      inFlight s betweenSend, counted s selectTimesOut .selCalls,
      counted s sendsToRoot .txRoot))) hs)).symm
  exact ⟨s, hs, hf, (counters_consistent hs).1⟩

end SwitchLdnZt.Proofs.CounterFlow
