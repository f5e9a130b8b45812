import SwitchLdnZt.Library.Observe
import SwitchLdnZt.Library.Pacer
import SwitchLdnZt.PcDiag.Main
import SwitchLdnZt.Proofs.PingReply

namespace SwitchLdnZt.Proofs.Pacing
open Library Ping PcDiag

/-- The two guards of the ping loop that let something happen now and then. -/
inductive Guard
  | ping
  | report

namespace Guard

def period : Guard → Int
  | ping => 2000
  | report => 5000

def last (k : Guard) (s : Main) : Int :=
  match k with
  | ping => s.lastPing
  | report => s.lastReport

/-- There is no ping without a target. -/
def on (k : Guard) (s : Main) : Bool :=
  match k with
  | ping => s.haveTarget
  | report => true

def asks (k : Guard) (e : Event) : Bool :=
  match k, e with
  | ping, .ping _ => true
  | report, .report .. => true
  | _, _ => false

/-- Between the reading of the clock and the guard. -/
def pending (k : Guard) (pc : Pc) : Bool :=
  match k, pc with
  | _, .receive | _, .ping | report, .report => true
  | _, _ => false

end Guard

/-- Up to the socket. -/
def early : Pc → Bool
  | .readNetworkId | .nodeStart | .online | .onlineSleep | .netJoin | .addr | .addrSleep
  | .socket => true
  | _ => false

def looping : Pc → Bool
  | .loop | .receive | .ping | .report | .loopSleep => true
  | _ => false

/-- What `now_ms` returned, call by call. -/
def clockOf (s : Main) (e : Event) (_ : Main) : List Int :=
  match e with
  | .socket _ _ _ now => [now]
  | .turn now => if s.shutdownRequested then [] else [now]
  | _ => []

def askedAt (k : Guard) (s : Main) (e : Event) (_ : Main) : List Int :=
  if k.asks e then [s.elapsed] else []

/-- When the guard let a line be printed. -/
def passedAt (k : Guard) (s : Main) (e : Event) (t : Main) : List Int :=
  if k.asks e then (t.printed.drop s.printed.length).map (fun _ => s.elapsed) else []

/-- The pings among the datagrams sent. -/
def pinged (s : Main) (e : Event) (t : Main) : List Bytes :=
  if Guard.ping.asks e then t.sent.drop s.sent.length else []

variable {a : Args} {s t : Main} {e : Event} {k : Guard}

/-- A step that has nothing to do with the clock or with the guards. -/
structure Idle (s : Main) (e : Event) (t : Main) : Prop where
  start : t.start = s.start
  elapsed : t.elapsed = s.elapsed
  last : ∀ k : Guard, k.last t = k.last s
  on : ∀ k : Guard, k.on t = k.on s
  seq : t.pingSeq = s.pingSeq
  asks : ∀ k : Guard, k.asks e = false
  clock : clockOf s e t = []
  early : early t.pc = true → early s.pc = true
  looping : looping t.pc = true → looping s.pc = true
  pending : ∀ k : Guard, k.pending t.pc = k.pending s.pc

/-- Where `main` may go without a look at the clock or at a guard. -/
def goes (pc pc' : Pc) : Bool :=
  (!early pc' || early pc) && (!looping pc' || looping pc) &&
    (Guard.ping.pending pc' == Guard.ping.pending pc) &&
    (Guard.report.pending pc' == Guard.report.pending pc)

/-- The locals of the loop that the guards and the clock concern. -/
def timing (s : Main) : Int × Int × Int × Int × Bool × UInt32 :=
  (s.start, s.elapsed, s.lastPing, s.lastReport, s.haveTarget, s.pingSeq)

theorem Idle.of (htiming : timing t = timing s) (hgoes : goes s.pc t.pc = true)
    (hasks : ∀ k : Guard, k.asks e = false) (hclock : clockOf s e t = []) : Idle s e t := by
  simp only [timing, Prod.mk.injEq] at htiming
  obtain ⟨hstart, helapsed, hping, hreport, htarget, hseq⟩ := htiming
  simp only [goes, Bool.and_eq_true, Bool.or_eq_true, Bool.not_eq_true', beq_iff_eq] at hgoes
  obtain ⟨⟨⟨hearly, hlooping⟩, hpping⟩, hpreport⟩ := hgoes
  refine ⟨hstart, helapsed, ?_, ?_, hseq, hasks, hclock, ?_, ?_, ?_⟩
  · intro k
    cases k with
    | ping => exact hping
    | report => exact hreport
  · intro k
    cases k with
    | ping => exact htarget
    | report => rfl
  · intro h
    rcases hearly with hno | hyes
    · rw [hno] at h
      cases h
    · exact hyes
  · intro h
    rcases hlooping with hno | hyes
    · rw [hno] at h
      cases h
    · exact hyes
  · intro k
    cases k with
    | ping => exact hpping
    | report => exact hpreport

/-- A clock that does not go back, read at least every `gap`. -/
def Steady (gap : Int) (clock : List Int) : Prop :=
  clock.IsChain (fun x y => x ≤ y ∧ y ≤ x + gap)

/-- What the readings of the clock `clock`, the guard's questions `rs` and the times `ts`
that it let through have to do with the loop's locals. -/
structure Paced (k : Guard) (gap : Int) (clock rs ts : List Int) (s : Main) : Prop where
  pacer : k.on s = true → Pacer.over k.period rs = ⟨k.last s, ts⟩
  off : k.on s = false → ts = [] ∧ k.last s = 0
  place : (clock = [] ∧ rs = [] ∧ ts = [] ∧ s.elapsed = 0 ∧ k.last s = 0 ∧
      looping s.pc = false) ∨
    (clock.getLast? = some (s.start + s.elapsed) ∧ early s.pc = false)
  le : k.last s ≤ s.elapsed
  chain : (0 :: rs).IsChain (fun x y => y ≤ x + gap)
  fresh : if k.pending s.pc then s.elapsed ≤ (0 :: rs).getLast (List.cons_ne_nil _ _) + gap
    else s.elapsed = (0 :: rs).getLast (List.cons_ne_nil _ _)

variable {gap : Int} {clock rs ts : List Int}

theorem Paced.idle (h : Paced k gap clock rs ts s) (hi : Idle s e t) :
    Paced k gap clock rs ts t := by
  obtain ⟨hpacer, hoff, hplace, hle, hchain, hfresh⟩ := h
  refine ⟨?_, ?_, ?_, ?_, hchain, ?_⟩
  · rw [hi.on, hi.last]
    exact hpacer
  · rw [hi.on, hi.last]
    exact hoff
  · rw [hi.start, hi.elapsed, hi.last]
    rcases hplace with ⟨hc, hr, ht, he, hl, hno⟩ | ⟨hc, hno⟩
    · exact .inl ⟨hc, hr, ht, he, hl, Bool.eq_false_iff.mpr (fun hp =>
        Bool.eq_false_iff.mp hno (hi.looping hp))⟩
    · exact .inr ⟨hc, Bool.eq_false_iff.mpr (fun hp => Bool.eq_false_iff.mp hno (hi.early hp))⟩
  · rw [hi.elapsed, hi.last]
    exact hle
  · rw [hi.pending, hi.elapsed]
    exact hfresh

/-- A step of the loop that only moves on, within or without what is pending. -/
theorem Paced.moved (h : Paced k gap clock rs ts s) (hpc : looping s.pc = true)
    (hnot : early t.pc = false) (hstart : t.start = s.start) (helapsed : t.elapsed = s.elapsed)
    (hlast : k.last t = k.last s) (hon : k.on t = k.on s)
    (hpending : k.pending t.pc = k.pending s.pc) : Paced k gap clock rs ts t := by
  obtain ⟨hpacer, hoff, hplace, hle, hchain, hfresh⟩ := h
  refine ⟨?_, ?_, ?_, ?_, hchain, ?_⟩
  · rw [hon, hlast]
    exact hpacer
  · rw [hon, hlast]
    exact hoff
  · rw [hstart, helapsed]
    rcases hplace with ⟨-, -, -, -, -, hno⟩ | ⟨hc, -⟩
    · rw [hpc] at hno
      cases hno
    · exact .inr ⟨hc, hnot⟩
  · rw [helapsed, hlast]
    exact hle
  · rw [hpending, helapsed]
    exact hfresh

/-- The guard is asked: it does what the pacer does. -/
theorem Paced.asked (h : Paced k gap clock rs ts s) (hpc : looping s.pc = true)
    (hpending : k.pending s.pc = true) (hnot : early t.pc = false) (hover : k.pending t.pc = false)
    (hstart : t.start = s.start) (helapsed : t.elapsed = s.elapsed) (hon : k.on t = k.on s)
    {ts' : List Int} (hgo : (k.on s = true → s.elapsed - k.last s ≥ k.period →
      k.last t = s.elapsed ∧ ts' = [s.elapsed]))
    (hstay : ¬ (k.on s = true ∧ s.elapsed - k.last s ≥ k.period) →
      k.last t = k.last s ∧ ts' = []) : Paced k gap clock (rs ++ [s.elapsed]) (ts ++ ts') t := by
  obtain ⟨hpacer, hoff, hplace, hle, hchain, hfresh⟩ := h
  rw [if_pos hpending] at hfresh
  have hget : (0 :: (rs ++ [s.elapsed])).getLast (List.cons_ne_nil _ _) = s.elapsed :=
    List.getLast_append_singleton (0 :: rs)
  refine ⟨?_, ?_, ?_, ?_, ?_, ?_⟩
  · intro hset
    rw [hon] at hset
    rw [Pacer.over_snoc, hpacer hset, Pacer.tick]
    dsimp only
    by_cases hdue : s.elapsed - k.last s ≥ k.period
    · obtain ⟨hl, hts⟩ := hgo hset hdue
      rw [if_pos hdue, hl, hts]
    · obtain ⟨hl, hts⟩ := hstay (fun hb => hdue hb.2)
      rw [if_neg hdue, hl, hts, List.append_nil]
  · intro hset
    rw [hon] at hset
    obtain ⟨hts, hl⟩ := hoff hset
    obtain ⟨hl', hts'⟩ := hstay (fun hb => by rw [hset] at hb; cases hb.1)
    rw [hts, hts', hl', hl]
    exact ⟨rfl, rfl⟩
  · rw [hstart, helapsed]
    rcases hplace with ⟨-, -, -, -, -, hno⟩ | ⟨hc, -⟩
    · rw [hpc] at hno
      cases hno
    · exact .inr ⟨hc, hnot⟩
  · rw [helapsed]
    by_cases hb : k.on s = true ∧ s.elapsed - k.last s ≥ k.period
    · rw [(hgo hb.1 hb.2).1]
    · rw [(hstay hb).1]
      exact hle
  · rw [← List.cons_append, List.isChain_append]
    refine ⟨hchain, .singleton _, ?_⟩
    intro x hx y hy
    cases hy
    rw [List.getLast?_eq_some_getLast (List.cons_ne_nil _ _)] at hx
    cases hx
    exact hfresh
  · rw [hover, helapsed, hget]
    rfl

theorem Paced.socket (h : Paced k gap clock rs ts s) (hpc : s.pc = .socket) (ip : Bytes)
    (nodeId : UInt64) (fd now : Int) :
    Paced k gap (clock ++ [now]) rs ts (s.socket a ip nodeId fd now) := by
  obtain ⟨-, -, hplace, -, hchain, -⟩ := h
  obtain ⟨hc, hr, ht, he, hl, -⟩ | ⟨-, hno⟩ := hplace
  · subst hc hr ht
    have hl' : k.last (s.socket a ip nodeId fd now) = 0 := by
      rw [← hl]
      cases k <;> rfl
    refine ⟨?_, fun _ => ⟨rfl, hl'⟩, .inr ⟨?_, rfl⟩, ?_, hchain, ?_⟩
    · intro _
      rw [hl']
      rfl
    · change some now = some (now + s.elapsed)
      rw [he, add_zero]
    · rw [hl']
      exact le_of_eq he.symm
    · cases k <;> exact he
  · rw [hpc] at hno
    cases hno

theorem Paced.turn (h : Paced k gap clock rs ts s) (hpc : s.pc = .loop) {now : Int}
    (hclock : Steady gap (clock ++ [now])) :
    Paced k gap (clock ++ [now]) rs ts
      { s.begin .ping .receive with elapsed := now - s.start } := by
  obtain ⟨hpacer, hoff, hplace, hle, hchain, hfresh⟩ := h
  have hlast : k.last { s.begin .ping .receive with elapsed := now - s.start } = k.last s := by
    cases k <;> rfl
  have hon : k.on { s.begin .ping .receive with elapsed := now - s.start } = k.on s := by
    cases k <;> rfl
  have hnot : k.pending s.pc = false := by
    rw [hpc]
    cases k <;> rfl
  have hpending : k.pending .receive = true := by cases k <;> rfl
  rw [hnot] at hfresh
  obtain ⟨-, -, -, -, -, hno⟩ | ⟨hc, -⟩ := hplace
  · rw [hpc] at hno
    cases hno
  · obtain ⟨hback, hsoon⟩ := (List.isChain_append.mp hclock).2.2 _ hc now rfl
    refine ⟨?_, ?_, .inr ⟨?_, rfl⟩, ?_, hchain, ?_⟩
    · rw [hon, hlast]
      exact hpacer
    · rw [hon, hlast]
      exact hoff
    · rw [List.getLast?_append_of_ne_nil _ (by simp), List.getLast?_singleton]
      change some now = some (s.start + (now - s.start))
      rw [add_sub_cancel]
    · rw [hlast]
      change k.last s ≤ now - s.start
      omega
    · change if k.pending .receive = true then now - s.start ≤ _ else now - s.start = _
      rw [if_pos hpending]
      simp only [Bool.false_eq_true, if_false] at hfresh
      omega

/-- What the ping guard does with the time that has gone by. -/
theorem ping_cases (s : Main) (rc : Int) :
    (Guard.ping.on s = true ∧ s.elapsed - Guard.ping.last s ≥ Guard.ping.period ∧
      ∃ line, s.ping a rc = { s with
        pc := .report
        lastPing := s.elapsed
        pingSeq := s.pingSeq + 1
        sent := s.sent ++ [pingDatagram s.pingSeq]
        printed := s.printed ++ [line] }) ∨
    (¬ (Guard.ping.on s = true ∧ s.elapsed - Guard.ping.last s ≥ Guard.ping.period) ∧
      s.ping a rc = { s with pc := .report }) := by
  unfold Main.ping
  split
  next hb =>
    simp only [Bool.and_eq_true, decide_eq_true_eq] at hb
    exact .inl ⟨hb.1, hb.2, _, rfl⟩
  next hb =>
    simp only [Bool.and_eq_true, decide_eq_true_eq] at hb
    exact .inr ⟨hb, rfl⟩

theorem report_cases (s : Main) (nodeId : UInt64) (online ready : Int) :
    (s.elapsed - Guard.report.last s ≥ Guard.report.period ∧
      ∃ line, s.report nodeId online ready = { s with
        pc := .loopSleep
        lastReport := s.elapsed
        printed := s.printed ++ [line] }) ∨
    (¬ s.elapsed - Guard.report.last s ≥ Guard.report.period ∧
      s.report nodeId online ready = { s with pc := .loopSleep }) := by
  unfold Main.report
  split
  next hb => exact .inl ⟨hb, _, rfl⟩
  next hb => exact .inr ⟨hb, rfl⟩

theorem Paced.ping (h : Paced k gap clock rs ts s) (hpc : s.pc = .ping) (rc : Int) :
    Paced k gap clock (rs ++ askedAt k s (.ping rc) (s.ping a rc))
      (ts ++ passedAt k s (.ping rc) (s.ping a rc)) (s.ping a rc) := by
  have hloop : looping s.pc = true := by rw [hpc]; rfl
  cases k with
  | ping =>
    have hp : Guard.ping.pending s.pc = true := by rw [hpc]; rfl
    obtain ⟨hon, hdue, line, ht⟩ | ⟨hno, ht⟩ := ping_cases (a := a) s rc
    · refine h.asked hloop hp ?_ ?_ ?_ ?_ ?_ (fun _ _ => ?_) (fun hno => absurd ⟨hon, hdue⟩ hno)
      all_goals rw [ht]
      all_goals try rfl
      exact ⟨rfl, by simp [passedAt, Guard.asks]⟩
    · refine h.asked hloop hp ?_ ?_ ?_ ?_ ?_ (fun hon hdue => absurd ⟨hon, hdue⟩ hno) (fun _ => ?_)
      all_goals rw [ht]
      all_goals try rfl
      exact ⟨rfl, by simp [passedAt, Guard.asks]⟩
  | report =>
    rw [askedAt, passedAt]
    have hno : Guard.report.asks (.ping rc) = false := rfl
    rw [hno]
    simp only [Bool.false_eq_true, if_false, List.append_nil]
    obtain ⟨-, -, line, ht⟩ | ⟨-, ht⟩ := ping_cases (a := a) s rc
    all_goals
      rw [ht]
      exact h.moved hloop rfl rfl rfl rfl rfl (by rw [hpc]; rfl)

theorem Paced.report (h : Paced k gap clock rs ts s) (hpc : s.pc = .report) (nodeId : UInt64)
    (online ready : Int) :
    Paced k gap clock
      (rs ++ askedAt k s (.report nodeId online ready) (s.report nodeId online ready))
      (ts ++ passedAt k s (.report nodeId online ready) (s.report nodeId online ready))
      (s.report nodeId online ready) := by
  have hloop : looping s.pc = true := by rw [hpc]; rfl
  cases k with
  | report =>
    have hp : Guard.report.pending s.pc = true := by rw [hpc]; rfl
    obtain ⟨hdue, line, ht⟩ | ⟨hno, ht⟩ := report_cases s nodeId online ready
    · refine h.asked hloop hp ?_ ?_ ?_ ?_ ?_ (fun _ _ => ?_) (fun hno => absurd ⟨rfl, hdue⟩ hno)
      all_goals rw [ht]
      all_goals try rfl
      exact ⟨rfl, by simp [passedAt, Guard.asks]⟩
    · refine h.asked hloop hp ?_ ?_ ?_ ?_ ?_ (fun _ hdue => absurd hdue hno) (fun _ => ?_)
      all_goals rw [ht]
      all_goals try rfl
      exact ⟨rfl, by simp [passedAt, Guard.asks]⟩
  | ping =>
    rw [askedAt, passedAt]
    have hno : Guard.ping.asks (.report nodeId online ready) = false := rfl
    rw [hno]
    simp only [Bool.false_eq_true, if_false, List.append_nil]
    obtain ⟨-, line, ht⟩ | ⟨-, ht⟩ := report_cases s nodeId online ready
    all_goals
      rw [ht]
      exact h.moved hloop rfl rfl rfl rfl rfl (by rw [hpc]; rfl)

section
variable {rxbuf : Buffer 256} {es : List Event}

/-- The pings sent so far are numbered from zero, modulo 2^32. -/
structure Numbered (n : Nat) (pings : List Bytes) (s : Main) : Prop where
  pings : pings = (List.range n).map fun i => pingDatagram (UInt32.ofNat i)
  seq : s.pingSeq = UInt32.ofNat n

theorem Numbered.more {n : Nat} {ps : List Bytes} (h : Numbered n ps s)
    (hseq : t.pingSeq = s.pingSeq + 1) :
    Numbered (n + 1) (ps ++ [pingDatagram s.pingSeq]) t := by
  refine ⟨?_, ?_⟩
  · rw [List.range_succ, List.map_append, ← h.pings, h.seq, List.map_singleton]
  · rw [hseq, h.seq, UInt32.ofNat_add]
    rfl

end

end SwitchLdnZt.Proofs.Pacing
