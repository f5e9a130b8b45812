import SwitchLdnZt.Ping.Network
import SwitchLdnZt.Proofs.PingReply

namespace SwitchLdnZt.Proofs.PingNetwork
open Library Ping PingReply

/-- The `%.20s` of the reply keeps all of a 32-bit number, and so does the
pinger's own buffer. -/
theorem pingDatagram_eq (seq : UInt32) : pingDatagram seq = ascii "PING " ++ fmtU seq.toNat := by
  apply sent_of_fits
  have h5 : (ascii "PING ").length = 5 := rfl
  have := fmtU_length_le seq.toNat_lt
  simp only [List.length_append]
  omega

theorem cStringUpTo_fmtU (seq : UInt32) : cStringUpTo 20 (fmtU seq.toNat) = fmtU seq.toNat := by
  have hlen : (fmtU seq.toNat).length ≤ 20 := Nat.le_trans (fmtU_length_le seq.toNat_lt) (by decide)
  rw [cStringUpTo, List.take_of_length_le hlen]
  exact cString_of_no_nul (fun _ hb => fmtU_ne_zero hb)

theorem pongFor_ping (seq : UInt32) : pongFor (pingDatagram seq) = some (pongDatagram seq) := by
  rw [pingDatagram_eq]
  have htake : (ascii "PING " ++ fmtU seq.toNat).take 4 = ascii "PING" := by
    rw [List.take_append_of_le_length (by decide)]
    decide
  have hdrop : (ascii "PING " ++ fmtU seq.toNat).drop 5 = fmtU seq.toNat :=
    List.drop_left' (by decide)
  simp only [pongFor, htake, ↓reduceIte, hdrop, cStringUpTo_fmtU, pongDatagram]

theorem pong_not_ping {d : Bytes} (h : isPong d = true) : d.take 4 ≠ ascii "PING" := by
  have hd : d.take 4 = ascii "PONG" := by simpa [isPong] using h
  rw [hd]
  decide

theorem pongFor_pong {d : Bytes} (h : isPong d = true) : pongFor d = none := by
  simp [pongFor, pong_not_ping h]

theorem pingDatagram_long (seq : UInt32) : pingDatagram seq ≠ ascii "PING" := by
  intro he
  have hl := congrArg List.length he
  rw [pingDatagram_eq, List.length_append] at hl
  have h5 : (ascii "PING ").length = 5 := rfl
  have h4 : (ascii "PING").length = 4 := rfl
  omega

theorem isPing_pingDatagram (seq : UInt32) : isPing (pingDatagram seq) = true := by
  rw [isPing, pingDatagram_eq, List.take_append_of_le_length (by decide)]
  decide

theorem isPong_pingDatagram (seq : UInt32) : isPong (pingDatagram seq) = false := by
  rw [isPong, pingDatagram_eq, List.take_append_of_le_length (by decide)]
  decide

theorem isPong_pongDatagram (seq : UInt32) : isPong (pongDatagram seq) = true := by
  rw [isPong, pongDatagram, List.take_append_of_le_length (by decide)]
  decide

theorem isPing_pongDatagram (seq : UInt32) : isPing (pongDatagram seq) = false := by
  rw [isPing, pongDatagram, List.take_append_of_le_length (by decide)]
  decide

theorem pongDatagram_injective {a b : UInt32} (h : pongDatagram a = pongDatagram b) : a = b :=
  UInt32.toNat_inj.mp (fmtU_injective (List.append_cancel_left h))

/-- Whatever a node's buffer held, it answers every datagram but the bare
`PING` as the datagram alone says. -/
theorem receive_reply_owed (n : Node) (stack : Buffer 64) (src : From) (d : Bytes)
    (hs : 0 ≤ n.sock) (hd : d ≠ ascii "PING") :
    (n.receive stack (some (src, d))).2.reply = pongFor d := by
  have hneg : ¬ n.sock < 0 := Int.not_lt.mpr hs
  cases n with
  | switch sock => exact (poll_owed_iff src hneg stack d).mpr (fun h => absurd h hd)
  | pc p => exact (receive_owed_iff src hneg p.rxbuf d).mpr (fun h => absurd h hd)

/-- `PING <seq>` gets `PONG <seq>`. -/
theorem receive_ping (n : Node) (stack : Buffer 64) (src : From) (seq : UInt32)
    (hs : 0 ≤ n.sock) :
    (n.receive stack (some (src, pingDatagram seq))).2.reply = some (pongDatagram seq) :=
  (receive_reply_owed n stack src _ hs (pingDatagram_long seq)).trans (pongFor_ping seq)

theorem receive_pong (n : Node) (stack : Buffer 64) (src : From) {d : Bytes}
    (hs : 0 ≤ n.sock) (hd : isPong d = true) :
    (n.receive stack (some (src, d))).2.reply = none := by
  have hne : d ≠ ascii "PING" := by
    intro he
    cases he
    exact absurd hd (by decide)
  exact (receive_reply_owed n stack src d hs hne).trans (pongFor_pong hd)

/-- What is on the wire: a ping some node issued, or the answer to one. -/
def FromPing (pinged : List (Nat × UInt32)) (d : Bytes) : Prop :=
  ∃ n seq, (n, seq) ∈ pinged ∧ (d = pingDatagram seq ∨ d = pongDatagram seq)

theorem FromPing.mono {pinged : List (Nat × UInt32)} {d : Bytes} (h : FromPing pinged d)
    (more : List (Nat × UInt32)) : FromPing (pinged ++ more) d := by
  obtain ⟨n, seq, hm, hd⟩ := h
  exact ⟨n, seq, List.mem_append_left _ hm, hd⟩

def pingsIn (ps : List Packet) : Nat := ps.countP (fun p => isPing p.payload)
def pongsIn (ps : List Packet) : Nat := ps.countP (fun p => isPong p.payload)

structure Inv (s : Net) : Prop where
  flight : ∀ p ∈ s.flight, FromPing s.pinged p.payload
  pongs : pongsIn s.sent = pingsIn s.received
  total : s.sent.length = s.pinged.length + pingsIn s.received

theorem start_inv (nodes : Nat → Node) : Inv (Net.start nodes) :=
  ⟨by simp [Net.start], by simp [Net.start, pongsIn, pingsIn], by simp [Net.start, pingsIn]⟩

/-- The two ways a datagram under way is answered. -/
theorem FromPing.answer {pinged : List (Nat × UInt32)} {d : Bytes} (h : FromPing pinged d)
    (n : Node) (stack : Buffer 64) (src : From) (hs : 0 ≤ n.sock) :
    (∃ m seq, (m, seq) ∈ pinged ∧ d = pingDatagram seq ∧
      (n.receive stack (some (src, d))).2.reply = some (pongDatagram seq)) ∨
    (isPong d = true ∧ isPing d = false ∧ (n.receive stack (some (src, d))).2.reply = none) := by
  obtain ⟨m, seq, hm, hd | hd⟩ := h
  · exact .inl ⟨m, seq, hm, hd, hd ▸ receive_ping n stack src seq hs⟩
  · have hp : isPong d = true := hd ▸ isPong_pongDatagram seq
    exact .inr ⟨hp, hd ▸ isPing_pongDatagram seq, receive_pong n stack src hs hp⟩

variable {addr : Nat → From}

theorem receive_inv {s : Net} {i k : Nat} {p : Packet} {stack : Buffer 64}
    (h : Inv s) (hp : s.flight[k]? = some p) (hs : 0 ≤ (s.nodes i).sock) :
    Inv (s.receive addr i k p stack) := by
  have hmem : p ∈ s.flight := List.mem_of_getElem? hp
  have hrest : ∀ q ∈ s.flight.eraseIdx k, FromPing s.pinged q.payload :=
    fun q hq => h.flight q (List.mem_of_mem_eraseIdx hq)
  have hpongs := h.pongs
  have htotal := h.total
  simp only [pongsIn, pingsIn] at hpongs htotal
  rcases (h.flight p hmem).answer (s.nodes i) stack (addr p.src) hs with
    ⟨m, seq, hm, hd, hr⟩ | ⟨hpong, hping, hr⟩
  · have hping : isPing p.payload = true := by
      rw [hd]
      exact isPing_pingDatagram seq
    refine ⟨?_, ?_, ?_⟩
    · intro q hq
      simp only [Net.receive, Net.send, hr, Option.toList_some, List.map_cons, List.map_nil,
        List.mem_append, List.mem_singleton] at hq
      rcases hq with hq | rfl
      · exact hrest q hq
      · exact ⟨m, seq, hm, .inr rfl⟩
    · simp [Net.receive, Net.send, hr, pongsIn, pingsIn, hpongs, hping, isPong_pongDatagram]
    · simp [Net.receive, Net.send, hr, pingsIn, htotal, hping, Nat.add_assoc]
  · refine ⟨?_, ?_, ?_⟩
    · simpa [Net.receive, Net.send, hr] using hrest
    · simp [Net.receive, Net.send, hr, pongsIn, pingsIn, hpongs, hping]
    · simp [Net.receive, Net.send, hr, pingsIn, htotal, hping]

theorem ping_inv {s s' : Net} {i : Nat} {elapsed : Int}
    (h : Inv s) (hs : s.step addr (.ping i elapsed) = some s') : Inv s' := by
  simp only [Net.step] at hs
  split at hs
  next => cases hs
  next p hnode =>
    split at hs
    next hturn =>
      split at hs
      next dst htarget =>
        split at hs
        · next hdue =>
          cases hs
          refine ⟨?_, ?_, ?_⟩
          · intro q hq
            simp only [Net.send, put_flight, List.mem_append, List.mem_singleton] at hq
            rcases hq with hq | rfl
            · exact (h.flight q hq).mono _
            · exact ⟨i, p.pingSeq, by simp [Net.send], .inl rfl⟩
          · have := h.pongs
            simp only [pongsIn] at this
            simp [Net.send, pongsIn, this, isPong_pingDatagram]
          · have := h.total
            simp [Net.send]
            omega
        · cases hs
          exact ⟨h.flight, h.pongs, h.total⟩
      next =>
        cases hs
        exact ⟨h.flight, h.pongs, h.total⟩
    next => cases hs

theorem step_inv {s s' : Net} {e : NetEvent} (h : Inv s) (hs : s.step addr e = some s') :
    Inv s' := by
  cases e with
  | receive i k stack =>
    cases k with
    | none =>
      simp only [Net.step] at hs
      split at hs
      · cases hs
        exact ⟨h.flight, h.pongs, h.total⟩
      · cases hs
    | some k =>
      simp only [Net.step] at hs
      split at hs
      next p hp =>
        split at hs
        next hok =>
          cases hs
          exact receive_inv h hp hok.2.1
        next => cases hs
      next => cases hs
  | ping i elapsed => exact ping_inv h hs
  | lose k =>
    simp only [Net.step] at hs
    split at hs
    · cases hs
      exact ⟨fun q hq => h.flight q (List.mem_of_mem_eraseIdx hq), h.pongs, h.total⟩
    · cases hs
  | duplicate k =>
    simp only [Net.step] at hs
    split at hs
    next p hp =>
      cases hs
      refine ⟨?_, h.pongs, h.total⟩
      intro q hq
      rcases List.mem_append.mp hq with hq | hq
      · exact h.flight q hq
      · rw [List.mem_singleton] at hq
        exact hq ▸ h.flight p (List.mem_of_getElem? hp)
    next => cases hs

/-- What one delivery sends back. -/
def Answered (addr : Nat → From) (s : Net) : Prop :=
  ∀ i k p stack s', s.flight[k]? = some p → s.step addr (.receive i (some k) stack) = some s' →
    (isPing p.payload = true → ∃ n seq, (n, seq) ∈ s.pinged ∧ p.payload = pingDatagram seq ∧
      s'.sent = s.sent ++ [⟨i, p.src, pongDatagram seq⟩]) ∧
    (isPong p.payload = true → s'.sent = s.sent)

theorem Inv.answered {s : Net} (h : Inv s) : Answered addr s := by
  intro i k p stack s' hp hs
  simp only [Net.step, hp] at hs
  split at hs
  next hok =>
    cases hs
    rcases (h.flight p (List.mem_of_getElem? hp)).answer (s.nodes i) stack (addr p.src) hok.2.1
      with ⟨m, seq, hm, hd, hr⟩ | ⟨hpong, hping, hr⟩
    · refine ⟨fun _ => ⟨m, seq, hm, hd, by simp [Net.receive, Net.send, hr]⟩, ?_⟩
      intro hpong
      rw [hd, isPong_pingDatagram] at hpong
      cases hpong
    · refine ⟨?_, fun _ => by simp [Net.receive, Net.send, hr]⟩
      intro h
      rw [hping] at h
      cases h
  next => cases hs

theorem run_inv {nodes : Nat → Node} {es : List NetEvent} {s : Net}
    (hr : run (Net.step addr) (.start nodes) es = some s) : Inv s :=
  run_invariant (start_inv nodes) (fun _ _ _ h hs => step_inv h hs) hr

/-- Every node answers `PING <seq>` with `PONG <seq>`, different numbers with
different answers; in every run each PONG under way answers a ping really issued,
a delivered PING is answered once and a delivered PONG never, so that the PONGs
sent are as many as the PINGs delivered. -/
theorem pings_answered_once {nodes : Nat → Node} {es : List NetEvent} {s : Net}
    (hr : run (Net.step addr) (.start nodes) es = some s) :
    (∀ (n : Node) stack src seq, 0 ≤ n.sock →
      (n.receive stack (some (src, pingDatagram seq))).2.reply = some (pongDatagram seq)) ∧
    (∀ a b, pongDatagram a = pongDatagram b → a = b) ∧
    (∀ p ∈ s.flight, isPong p.payload = true →
      ∃ n seq, (n, seq) ∈ s.pinged ∧ p.payload = pongDatagram seq) ∧
    Answered addr s ∧
    pongsIn s.sent = pingsIn s.received ∧
    s.sent.length = s.pinged.length + pingsIn s.received := by
  have h := run_inv hr
  refine ⟨receive_ping, fun _ _ => pongDatagram_injective, ?_, h.answered, h.pongs, h.total⟩
  intro p hp hpong
  obtain ⟨n, seq, hm, hd | hd⟩ := h.flight p hp
  · rw [hd, isPong_pingDatagram] at hpong
    cases hpong
  · exact ⟨n, seq, hm, hd⟩

def freshPc : PcDiag := ⟨3, some 1, ⟨List.replicate 256 0, List.length_replicate⟩, 0, 0, .receive⟩

/-- One pinger and one Switch: the ping is duplicated on the way and both copies
are answered. -/
def duplicatedPing : List NetEvent :=
  let stack : Buffer 64 := ⟨List.replicate 64 7, List.length_replicate⟩
  [.receive 0 none stack, .ping 0 2000, .duplicate 0, .receive 1 (some 0) stack,
    .receive 1 (some 0) stack, .receive 0 (some 1) stack, .lose 0]

theorem pings_answered_once_duplicated :
    let addr : Nat → From := fun _ => ⟨ascii "10.0.0.2", 9994⟩
    let nodes : Nat → Node := fun i => if i = 0 then .pc freshPc else .switch 4
    ∃ s, run (Net.step addr) (.start nodes) duplicatedPing = some s ∧ pongsIn s.sent = 2 ∧
      Answered addr s ∧ pongsIn s.sent = pingsIn s.received := by
  intro addr nodes
  have hsome : (run (Net.step addr) (.start nodes) duplicatedPing).map (fun s => pongsIn s.sent) =
      some 2 := by decide
  obtain ⟨s, hs, hp⟩ := Option.map_eq_some_iff.mp hsome
  obtain ⟨-, -, -, ha, hc, -⟩ := pings_answered_once hs
  exact ⟨s, hs, hp, ha, hc⟩

end SwitchLdnZt.Proofs.PingNetwork
