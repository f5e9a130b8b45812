import SwitchLdnZt.Ping.Responder

namespace SwitchLdnZt.Proofs.PingReply
open Library Ping

/-- Against a string without NUL in its first `p.length` bytes, `strncmp` is a
comparison of that many bytes. -/
theorem strncmpEq_iff (s p rest : Bytes) (hp : ∀ x ∈ p, x ≠ 0) :
    strncmpEq p.length s (p ++ rest) = true ↔ s.take p.length = p := by
  induction p generalizing s with
  | nil => simp [strncmpEq]
  | cons x p ih =>
    have hx : x ≠ 0 := hp x (by simp)
    cases s with
    | nil => simp [strncmpEq]
    | cons a s =>
      have ht := ih s (fun y hy => hp y (by simp [hy]))
      by_cases ha : a = x
      · subst ha
        simp [strncmpEq, hx, ht]
      · simp [strncmpEq, ha]

theorem request_length {d : Bytes} (h : d.take 4 = ascii "PING") : 4 ≤ d.length := by
  have := congrArg List.length h
  simp only [List.length_take, show (ascii "PING").length = 4 from rfl] at this
  omega

section
variable (cap : Nat) (buf : Buffer (cap + 1)) (d : Bytes)

/-- The terminated receive buffer both handlers look at. -/
def view : Bytes := ((recvfrom buf cap d).1.set (recvfrom buf cap d).2 0).val

theorem view_eq : view cap buf d = d.take cap ++ 0 :: buf.val.drop (min d.length cap + 1) :=
  terminated buf d

/-- The buffer begins with the request's prefix exactly when the datagram does:
a shorter datagram is followed by its terminator. -/
theorem view_request (hcap : 25 ≤ cap) :
    (view cap buf d).take 4 = ascii "PING" ↔ d.take 4 = ascii "PING" := by
  rw [view_eq]
  rcases Nat.lt_or_ge d.length 4 with h | h
  · have hall : d.take cap = d := List.take_of_length_le (by omega)
    have hshort : d.take 4 ≠ ascii "PING" := by
      intro he
      have := request_length he
      omega
    rw [hall]
    constructor
    · intro he
      have hz : (0 : UInt8) ∈ ascii "PING" := by
        rw [← he, List.take_append]
        obtain ⟨k, hk⟩ : ∃ k, 4 - d.length = k + 1 := ⟨3 - d.length, by omega⟩
        simp [hk]
      exact absurd hz (by decide)
    · exact fun he => absurd he hshort
  · have hlen : 4 ≤ (d.take cap).length := by
      rw [List.length_take]
      omega
    rw [List.take_append_of_le_length hlen, List.take_take, Nat.min_eq_left (by omega)]

/-- Past the fifth byte the handlers print the datagram, as soon as it has five. -/
theorem view_text (hcap : 25 ≤ cap) (h : 5 ≤ d.length) :
    cStringUpTo 20 ((view cap buf d).drop 5) = cStringUpTo 20 (d.drop 5) := by
  have hlen : 5 ≤ (d.take cap).length := by
    rw [List.length_take]
    omega
  rw [view_eq, List.drop_append_of_le_length hlen, cStringUpTo_append_nul, List.drop_take,
    cStringUpTo_of_take _ _ _ (by omega)]

/-- For a bare request they start behind the terminator, in what the buffer held. -/
theorem view_stale (hcap : 25 ≤ cap) (h : d.length = 4) :
    (view cap buf d).drop 5 = buf.val.drop 5 := by
  have hall : d.take cap = d := List.take_of_length_le (by omega)
  have hmin : min d.length cap = 4 := by omega
  rw [view_eq, hall, hmin]
  have hd : (d ++ 0 :: buf.val.drop (4 + 1)).drop 5 =
      ((d ++ [0]) ++ buf.val.drop 5).drop (d ++ [0]).length := by
    simp [h]
  rw [hd, List.drop_left]

theorem cStringUpTo_nil_iff (b : Bytes) (h : 5 < b.length) :
    cStringUpTo 20 (b.drop 5) = [] ↔ b[5]? = some 0 := by
  have hb : b.drop 5 = b[5] :: b.drop 6 := List.drop_eq_getElem_cons h
  rw [cStringUpTo, hb, List.take_succ_cons, List.getElem?_eq_getElem h, cString]
  by_cases hz : b[5] = 0 <;> simp [hz]

/-- The reply either handler makes of the buffer. -/
def replyOf (b : Bytes) : Option Bytes :=
  if b.take 4 = ascii "PING" then some (ascii "PONG " ++ cStringUpTo 20 (b.drop 5)) else none

/-- The reply is the one owed to the datagram, save when a bare request meets a
buffer with something else than NUL behind its terminator. -/
theorem reply_owed_iff (hcap : 25 ≤ cap) :
    replyOf (view cap buf d) = pongFor d ↔ (d = ascii "PING" → buf.val[5]? = some 0) := by
  have hreq := view_request cap buf d hcap
  by_cases hp : d.take 4 = ascii "PING"
  · have h4 := request_length hp
    simp only [replyOf, pongFor, hreq, hp, ↓reduceIte, Option.some.injEq,
      List.append_cancel_left_eq]
    rcases Nat.lt_or_ge d.length 5 with h | h
    · have hd : d.length = 4 := by omega
      have hbare : d = ascii "PING" := by
        rw [← hp]
        exact (List.take_of_length_le (by omega)).symm
      have hnone : d.drop 5 = [] := List.drop_eq_nil_of_le (by omega)
      have hlen : 5 < buf.val.length := by
        rw [buf.property]
        omega
      rw [view_stale cap buf d hcap hd, hnone]
      simp only [hbare, forall_const]
      exact cStringUpTo_nil_iff buf.val hlen
    · have hlong : d ≠ ascii "PING" := by
        intro he
        cases he
        revert h
        decide
      simp [view_text cap buf d hcap h, hlong]
  · have hne : d ≠ ascii "PING" := by
      intro he
      cases he
      exact hp rfl
    simp [replyOf, pongFor, hreq, hp, hne]

end

/-- A receive returns 0 only for the empty datagram. -/
theorem count_zero_iff {size : Nat} (buf : Buffer size) {cap : Nat} (hcap : 0 < cap) (d : Bytes) :
    (recvfrom buf cap d).2 = 0 ↔ d = [] := by
  simp only [recvfrom]
  rw [← List.length_eq_zero_iff]
  omega

theorem pongFor_nil : pongFor [] = none := rfl

variable {sock : Int} (src : From)

/-- The Switch replies with what its terminated `char buf[64]` says; the guard
`n >= 4` loses nothing. -/
theorem poll_reply (hs : ¬ sock < 0) (stack : Buffer 64) {d : Bytes} (hd : d ≠ []) :
    (pingResponderPoll sock stack (some (src, d))).reply = replyOf (view 63 stack d) := by
  have hn : (recvfrom stack 63 d).2 ≠ 0 := fun h => hd ((count_zero_iff stack (by decide) d).mp h)
  have hreq := view_request 63 stack d (by decide)
  have hview : ((recvfrom stack 63 d).1.set (recvfrom stack 63 d).2 0).val =
      view 63 stack d := rfl
  simp only [pingResponderPoll, hs, ↓reduceIte, Nat.reduceSub, hn, hview]
  by_cases hp : d.take 4 = ascii "PING"
  · have hlong : (recvfrom stack 63 d).2 ≥ 4 := by
      have := request_length hp
      simp only [recvfrom]
      omega
    have hfit : Line.sent (snprintf 80 (ascii "PONG " ++
          cStringUpTo 20 ((view 63 stack d).drop 5))) =
        ascii "PONG " ++ cStringUpTo 20 ((view 63 stack d).drop 5) :=
      sent_of_fits (Nat.le_trans (pong_length_le _) (by decide))
    simp only [hreq.mpr hp, hlong, and_self, ↓reduceIte, replyOf, hfit]
  · have hb : ¬ (view 63 stack d).take 4 = ascii "PING" := fun h => hp (hreq.mp h)
    simp [hb, replyOf]

/-- The PC replies with what its terminated `rxbuf` says. -/
theorem receive_reply (hs : ¬ sock < 0) (rxbuf : Buffer 256) {d : Bytes} (hd : d ≠ []) :
    (pcReceive sock rxbuf (some (src, d))).2.reply = replyOf (view 255 rxbuf d) := by
  have hn : (recvfrom rxbuf 255 d).2 ≠ 0 := fun h => hd ((count_zero_iff rxbuf (by decide) d).mp h)
  have hcmp : strncmpEq 4 (view 255 rxbuf d) (ascii "PING" ++ [0]) = true ↔
      (view 255 rxbuf d).take 4 = ascii "PING" :=
    strncmpEq_iff _ (ascii "PING") [0] (by simp [ascii, charByte])
  have hview : ((recvfrom rxbuf 255 d).1.set (recvfrom rxbuf 255 d).2 0).val =
      view 255 rxbuf d := rfl
  simp only [pcReceive, hs, ↓reduceIte, Nat.reduceSub, hn, hview]
  by_cases hp : (view 255 rxbuf d).take 4 = ascii "PING"
  · have hfit : Line.sent (snprintf 32 (ascii "PONG " ++
          cStringUpTo 20 ((view 255 rxbuf d).drop 5))) =
        ascii "PONG " ++ cStringUpTo 20 ((view 255 rxbuf d).drop 5) :=
      sent_of_fits (Nat.le_trans (pong_length_le _) (by decide))
    simp only [hcmp.mpr hp, ↓reduceIte, replyOf, hp, hfit]
  · have hc : ¬ strncmpEq 4 (view 255 rxbuf d) (ascii "PING" ++ [0]) = true :=
      fun h => hp (hcmp.mp h)
    simp [hc, replyOf, hp]

theorem poll_owed_iff (hs : ¬ sock < 0) (stack : Buffer 64) (d : Bytes) :
    (pingResponderPoll sock stack (some (src, d))).reply = pongFor d ↔
      (d = ascii "PING" → stack.val[5]? = some 0) := by
  by_cases hd : d = []
  · subst hd
    have hn : (recvfrom stack 63 []).2 = 0 := rfl
    have hne : [] ≠ ascii "PING" := by decide
    simp [pingResponderPoll, hs, hn, Handled.nothing, pongFor_nil, hne]
  · rw [poll_reply src hs stack hd]
    exact reply_owed_iff 63 stack d (by decide)

theorem receive_owed_iff (hs : ¬ sock < 0) (rxbuf : Buffer 256) (d : Bytes) :
    (pcReceive sock rxbuf (some (src, d))).2.reply = pongFor d ↔
      (d = ascii "PING" → rxbuf.val[5]? = some 0) := by
  by_cases hd : d = []
  · subst hd
    have hn : (recvfrom rxbuf 255 []).2 = 0 := rfl
    have hne : [] ≠ ascii "PING" := by decide
    simp [pcReceive, hs, hn, Handled.nothing, pongFor_nil, hne]
  · rw [receive_reply src hs rxbuf hd]
    exact reply_owed_iff 255 rxbuf d (by decide)

/-- Both responders give the reply owed to the datagram, unless it is the bare
request and a buffer still holds a byte of text behind where its terminator goes. -/
theorem replies_owed_iff (hs : 0 ≤ sock) (stack : Buffer 64) (rxbuf : Buffer 256) (d : Bytes) :
    ((pingResponderPoll sock stack (some (src, d))).reply = pongFor d ∧
      (pcReceive sock rxbuf (some (src, d))).2.reply = pongFor d) ↔
    (d = ascii "PING" → stack.val[5]? = some 0 ∧ rxbuf.val[5]? = some 0) := by
  have hn : ¬ sock < 0 := Int.not_lt.mpr hs
  rw [poll_owed_iff src hn, receive_owed_iff src hn]
  constructor
  · intro h hd
    rcases h with ⟨hl, hr⟩
    exact ⟨hl hd, hr hd⟩
  · intro h
    exact ⟨fun hd => (h hd).1, fun hd => (h hd).2⟩

def zeroBuffer (size : Nat) : Buffer size := ⟨List.replicate size 0, List.length_replicate⟩

def peer : From := ⟨ascii "10.0.0.2", 9994⟩

theorem replies_owed_clean :
    (0 : Int) ≤ 3 ∧ (((pingResponderPoll 3 (zeroBuffer 64) (some (peer, ascii "PING"))).reply =
      pongFor (ascii "PING") ∧
      (pcReceive 3 (zeroBuffer 256) (some (peer, ascii "PING"))).2.reply =
        pongFor (ascii "PING")) ↔
    (ascii "PING" = ascii "PING" →
      (zeroBuffer 64).val[5]? = some 0 ∧ (zeroBuffer 256).val[5]? = some 0)) :=
  ⟨by decide, replies_owed_iff peer (by decide) (zeroBuffer 64) (zeroBuffer 256) (ascii "PING")⟩

/-- A bare `PING` after `PING 42` on the PC: the reply repeats the earlier
datagram's number. -/
theorem bare_ping_repeats_old_text :
    let earlier := pcReceive 3 (zeroBuffer 256) (some (peer, ascii "PING 42"))
    (pcReceive 3 earlier.1 (some (peer, ascii "PING"))).2.reply = some (ascii "PONG 42") ∧
    pongFor (ascii "PING") = some (ascii "PONG ") := by
  decide

end SwitchLdnZt.Proofs.PingReply
