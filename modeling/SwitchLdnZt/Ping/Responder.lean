import SwitchLdnZt.Library.CText

namespace SwitchLdnZt.Ping
open Library

/-- A receive buffer keeps its size, whatever is stored in it. -/
abbrev Buffer (size : Nat) := { b : Bytes // b.length = size }

def Buffer.fill {size : Nat} (b : Buffer size) (d : Bytes) : Buffer size :=
  ⟨d.take size ++ b.val.drop d.length, by
    rw [List.length_append, List.length_take, List.length_drop, b.property]
    omega⟩

def Buffer.set {size : Nat} (b : Buffer size) (i : Nat) (x : UInt8) : Buffer size :=
  ⟨b.val.set i x, by rw [List.length_set, b.property]⟩

/-- The peer's address as the handlers print it. -/
structure From where
  ip : Bytes
  port : Nat

/-- `recvfrom(fd, buf, cap, ...)`: the buffer afterwards and the count returned. -/
def recvfrom {size : Nat} (buf : Buffer size) (cap : Nat) (d : Bytes) : Buffer size × Nat :=
  (buf.fill (d.take cap), min d.length cap)

/-- `strncmp(s, t, n) == 0` -/
def strncmpEq : Nat → Bytes → Bytes → Bool
  | 0, _, _ => true
  | n + 1, a :: s, b :: t => a == b && (a == 0 || strncmpEq n s t)
  | _, _, _ => false

/-- What a handler prints and the datagram it sends back to the peer. -/
structure Handled where
  printed : Bytes
  reply : Option Bytes

def Handled.nothing : Handled := ⟨[], none⟩

/-- `ping_responder_poll` of the Switch app; `stack` is what `char buf[64]` held
before the call, `incoming` what the non-blocking receive finds. -/
def pingResponderPoll (sock : Int) (stack : Buffer 64) (incoming : Option (From × Bytes)) :
    Handled :=
  if sock < 0 then .nothing
  else match incoming with
    | none => .nothing
    | some (src, d) =>
      let (buf, n) := recvfrom stack (64 - 1) d
      if n = 0 then .nothing
      else
        let buf := buf.set n 0
        let printed := ascii "[PING] rx from=" ++ src.ip ++ ascii ":" ++ fmtU src.port ++
          ascii " msg=" ++ cString buf.val ++ ascii "\n"
        if n ≥ 4 ∧ buf.val.take 4 = ascii "PING" then
          let pong := snprintf 80 (ascii "PONG " ++ cStringUpTo 20 (buf.val.drop 5))
          ⟨printed, some (Line.sent pong)⟩
        else ⟨printed, none⟩

/-- The receive branch of pc-diag's main loop, with the `rxbuf` the next turn
finds. -/
def pcReceive (sock : Int) (rxbuf : Buffer 256) (incoming : Option (From × Bytes)) :
    Buffer 256 × Handled :=
  if sock < 0 then (rxbuf, .nothing)
  else match incoming with
    | none => (rxbuf, .nothing)
    | some (src, d) =>
      let (buf, n) := recvfrom rxbuf (256 - 1) d
      if n = 0 then (buf, .nothing)
      else
        let buf := buf.set n 0
        let printed := ascii "[RX] from=" ++ src.ip ++ ascii ":" ++ fmtU src.port ++
          ascii " len=" ++ fmtU n ++ ascii " msg=" ++ cString buf.val ++ ascii "\n"
        if strncmpEq 4 buf.val (ascii "PING" ++ [0]) then
          let pong := snprintf 32 (ascii "PONG " ++ cStringUpTo 20 (buf.val.drop 5))
          (buf, ⟨printed, some (Line.sent pong)⟩)
        else (buf, ⟨printed, none⟩)

/-- The ping branch of pc-diag's main loop: `snprintf(msg, 32, "PING %u", seq)`. -/
def pingDatagram (seq : UInt32) : Bytes :=
  Line.sent (snprintf 32 (ascii "PING " ++ fmtU seq.toNat))

/-- The reply owed to a datagram, as a function of the datagram alone. -/
def pongFor (d : Bytes) : Option Bytes :=
  if d.take 4 = ascii "PING" then some (ascii "PONG " ++ cStringUpTo 20 (d.drop 5)) else none

theorem pong_length_le (b : Bytes) : (ascii "PONG " ++ cStringUpTo 20 b).length ≤ 25 := by
  have h5 : (ascii "PONG ").length = 5 := rfl
  have := cStringUpTo_length_le 20 b
  simp only [List.length_append]
  omega

/-- The terminated buffer: the datagram, cut to the capacity, its terminator, and
what the buffer held behind it. -/
theorem terminated {cap : Nat} (buf : Buffer (cap + 1)) (d : Bytes) :
    ((recvfrom buf cap d).1.set (recvfrom buf cap d).2 0).val =
      d.take cap ++ 0 :: buf.val.drop (min d.length cap + 1) := by
  have hlen : (d.take cap).length = min d.length cap := by
    rw [List.length_take, Nat.min_comm]
  have hlt : min d.length cap < buf.val.length := by
    rw [buf.property]
    omega
  have hfit : (d.take cap).take (cap + 1) = d.take cap := List.take_of_length_le (by omega)
  simp only [recvfrom, Buffer.set, Buffer.fill, hfit, hlen]
  rw [List.drop_eq_getElem_cons hlt, List.set_append_right _ _ (by omega), hlen,
    Nat.sub_self, List.set_cons_zero]

end SwitchLdnZt.Ping
