import SwitchLdnZt.Proofs.LineBounds
import SwitchLdnZt.Proofs.PeerTable

namespace SwitchLdnZt.Proofs.EventLines
open Library App LineBounds PeerTable

/-- The message of a beat that brings one, and the node as it is then. -/
def message : Beat → Option (Self × EventMsg)
  | .event self msg => msg.map (Prod.mk self)
  | .turn _ _ => none

def messages (bs : List Beat) : List (Self × EventMsg) := bs.filterMap message

/-- The `int`s that are printed of a message. -/
def Ints (e : Self × EventMsg) : Prop :=
  IsInt e.1.port ∧ (∀ p ∈ e.2.peer, IsInt p.role ∧ IsInt p.latency) ∧
    ∀ code, e.2.code = .other code → IsInt code

/-- A text for a console: a whole line, of fewer bytes than `n`, that `%s` prints to its end. -/
structure Prints (n : Nat) (text : Bytes) : Prop where
  short : text.length < n
  whole : ∀ b ∈ text, b ≠ 0
  some : text ≠ []

theorem Prints.stored {n : Nat} {text : Bytes} (h : Prints n text) :
    cString (snprintf n text).stored = text :=
  cString_snprintf h.whole h.short

theorem fmtD_ne_zero {i : Int} {b : UInt8} (hb : b ∈ fmtD i) : b ≠ 0 := by
  unfold fmtD at hb
  split at hb
  · rcases List.mem_cons.mp hb with he | hb
    · rw [he]
      decide
    · exact fmtU_ne_zero hb
  · exact fmtU_ne_zero hb

theorem fmtX_ne_zero {width n : Nat} {b : UInt8} (hb : b ∈ fmtX width n) : b ≠ 0 := by
  intro he
  have hhex := (fmtX_hex width n).1 b hb
  rw [he] at hhex
  cases hhex

/-- A 64-bit value prints in at most sixteen digits. -/
theorem fmtX_length_le {width : Nat} (hw : width ≤ 16) (n : UInt64) :
    (fmtX width n.toNat).length ≤ 16 := by
  have hd : (Nat.toDigits 16 n.toNat).length ≤ 16 :=
    (Nat.length_toDigits_le_iff (by decide) (by decide)).mpr n.toNat_lt
  simp only [fmtX, List.length_append, List.length_replicate, List.length_map]
  omega

theorem name_length (e : PeerEvent) : (ascii e.name).length ≤ 15 := by
  cases e <;> decide

theorem ascii_whole {s : String} (h : 0 ∉ ascii s) : ∀ b ∈ ascii s, b ≠ 0 :=
  List.forall_mem_ne'.mpr h

theorem name_ne_zero (e : PeerEvent) : ∀ b ∈ ascii e.name, b ≠ 0 := by
  cases e <;> exact ascii_whole (by decide)

theorem peerLine_prints (e : PeerEvent) {p : PeerInfo} {port : Int} (hport : IsInt port)
    (hrole : IsInt p.role) (hlat : IsInt p.latency) :
    Prints 192 (ascii "[ZT] PEER " ++ ascii e.name ++ ascii " peer=" ++ fmtX 10 p.peerId.toNat ++
      ascii " role=" ++ fmtD p.role ++ ascii " paths=" ++ fmtU p.pathCount.toNat ++
      ascii " lat=" ++ fmtD p.latency ++ ascii " (port=" ++ fmtD port ++ ascii ")\n") := by
  have hname := name_length e
  have hid := fmtX_length_le (by decide : 10 ≤ 16) p.peerId
  have hrole := hrole.fmtD
  have hpaths := fmtU_uint32 p.pathCount
  have hlat := hlat.fmtD
  have hport := hport.fmtD
  refine ⟨?_, ?_, by simp⟩
  · have hlit : (ascii "[ZT] PEER ").length + (ascii " peer=").length + (ascii " role=").length +
        (ascii " paths=").length + (ascii " lat=").length + (ascii " (port=").length +
        (ascii ")\n").length = 43 := rfl
    simp only [List.length_append]
    omega
  · simp only [List.forall_mem_append]
    refine ⟨⟨⟨⟨⟨⟨⟨⟨⟨⟨⟨⟨?_, name_ne_zero e⟩, ?_⟩, fun _ => fmtX_ne_zero⟩, ?_⟩,
      fun _ => fmtD_ne_zero⟩, ?_⟩, fun _ => fmtU_ne_zero⟩, ?_⟩, fun _ => fmtD_ne_zero⟩, ?_⟩,
      fun _ => fmtD_ne_zero⟩, ?_⟩
    all_goals exact ascii_whole (by decide)

theorem eventLine_prints {self : Self} {msg : EventMsg} (h : Ints (self, msg)) :
    Prints 192 (eventLine self msg) := by
  obtain ⟨hport, hpeer, hother⟩ := h
  have hport' : (fmtD self.port).length ≤ 11 := hport.fmtD
  obtain ⟨code, peer⟩ := msg
  cases code with
  | nodeOnline =>
    have hid := fmtX_length_le (by decide : 0 ≤ 16) self.id
    refine ⟨?_, ?_, by simp [eventLine]⟩
    · simp [eventLine, ascii]
      omega
    · simp only [eventLine, List.forall_mem_append]
      exact ⟨⟨⟨⟨ascii_whole (by decide), fun _ => fmtX_ne_zero⟩, ascii_whole (by decide)⟩,
        fun _ => fmtD_ne_zero⟩, ascii_whole (by decide)⟩
  | nodeOffline =>
    refine ⟨?_, ?_, by simp [eventLine]⟩
    · simp [eventLine, ascii]
      omega
    · simp only [eventLine, List.forall_mem_append]
      exact ⟨⟨ascii_whole (by decide), fun _ => fmtD_ne_zero⟩, ascii_whole (by decide)⟩
  | other code =>
    have hcode := (hother code rfl).fmtD
    refine ⟨?_, ?_, by simp [eventLine]⟩
    · simp [eventLine, ascii]
      omega
    · simp only [eventLine, List.forall_mem_append]
      exact ⟨⟨ascii_whole (by decide), fun _ => fmtD_ne_zero⟩, ascii_whole (by decide)⟩
  | peer e =>
    cases peer with
    | some p =>
      obtain ⟨hrole, hlat⟩ := hpeer p rfl
      exact peerLine_prints e hport hrole hlat
    | none =>
      simp only [eventLine]
      refine ⟨?_, ?_, by simp⟩
      · cases e <;> decide
      · simp only [List.forall_mem_append]
        exact ⟨⟨ascii_whole (by decide), name_ne_zero e⟩, ascii_whole (by decide)⟩
  | nodeDown | networkOk | networkAccessDenied | networkNotFound | networkReadyIp4 | networkDown =>
    simp only [eventLine]
    exact ⟨by decide, ascii_whole (by decide), by decide⟩

/-- What the messages have printed so far, and whether one was of the node's end. -/
structure Told (ms : List (Self × EventMsg)) (s : Events) : Prop where
  printed : s.printed = ms.map (fun e => eventLine e.1 e.2)
  nodeDown : s.nodeDown = ms.any (fun e => e.2.isDown)

theorem printEvent_told {ms : List (Self × EventMsg)} {self : Self} {msg : EventMsg} {s s' : Events}
    (h : Told ms s) (hints : Ints (self, msg)) (he : printEvent self (some msg) s = some s') :
    Told (ms ++ [(self, msg)]) s' := by
  have hline := eventLine_prints hints
  obtain ⟨peers, -, rfl⟩ := Option.map_eq_some_iff.mp he
  constructor
  · rw [hline.stored, if_neg hline.some, h.printed, List.map_append, List.map_singleton]
  · rw [h.nodeDown, List.any_append, List.any_cons, List.any_nil, Bool.or_false]

theorem step_told {ms : List (Self × EventMsg)} {s s' : Heart} (h : Told ms s.events) (b : Beat)
    (hints : ∀ e ∈ message b, Ints e) (hs : s.step b = some s') :
    Told (ms ++ (message b).toList) s'.events := by
  cases b with
  | event self msg =>
    obtain ⟨e, he, rfl⟩ := Option.map_eq_some_iff.mp hs
    cases msg with
    | none =>
      cases he
      rwa [message, Option.map_none, Option.toList_none, List.append_nil]
    | some msg => exact printEvent_told h (hints _ rfl) he
  | turn pathCount path =>
    have hsame : s'.events = s.events := by
      rw [Heart.step] at hs
      split at hs
      · cases hs
        rfl
      · dsimp only at hs
        split at hs
        · split at hs <;> cases hs
          rfl
        · cases hs
          rfl
    rwa [message, Option.toList_none, List.append_nil, hsame]

/-- Whatever comes in between, the console and the log get the whole line of every message, in
the order of the messages, and the node is down for `main` once a message has said so. -/
theorem event_lines (bs : List Beat) (h : ∀ e ∈ messages bs, Ints e) :
    ∃ s, run Heart.step .start bs = some s ∧
      s.events.printed = (messages bs).map (fun e => eventLine e.1 e.2) ∧
      s.events.nodeDown = (messages bs).any (fun e => e.2.isDown) := by
  obtain ⟨s, hrun, -, -⟩ := run_exact (s := .start) start_exact bs
  have htold : Told (messages bs) s.events := by
    apply run_history (P := fun bs t => (∀ e ∈ messages bs, Ints e) → Told (messages bs) t.events)
      ?_ ?_ hrun h
    · exact fun _ => ⟨rfl, rfl⟩
    · intro bs t b u _ ht hs hints
      have hmore : messages (bs ++ [b]) = messages bs ++ (message b).toList :=
        filterMap_snoc message bs b
      rw [hmore, List.forall_mem_append] at hints
      rw [hmore]
      exact step_told (ht hints.1) b (fun e he => hints.2 e (Option.mem_toList.mpr he)) hs
  exact ⟨s, hrun, htold.printed, htold.nodeDown⟩

def comesAndGoes : List Beat :=
  [.event ⟨0xdeadbeef01, 9993⟩ (some ⟨.peer .direct, some ⟨0x62f865ae71, 4, 1, 38⟩⟩),
    .turn 1 none, .event ⟨0xdeadbeef01, -1⟩ (some ⟨.nodeDown, none⟩), .turn 0 none]

theorem event_lines_comesAndGoes : ∃ s, run Heart.step .start comesAndGoes = some s ∧
    s.events.printed = (messages comesAndGoes).map (fun e => eventLine e.1 e.2) ∧
    s.events.nodeDown = (messages comesAndGoes).any (fun e => e.2.isDown) := by
  apply event_lines
  have hmessages : messages comesAndGoes = [(⟨0xdeadbeef01, 9993⟩,
      ⟨.peer .direct, some ⟨0x62f865ae71, 4, 1, 38⟩⟩), (⟨0xdeadbeef01, -1⟩, ⟨.nodeDown, none⟩)] :=
    rfl
  rw [hmessages]
  simp [Ints, IsInt]

end SwitchLdnZt.Proofs.EventLines
