import SwitchLdnZt.Compat.Pipe

namespace SwitchLdnZt.Proofs.PipeStream
open Library Compat

@[simp] theorem offer_bound (s : Sock) (dst : Port) (d : Datagram) :
    (s.offer dst d).bound = s.bound := by
  unfold Sock.offer
  split <;> rfl

@[simp] theorem offer_peer (s : Sock) (dst : Port) (d : Datagram) :
    (s.offer dst d).peer = s.peer := by
  unfold Sock.offer
  split <;> rfl

/-- Bytes of the queued datagrams that were written to the other end. -/
def ownBytes (queue : List Datagram) : Bytes :=
  (queue.filter Datagram.own).flatMap Datagram.payload

theorem offer_stray (s : Sock) (src dst : Port) (payload : Bytes) :
    ownBytes (s.offer dst ⟨src, payload, false⟩).queue = ownBytes s.queue := by
  unfold Sock.offer
  split
  · simp [ownBytes]
  · rfl

/-- A socket of the pipe under construction: nothing of its queue was written
through the pipe, but strays may be waiting there. -/
def Holds (w : PipeWorld) (fd : Int) (bound peer : Option Port) : Prop :=
  ∃ s, w.socks fd = some s ∧ s.bound = bound ∧ s.peer = peer ∧ ownBytes s.queue = []

def Building (w : PipeWorld) : PipePc → Prop
  | .socketA => True
  | .socketB a => Holds w a none none
  | .bindA a b => a ≠ b ∧ Holds w a none none ∧ Holds w b none none
  | .bindB a b => a ≠ b ∧ (∃ aa, Holds w a (some aa) none) ∧ Holds w b none none
  | .nameA a b => a ≠ b ∧ (∃ aa, Holds w a (some aa) none) ∧ ∃ bb, Holds w b (some bb) none
  | .nameB a b aa => a ≠ b ∧ Holds w a (some aa) none ∧ ∃ bb, Holds w b (some bb) none
  | .connectA a b aa bb => a ≠ b ∧ Holds w a (some aa) none ∧ Holds w b (some bb) none
  | .connectB a b aa bb => a ≠ b ∧ Holds w a (some aa) (some bb) ∧ Holds w b (some bb) none
  | .returned rc => rc ≠ 0

/-- The pipe works: what was sent is what was got and what waits at the read end. -/
structure Flowing (w : PipeWorld) (a b : Int) : Prop where
  distinct : a ≠ b
  ends : ∃ aa bb s, w.socks a = some s ∧ s.bound = some aa ∧ s.peer = some bb ∧
    w.sent = w.got ++ ownBytes s.queue ∧
    ∀ t, w.socks b = some t → t.bound = some bb ∧ t.peer = some aa

structure Quiet (w : PipeWorld) : Prop where
  sent : w.sent = []
  got : w.got = []
  zeroRead : w.zeroRead = false

inductive Inv (w : PipeWorld) : Prop
  | building (quiet : Quiet w) (sockets : Building w w.pc)
  | flowing (a b : Int) (returned : w.pc = .returned 0) (fds : w.fds = some (a, b))
      (ends : Flowing w a b) (never : w.zeroRead = false)

theorem entry_inv (socks : Socks) (fds : Option (Int × Int)) (errno : Int) :
    Inv (pipeEntry socks fds errno) := by
  cases fds with
  | none => exact .building ⟨rfl, rfl, rfl⟩ (by decide : (-1 : Int) ≠ 0)
  | some p => exact .building ⟨rfl, rfl, rfl⟩ trivial

theorem Holds.send {w : PipeWorld} {fd : Int} {bound peer : Option Port}
    (h : Holds w fd bound peer) (src dst : Port) (payload : Bytes) :
    Holds { w with socks := w.socks.send dst ⟨src, payload, false⟩ } fd bound peer := by
  obtain ⟨s, hs, hb, hp, hq⟩ := h
  refine ⟨s.offer dst ⟨src, payload, false⟩, by simp [Socks.send, hs], ?_, ?_, ?_⟩
  · rw [offer_bound, hb]
  · rw [offer_peer, hp]
  · rw [offer_stray, hq]

theorem Holds.other {w : PipeWorld} {fd : Int} {bound peer : Option Port}
    (h : Holds w fd bound peer) {k : Int} (s : Option Sock) (pc : PipePc) (hne : fd ≠ k) :
    Holds (w.set k s pc) fd bound peer := by
  obtain ⟨t, ht, hr⟩ := h
  exact ⟨t, by simpa [PipeWorld.set, Function.update_of_ne hne] using ht, hr⟩

theorem holds_fresh (w : PipeWorld) (fd : Int) (pc : PipePc) :
    Holds (w.set fd (some .fresh) pc) fd none none :=
  ⟨.fresh, by simp [PipeWorld.set], rfl, rfl, rfl⟩

theorem Holds.bind {w : PipeWorld} {fd : Int} {peer : Option Port}
    (h : Holds w fd none peer) (p : Port) (pc : PipePc) :
    Holds (w.bind fd p pc) fd (some p) peer := by
  obtain ⟨s, hs, _, hp, hq⟩ := h
  exact ⟨{ s with bound := some p }, by simp [PipeWorld.bind, PipeWorld.set, hs], rfl, hp, hq⟩

theorem Holds.connect {w : PipeWorld} {fd : Int} {bound : Option Port}
    (h : Holds w fd bound none) (p : Port) (pc : PipePc) :
    Holds (w.connect fd p pc) fd bound (some p) := by
  obtain ⟨s, hs, hb, _, hq⟩ := h
  exact ⟨{ s with peer := some p }, by simp [PipeWorld.connect, PipeWorld.set, hs], hb, rfl, hq⟩

theorem Holds.name {w : PipeWorld} {fd : Int} {p q : Port} {peer : Option Port}
    (h : Holds w fd (some p) peer) (hn : w.name fd = some q) : q = p := by
  obtain ⟨s, hs, hb, _⟩ := h
  simp only [PipeWorld.name, hs, Option.bind_some, hb, Option.some.injEq] at hn
  exact hn.symm

theorem Quiet.fail {w : PipeWorld} (h : Quiet w) (a b : Int) : Inv (w.fail a b) :=
  .building ⟨h.sent, h.got, h.zeroRead⟩ (by decide : (-1 : Int) ≠ 0)

/-- With the second connect the pipe is there, and still empty. -/
theorem connected_flowing {w : PipeWorld} {a b : Int} {aa bb : Port} (quiet : Quiet w)
    (hne : a ≠ b) (ha : Holds w a (some aa) (some bb)) (hb : Holds w b (some bb) none) :
    Flowing { w.connect b aa (.returned 0) with fds := some (a, b) } a b := by
  obtain ⟨s, hsa, hab, hap, hq⟩ := ha.other (k := b)
    ((w.socks b).map (fun s => { s with peer := some aa })) (.returned 0) hne
  obtain ⟨t, htb, hbb, hbp, _⟩ := hb.connect aa (.returned 0)
  refine ⟨hne, aa, bb, s, hsa, hab, hap, ?_, ?_⟩
  · simp [PipeWorld.connect, PipeWorld.set, quiet.sent, quiet.got, hq]
  · intro u hu
    have he : t = u := Option.some.inj (htb.symm.trans hu)
    subst he
    exact ⟨hbb, hbp⟩

/-- Each answered call of `pipe` moves the two sockets to the next stage. -/
theorem answer_inv {w w' : PipeWorld} {ret : Int} {port : Port} (quiet : Quiet w)
    (sockets : Building w w.pc) (hs : w.answer ret port = some w') : Inv w' := by
  unfold PipeWorld.answer at hs
  split at hs
  next hpc =>
    split at hs
    · cases hs
      exact .building ⟨quiet.sent, quiet.got, quiet.zeroRead⟩ (by decide : (-1 : Int) ≠ 0)
    · split at hs
      · cases hs
        exact .building ⟨quiet.sent, quiet.got, quiet.zeroRead⟩ (holds_fresh w _ _)
      · cases hs
  next a hpc =>
    simp only [hpc, Building] at sockets
    split at hs
    · cases hs
      exact .building ⟨quiet.sent, quiet.got, quiet.zeroRead⟩ (by decide : (-1 : Int) ≠ 0)
    · split at hs
      · next hfree =>
        cases hs
        have hne : a ≠ ret := by
          intro he
          cases he
          obtain ⟨s, hs, _⟩ := sockets
          simp [hs] at hfree
        exact .building ⟨quiet.sent, quiet.got, quiet.zeroRead⟩
          ⟨hne, sockets.other _ _ hne, holds_fresh w _ _⟩
      · cases hs
  next a b hpc =>
    simp only [hpc, Building] at sockets
    obtain ⟨hne, ha, hb⟩ := sockets
    split at hs
    · cases hs
      exact quiet.fail a b
    · split at hs
      · cases hs
        exact .building ⟨quiet.sent, quiet.got, quiet.zeroRead⟩
          ⟨hne, ⟨port, ha.bind _ _⟩, hb.other _ _ hne.symm⟩
      · cases hs
  next a b hpc =>
    simp only [hpc, Building] at sockets
    obtain ⟨hne, ⟨aa, ha⟩, hb⟩ := sockets
    split at hs
    · cases hs
      exact quiet.fail a b
    · split at hs
      · cases hs
        exact .building ⟨quiet.sent, quiet.got, quiet.zeroRead⟩
          ⟨hne, ⟨aa, ha.other _ _ hne⟩, ⟨port, hb.bind _ _⟩⟩
      · cases hs
  next a b hpc =>
    simp only [hpc, Building] at sockets
    obtain ⟨hne, ⟨aa, ha⟩, hb⟩ := sockets
    split at hs
    · cases hs
      exact quiet.fail a b
    · obtain ⟨q, hq, rfl⟩ := Option.map_eq_some_iff.mp hs
      have he := ha.name hq
      subst he
      exact .building ⟨quiet.sent, quiet.got, quiet.zeroRead⟩ ⟨hne, ha, hb⟩
  next a b aa hpc =>
    simp only [hpc, Building] at sockets
    obtain ⟨hne, ha, ⟨bb, hb⟩⟩ := sockets
    split at hs
    · cases hs
      exact quiet.fail a b
    · obtain ⟨q, hq, rfl⟩ := Option.map_eq_some_iff.mp hs
      have he := hb.name hq
      subst he
      exact .building ⟨quiet.sent, quiet.got, quiet.zeroRead⟩ ⟨hne, ha, hb⟩
  next a b aa bb hpc =>
    simp only [hpc, Building] at sockets
    obtain ⟨hne, ha, hb⟩ := sockets
    split at hs
    · cases hs
      exact quiet.fail a b
    · cases hs
      exact .building ⟨quiet.sent, quiet.got, quiet.zeroRead⟩
        ⟨hne, ha.connect _ _, hb.other _ _ hne.symm⟩
  next a b aa bb hpc =>
    simp only [hpc, Building] at sockets
    obtain ⟨hne, ha, hb⟩ := sockets
    split at hs
    · cases hs
      exact quiet.fail a b
    · cases hs
      exact .flowing a b rfl rfl (connected_flowing quiet hne ha hb) quiet.zeroRead
  next => cases hs

theorem Building.send {w : PipeWorld} {pc : PipePc} (h : Building w pc) (src dst : Port)
    (payload : Bytes) :
    Building { w with socks := w.socks.send dst ⟨src, payload, false⟩ } pc := by
  cases pc with
  | socketA => trivial
  | socketB a => exact Holds.send h src dst payload
  | bindA a b => exact ⟨h.1, h.2.1.send src dst payload, h.2.2.send src dst payload⟩
  | bindB a b =>
    obtain ⟨hne, ⟨aa, ha⟩, hb⟩ := h
    exact ⟨hne, ⟨aa, ha.send src dst payload⟩, hb.send src dst payload⟩
  | nameA a b =>
    obtain ⟨hne, ⟨aa, ha⟩, ⟨bb, hb⟩⟩ := h
    exact ⟨hne, ⟨aa, ha.send src dst payload⟩, ⟨bb, hb.send src dst payload⟩⟩
  | nameB a b aa =>
    obtain ⟨hne, ha, ⟨bb, hb⟩⟩ := h
    exact ⟨hne, ha.send src dst payload, ⟨bb, hb.send src dst payload⟩⟩
  | connectA a b aa bb | connectB a b aa bb =>
    exact ⟨h.1, h.2.1.send src dst payload, h.2.2.send src dst payload⟩
  | returned rc => exact h

theorem Building.not_opened {w : PipeWorld} (h : Building w w.pc) : w.opened = none := by
  unfold PipeWorld.opened
  split
  next hpc =>
    simp only [hpc, Building] at h
    exact absurd rfl h
  next => rfl

theorem stray_inv {w w' : PipeWorld} {maxLen : Nat} {src dst : Port} {payload : Bytes}
    (h : Inv w) (hs : w.step maxLen (.stray src dst payload) = some w') : Inv w' := by
  simp only [PipeWorld.step] at hs
  split at hs
  · cases hs
    cases h with
    | building quiet sockets =>
      exact .building ⟨quiet.sent, quiet.got, quiet.zeroRead⟩ (sockets.send src dst payload)
    | flowing a b hpc hfds ends never =>
      obtain ⟨hne, aa, bb, s, hsa, hab, hap, hsum, hb⟩ := ends
      refine .flowing a b hpc hfds
        ⟨hne, aa, bb, s.offer dst ⟨src, payload, false⟩, ?_, ?_, ?_, ?_, ?_⟩
        never
      · simp [Socks.send, hsa]
      · rw [offer_bound, hab]
      · rw [offer_peer, hap]
      · rw [offer_stray]
        exact hsum
      · intro t ht
        obtain ⟨u, hu, rfl⟩ := Option.map_eq_some_iff.mp ht
        simpa using hb u hu
  · cases hs

theorem opened_flowing {w : PipeWorld} {a b : Int} (h : Inv w) (ho : w.opened = some (a, b)) :
    w.pc = .returned 0 ∧ w.fds = some (a, b) ∧ Flowing w a b ∧ w.zeroRead = false := by
  cases h with
  | building quiet sockets =>
    rw [sockets.not_opened] at ho
    cases ho
  | flowing c d hpc hfds ends never =>
    simp only [PipeWorld.opened, hpc, hfds, Option.some.injEq, Prod.mk.injEq] at ho
    obtain ⟨rfl, rfl⟩ := ho
    exact ⟨hpc, hfds, ends, never⟩

/-- A write adds its bytes to what is sent and, as one datagram, to what waits. -/
theorem write_inv {w w' : PipeWorld} {maxLen : Nat} {buf : Bytes}
    (h : Inv w) (hs : w.step maxLen (.write buf) = some w') : Inv w' := by
  simp only [PipeWorld.step, PipeWorld.write, Option.bind_eq_bind, Option.bind_eq_some_iff] at hs
  obtain ⟨⟨a, b⟩, ho, t, htb, src, hsrc, dst, hdst, hs⟩ := hs
  split at hs
  · cases hs
    obtain ⟨hpc, hfds, ends, never⟩ := opened_flowing h ho
    obtain ⟨hne, aa, bb, s, hsa, hab, hap, hsum, hb⟩ := ends
    obtain ⟨htbound, htpeer⟩ := hb t htb
    have hsrc' : src = bb := Option.some.inj (hsrc.symm.trans htbound)
    have hdst' : dst = aa := Option.some.inj (hdst.symm.trans htpeer)
    subst hsrc' hdst'
    have haccept : s.accepts src dst = true := by simp [Sock.accepts, hab, hap]
    refine .flowing a b hpc hfds ⟨hne, dst, src, s.offer dst ⟨src, buf, true⟩, ?_, ?_, ?_, ?_, ?_⟩
      never
    · simp [Socks.send, hsa]
    · rw [offer_bound, hab]
    · rw [offer_peer, hap]
    · simp [Sock.offer, haccept, hsum, ownBytes]
    · intro u hu
      obtain ⟨v, hv, rfl⟩ := Option.map_eq_some_iff.mp hu
      simpa using hb v hv
  · cases hs
    exact h

theorem closeWrite_inv {w w' : PipeWorld} {maxLen : Nat}
    (h : Inv w) (hs : w.step maxLen .closeWrite = some w') : Inv w' := by
  simp only [PipeWorld.step, Option.bind_eq_bind, Option.bind_eq_some_iff] at hs
  obtain ⟨⟨a, b⟩, ho, hs⟩ := hs
  cases hs
  obtain ⟨hpc, hfds, ends, never⟩ := opened_flowing h ho
  obtain ⟨hne, aa, bb, s, hsa, hab, hap, hsum, _⟩ := ends
  refine .flowing a b hpc hfds ⟨hne, aa, bb, s, ?_, hab, hap, hsum, ?_⟩ never
  · simpa [Function.update_of_ne hne] using hsa
  · intro t ht
    simp at ht

/-- The datagram the next read takes. -/
def oldest (w : PipeWorld) : Option Datagram := do
  let (a, _) ← w.opened
  let s ← w.socks a
  s.queue.head?

def writeOpen (w : PipeWorld) : Bool :=
  w.opened.any (fun (_, b) => (w.socks b).isSome)

/-- The datagram taken fits the buffer; it came through the pipe, or it is empty
and the other end is closed, so that reading it as end of file is right. -/
def readFits (w : PipeWorld) : PipeEvent → Bool
  | .read len => match oldest w with
    | some d => d.payload.length ≤ len && if d.payload.isEmpty then !writeOpen w else d.own
    | none => true
  | _ => true

theorem read_inv {w w' : PipeWorld} {maxLen len : Nat} (h : Inv w)
    (fits : readFits w (.read len) = true)
    (hs : w.step maxLen (.read len) = some w') : Inv w' := by
  simp only [PipeWorld.step, PipeWorld.read, Option.bind_eq_bind, Option.bind_eq_some_iff] at hs
  obtain ⟨⟨a, b⟩, ho, s, hsa, hs⟩ := hs
  split at hs
  next => cases hs
  next d queue hq =>
    cases hs
    have hold : oldest w = some d := by simp [oldest, ho, hsa, hq]
    simp only [readFits, hold, Bool.and_eq_true, decide_eq_true_eq] at fits
    obtain ⟨hlen, hkind⟩ := fits
    obtain ⟨hpc, hfds, ends, never⟩ := opened_flowing h ho
    obtain ⟨hne, aa, bb, t, hta, hab, hap, hsum, hb⟩ := ends
    have hst : s = t := Option.some.inj (hsa.symm.trans hta)
    subst hst
    have hall : d.payload.take len = d.payload := List.take_of_length_le hlen
    refine .flowing a b hpc hfds ⟨hne, aa, bb, { s with queue := queue }, ?_, hab, hap, ?_, ?_⟩ ?_
    · simp
    · cases hp : d.payload with
      | nil => cases hown : d.own <;> simp [hsum, hq, ownBytes, hown, hp]
      | cons x xs =>
        simp only [hp, List.isEmpty_cons, Bool.false_eq_true, ↓reduceIte] at hkind
        rw [hp] at hall
        simp [hsum, hq, hall, ownBytes, hkind, hp]
    · intro u hu
      exact hb u (by simpa [Function.update_of_ne hne.symm] using hu)
    · cases hp : d.payload with
      | nil =>
        simp only [hp, List.isEmpty_nil, ↓reduceIte, writeOpen, ho, Option.any_some] at hkind
        simpa [never] using hkind
      | cons x xs =>
        rw [hp] at hall
        simp [never, hall]

theorem step_inv {w w' : PipeWorld} {maxLen : Nat} {e : PipeEvent} (h : Inv w)
    (fits : readFits w e = true) (hs : w.step maxLen e = some w') : Inv w' := by
  cases e with
  | call ret port =>
    cases h with
    | building quiet sockets => exact answer_inv quiet sockets hs
    | flowing a b hpc hfds ends never => simp [PipeWorld.step, PipeWorld.answer, hpc] at hs
  | stray src dst payload => exact stray_inv h hs
  | write buf => exact write_inv h hs
  | read len => exact read_inv h fits hs
  | closeWrite => exact closeWrite_inv h hs

theorem Inv.stream {w : PipeWorld} (h : Inv w) : w.got <+: w.sent ∧ w.zeroRead = false := by
  cases h with
  | building quiet sockets => exact ⟨by simp [quiet.got], quiet.zeroRead⟩
  | flowing a b hpc hfds ends never =>
    obtain ⟨_, _, _, s, _, _, _, hsum, _⟩ := ends
    exact ⟨⟨ownBytes s.queue, hsum.symm⟩, never⟩

/-- While every read takes a whole datagram of the pipe's own (an empty one after
the close), the two sockets are a byte stream, whatever else reaches their ports. -/
theorem pipe_stream {maxLen : Nat} {socks : Socks} {fds : Option (Int × Int)} {errno : Int}
    {es : List PipeEvent} {w : PipeWorld}
    (hr : run (guarded readFits (PipeWorld.step maxLen)) (pipeEntry socks fds errno) es = some w) :
    w.got <+: w.sent ∧ w.zeroRead = false :=
  (run_guarded (entry_inv socks fds errno) (fun _ _ _ h ok hs => step_inv h ok hs) hr).stream

def noSocks : Socks := fun _ => none

/-- The calls of a `pipe` that succeeds, on descriptors 3 and 4. -/
def opening : List PipeEvent :=
  [.call 3 0, .call 4 0, .call 0 50000, .call 0 50001, .call 0 0, .call 0 0, .call 0 0, .call 0 0]

/-- The start-up self-test: one byte written, one byte read. -/
theorem pipe_stream_marker :
    ∃ w, run (guarded readFits (PipeWorld.step 65507)) (pipeEntry noSocks (some (0, 0)) 0)
      (opening ++ [.write [90], .read 1]) = some w ∧ w.got <+: w.sent ∧ w.zeroRead = false := by
  obtain ⟨w, hw⟩ := Option.isSome_iff_exists.mp
    (rfl : (run (guarded readFits (PipeWorld.step 65507)) (pipeEntry noSocks (some (0, 0)) 0)
      (opening ++ [.write [90], .read 1])).isSome = true)
  exact ⟨w, hw, pipe_stream hw⟩

/-- A short read loses the rest of its datagram. -/
theorem pipe_not_a_stream :
    ¬ ∀ (es : List PipeEvent) (w : PipeWorld),
      run (PipeWorld.step 65507) (pipeEntry noSocks (some (0, 0)) 0) es = some w →
      w.got <+: w.sent ∧ w.zeroRead = false := by
  intro h
  have hw : ((run (PipeWorld.step 65507) (pipeEntry noSocks (some (0, 0)) 0)
      (opening ++ [.write [97, 98], .read 1, .write [99], .read 1])).map
        (fun w => (w.got, w.sent))) = some ([97, 99], [97, 98, 99]) := by decide
  obtain ⟨w, hr, he⟩ := Option.map_eq_some_iff.mp hw
  have hp := (h _ w hr).1
  simp only [Prod.mk.injEq] at he
  rw [he.1, he.2] at hp
  revert hp
  decide

end SwitchLdnZt.Proofs.PipeStream
