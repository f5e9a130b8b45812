import SwitchLdnZt.App.MainLoop

namespace SwitchLdnZt.Proofs.LoopLines
open Library Ping App

def onlineTag : Bytes := ascii "[ZT] node is now "
def readyTag : Bytes := ascii "[ZT] network transport is now "
def joinTag : Bytes := ascii "[ZT] zts_net_join -> "
def pingTag : Bytes := ascii "[PING] "

/-- ` (t=%ds)\n` in the pass of this number. -/
def stampAt (i : Int) : Bytes := ascii " (t=" ++ fmtD (i.tdiv 100) ++ ascii "s)\n"

def onlineLine (online : Bool) (i : Int) : Bytes :=
  onlineTag ++ (if online then ascii "ONLINE" else ascii "OFFLINE") ++ stampAt i

def readyLine (ready : Bool) (i : Int) : Bytes :=
  readyTag ++ (if ready then ascii "READY" else ascii "NOT READY") ++ stampAt i

/-- A text of one call of `printf` about the join or the pings; `printf("%s", "")` where
nothing was received. -/
def Aside (l : Bytes) : Prop := l = [] ∨ (∃ x, l = joinTag ++ x) ∨ ∃ x, l = pingTag ++ x

/-- A step of the loop that prints these lines, whatever was printed before. -/
def Adds (f : MainLoop → MainLoop) (s : MainLoop) (ls : List Bytes) : Prop :=
  ∀ o, f { s with out := o } = { f s with out := o ++ ls }

variable {f g : MainLoop → MainLoop} {s : MainLoop} {ls ls' : List Bytes}

theorem Adds.then (hf : Adds f s ls) (hg : Adds g (f s) ls') :
    Adds (fun s => g (f s)) s (ls ++ ls') := by
  intro o
  dsimp only
  rw [hf o, hg (o ++ ls), List.append_assoc]

theorem Adds.out (hf : Adds f s ls) : (f s).out = s.out ++ ls :=
  congrArg MainLoop.out (hf s.out)

theorem showOnline_adds (s : MainLoop) (online : Bool) : Adds (·.showOnline online) s
    (if online = s.wasOnline then [] else [onlineLine online s.waited]) := by
  intro o
  by_cases h : online = s.wasOnline
  · simp [MainLoop.showOnline, h]
  · simp only [MainLoop.showOnline, h, ne_eq, not_false_eq_true, if_true, if_false]
    rfl

theorem showReady_adds (s : MainLoop) (ready : Bool) : Adds (·.showReady ready) s
    (if ready = s.wasReady then [] else [readyLine ready s.waited]) := by
  intro o
  by_cases h : ready = s.wasReady
  · simp [MainLoop.showReady, h]
  · simp only [MainLoop.showReady, h, ne_eq, not_false_eq_true, if_true, if_false]
    rfl

theorem join_adds (s : MainLoop) (online : Bool) (rc : Int) :
    ∃ ls, (∀ l ∈ ls, Aside l) ∧ Adds (·.join online rc) s ls := by
  by_cases h : (online && !s.joined) = true
  · refine ⟨[joinTag ++ (fmtD rc ++ s.stamp)],
      List.forall_mem_singleton.mpr (.inr (.inl ⟨_, rfl⟩)), fun o => ?_⟩
    simp only [MainLoop.join, h, if_true, List.append_assoc]
    rfl
  · refine ⟨[], by simp, fun o => ?_⟩
    simp [MainLoop.join, h]

theorem pingResponderInit_adds (s : MainLoop) (p : LoopPass) :
    ∃ ls, (∀ l ∈ ls, Aside l) ∧ Adds (·.pingResponderInit p) s ls := by
  by_cases hdue : (p.online && s.pingSock < 0) = true
  · by_cases hsocket : p.pingSocket < 0
    · refine ⟨[], by simp, fun o => ?_⟩
      simp [MainLoop.pingResponderInit, hdue, hsocket]
    · by_cases hbind : p.pingBind = 0
      · refine ⟨[ascii "[PING] responder listening on :9994 (zts tunnel)\n"],
          List.forall_mem_singleton.mpr (.inr (.inr ⟨_, rfl⟩)), fun o => ?_⟩
        simp only [MainLoop.pingResponderInit, hdue, hsocket, hbind, ne_eq, not_true, if_true,
          if_false]
        rfl
      · refine ⟨[], by simp, fun o => ?_⟩
        simp [MainLoop.pingResponderInit, hdue, hsocket, hbind]
  · refine ⟨[], by simp, fun o => ?_⟩
    simp [MainLoop.pingResponderInit, hdue]

theorem poll_aside (sock : Int) (stack : Buffer 64) (incoming : Option (From × Bytes)) :
    Aside (pingResponderPoll sock stack incoming).printed := by
  have hping : ∀ x, Aside (ascii "[PING] rx from=" ++ x) := fun x =>
    .inr (.inr ⟨ascii "rx from=" ++ x, rfl⟩)
  unfold pingResponderPoll
  split
  · exact .inl rfl
  · split
    · exact .inl rfl
    · dsimp only
      split
      · exact .inl rfl
      · split <;> simp only [List.append_assoc] <;> exact hping _

theorem pingPoll_adds (s : MainLoop) (p : LoopPass) :
    ∃ ls, (∀ l ∈ ls, Aside l) ∧ Adds (·.pingPoll p) s ls :=
  ⟨_, List.forall_mem_singleton.mpr (poll_aside s.pingSock p.stack p.incoming), fun _ => rfl⟩

section
variable (m : MainLoop)

theorem showOnline_waited (online : Bool) : (m.showOnline online).waited = m.waited := by
  rw [MainLoop.showOnline, apply_ite MainLoop.waited]
  exact ite_self _

theorem showReady_waited (ready : Bool) : (m.showReady ready).waited = m.waited := by
  rw [MainLoop.showReady, apply_ite MainLoop.waited]
  exact ite_self _

theorem showOnline_seen (online : Bool) : (m.showOnline online).wasOnline = online ∧
    (m.showOnline online).wasReady = m.wasReady := by
  by_cases h : online = m.wasOnline <;> simp [MainLoop.showOnline, h, MainLoop.print]

theorem showReady_seen (ready : Bool) : (m.showReady ready).wasReady = ready ∧
    (m.showReady ready).wasOnline = m.wasOnline := by
  by_cases h : ready = m.wasReady <;> simp [MainLoop.showReady, h, MainLoop.print]

/-- Behind the two announcements a pass leaves alone what they look at. -/
theorem rest_keeps (online : Bool) (p : LoopPass) :
    let t := ((m.join online p.joinRc).pingResponderInit p).pingPoll p
    t.waited = m.waited ∧ t.wasOnline = m.wasOnline ∧ t.wasReady = m.wasReady := by
  have hjoin : (m.join online p.joinRc).waited = m.waited ∧
      (m.join online p.joinRc).wasOnline = m.wasOnline ∧
      (m.join online p.joinRc).wasReady = m.wasReady := by
    unfold MainLoop.join
    split <;> exact ⟨rfl, rfl, rfl⟩
  have hinit : ∀ t : MainLoop, (t.pingResponderInit p).waited = t.waited ∧
      (t.pingResponderInit p).wasOnline = t.wasOnline ∧
      (t.pingResponderInit p).wasReady = t.wasReady := by
    intro t
    unfold MainLoop.pingResponderInit
    split
    · split
      · exact ⟨rfl, rfl, rfl⟩
      · split <;> exact ⟨rfl, rfl, rfl⟩
    · exact ⟨rfl, rfl, rfl⟩
  obtain ⟨hw, ho, hr⟩ := hinit (m.join online p.joinRc)
  exact ⟨hw.trans hjoin.1, ho.trans hjoin.2.1, hr.trans hjoin.2.2⟩

end

/-- What a pass prints and what it keeps: the changes that it sees, then asides. -/
theorem pass_adds (s : MainLoop) (p : LoopPass) : ∃ ls, (∀ l ∈ ls, Aside l) ∧
    Adds (·.pass p) s ((if p.online = s.wasOnline then [] else [onlineLine p.online s.waited]) ++
      (if p.ready = s.wasReady then [] else [readyLine p.ready s.waited]) ++ ls) ∧
    (s.pass p).waited = s.waited + 1 ∧ (s.pass p).wasOnline = p.online ∧
    (s.pass p).wasReady = p.ready := by
  let t := (s.showOnline p.online).showReady p.ready
  obtain ⟨hseen, hkept⟩ := showOnline_seen s p.online
  obtain ⟨hseen', hkept'⟩ := showReady_seen (s.showOnline p.online) p.ready
  have hwaited : t.waited = s.waited := (showReady_waited _ _).trans (showOnline_waited _ _)
  have hready := showReady_adds (s.showOnline p.online) p.ready
  rw [hkept, showOnline_waited] at hready
  have hshown := (showOnline_adds s p.online).then hready
  obtain ⟨js, hjs, hjoin⟩ := join_adds t p.online p.joinRc
  obtain ⟨is, his, hinit⟩ := pingResponderInit_adds (t.join p.online p.joinRc) p
  obtain ⟨qs, hqs, hpoll⟩ := pingPoll_adds ((t.join p.online p.joinRc).pingResponderInit p) p
  have hall := ((hshown.then hjoin).then hinit).then hpoll
  obtain ⟨hw, ho, hr⟩ := rest_keeps t p.online p
  refine ⟨js ++ is ++ qs, List.forall_mem_append.mpr ⟨List.forall_mem_append.mpr ⟨hjs, his⟩, hqs⟩,
    fun o => ?_, ?_, ho.trans (hkept'.trans hseen), hr.trans hseen'⟩
  · have ho := hall o
    simp only [List.append_assoc] at ho ⊢
    exact congrArg (fun u : MainLoop => { u with waited := u.waited + 1 }) ho
  · exact congrArg (· + 1) (hw.trans hwaited)

theorem pass_waited (s : MainLoop) (p : LoopPass) : (s.pass p).waited = s.waited + 1 := by
  obtain ⟨_, _, _, hwaited, _⟩ := pass_adds s p
  exact hwaited

end SwitchLdnZt.Proofs.LoopLines
