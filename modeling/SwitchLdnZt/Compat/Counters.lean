import SwitchLdnZt.Compat.Wrappers

namespace SwitchLdnZt.Compat
open Library

inductive Counter
  | sockN
  | sockFail
  | bindN
  | bindFail
  | txOk
  | txFail
  | txRoot
  | txSeq
  | txLogSeq
  | recvCalls
  | rxOk
  | rxRoot
  | rxSeq
  | recvLogSeq
  | recvEmpty
  | recvErr
  | selCalls
  | selReady
  | selErr
  | closeSeq
  | sockoptFail
  | randSeq
deriving DecidableEq

def Stats.read (t : Stats) : Counter → UInt32
  | .sockN => t.gSockN
  | .sockFail => t.gSockFail
  | .bindN => t.gBindN
  | .bindFail => t.gBindFail
  | .txOk => t.gTxOk
  | .txFail => t.gTxFail
  | .txRoot => t.gTxRoot
  | .txSeq => t.gTxSeq
  | .txLogSeq => t.gTxLogSeq
  | .recvCalls => t.gRecvCalls
  | .rxOk => t.gRxOk
  | .rxRoot => t.gRxRoot
  | .rxSeq => t.gRxSeq
  | .recvLogSeq => t.gRecvLogSeq
  | .recvEmpty => t.gRecvEmpty
  | .recvErr => t.gRecvErr
  | .selCalls => t.gSelCalls
  | .selReady => t.gSelReady
  | .selErr => t.gSelErr
  | .closeSeq => t.gCloseSeq
  | .sockoptFail => t.gSockoptFail
  | .randSeq => t.gRandSeq

/-- The wrappers whose lines are numbered. -/
inductive Numbered
  | sendto
  | recvfrom
  | close
  | setsockopt
  | getSecureRandom
deriving DecidableEq

/-- `g_tx_log_seq` and so on: the counter behind a wrapper's line numbers. -/
def Numbered.seq : Numbered → Counter
  | .sendto => .txLogSeq
  | .recvfrom => .recvLogSeq
  | .close => .closeSeq
  | .setsockopt => .sockoptFail
  | .getSecureRandom => .randSeq

/-- The constant in `if (seq < ...)`. -/
def Numbered.cap : Numbered → UInt32
  | .sendto => 600
  | .recvfrom => 300
  | .close => 24
  | .setsockopt => 6
  | .getSecureRandom => 10

/-- The steps of a wrapper that other threads can see: `__sync_fetch_and_add` with its
result dropped, the same with the result kept as `seq`, and the `log_write` behind
`if (seq < cap)`. -/
inductive Op
  | add (c : Counter)
  | fetch (w : Numbered)
  | log (w : Numbered)
deriving DecidableEq

/-- The counter a step increments. -/
def Op.counter : Op → Option Counter
  | .add c => some c
  | .fetch w => some w.seq
  | .log _ => none

def sendtoOps (rc : Int) (dest : Option SockAddr) : List Op :=
  let isRoot := (dest.map SockAddr.isRoot).getD false
  [.add (if rc < 0 then .txFail else .txOk)] ++
    (if rc ≥ 0 ∧ isRoot then [.add .txRoot] else []) ++ [.add .txSeq] ++
    (if dest.isSome ∧ (isRoot ∨ rc < 0) then [.fetch .sendto, .log .sendto] else [])

def recvfromOps (rc : Int) (src : Option SockAddr) : List Op :=
  [.add .recvCalls] ++
    (if rc > 0 then
      [.add .rxOk] ++
        (if (src.map SockAddr.isRoot).getD false then [.add .rxRoot] else []) ++
        [.add .rxSeq, .fetch .recvfrom] ++
        (match src with
        | some (.inet ..) => [.log .recvfrom]
        | _ => [])
    else if rc = 0 then [.add .recvEmpty]
    else [.add .recvErr])

def selectOps (rc : Int) : List Op :=
  [.add .selCalls] ++
    (if rc > 0 then [.add .selReady] else if rc < 0 then [.add .selErr] else [])

/-- What a call of a wrapped function does to the counters, in order. The line of
`getSecureRandom` always fits its buffer, so the check on `off` does not show. -/
def Call.ops : Call → List Op
  | .socket _ _ _ _ real => [.add .sockN] ++ if real.rc < 0 then [.add .sockFail] else []
  | .bind _ _ _ real => [.add .bindN] ++ if real.rc ≠ 0 then [.add .bindFail] else []
  | .sendto _ _ _ dest real => sendtoOps real.rc dest
  | .recvfrom _ _ real out => recvfromOps real.rc out.src
  | .select real => selectOps real.rc
  | .close .. => [.fetch .close, .log .close]
  | .setsockopt _ _ _ _ real =>
    if real.rc ≠ 0 then [.fetch .setsockopt, .log .setsockopt] else []
  | .getSecureRandom .. => [.fetch .getSecureRandom, .log .getSecureRandom]
  | _ => []

/-- A call under way on some thread, or done: its `seq` and what it has left to do. -/
structure Running where
  call : Call
  seq : UInt32
  left : List Op

/-- `lines` counts the `log_write` calls behind `if (seq < ...)`. -/
structure Counting where
  value : Counter → UInt32
  calls : List Running
  lines : Numbered → Nat

def Counting.start : Counting := ⟨fun _ => 0, [], fun _ => 0⟩

inductive CountEvent
  | call (c : Call)
  | step (i : Nat)

def Counting.increment (s : Counting) (c : Counter) : Counting :=
  { s with value := Function.update s.value c (s.value c + 1) }

def Counting.put (s : Counting) (i : Nat) (r : Running) : Counting :=
  { s with calls := s.calls.set i r }

/-- A thread makes a call, or the `i`-th call takes its next step. -/
def Counting.next (s : Counting) : CountEvent → Option Counting
  | .call c => some { s with calls := s.calls ++ [⟨c, 0, c.ops⟩] }
  | .step i =>
    match s.calls[i]? with
    | none => none
    | some r =>
      match r.left with
      | [] => none
      | .add c :: left => some ((s.increment c).put i { r with left := left })
      | .fetch w :: left =>
        some ((s.increment w.seq).put i { r with seq := s.value w.seq, left := left })
      | .log w :: left =>
        let t := s.put i { r with left := left }
        if r.seq < w.cap then
          some { t with lines := Function.update t.lines w (t.lines w + 1) }
        else some t

def Stats.bump (t : Stats) : Counter → Stats
  | .sockN => { t with gSockN := t.gSockN + 1 }
  | .sockFail => { t with gSockFail := t.gSockFail + 1 }
  | .bindN => { t with gBindN := t.gBindN + 1 }
  | .bindFail => { t with gBindFail := t.gBindFail + 1 }
  | .txOk => { t with gTxOk := t.gTxOk + 1 }
  | .txFail => { t with gTxFail := t.gTxFail + 1 }
  | .txRoot => { t with gTxRoot := t.gTxRoot + 1 }
  | .txSeq => { t with gTxSeq := t.gTxSeq + 1 }
  | .txLogSeq => { t with gTxLogSeq := t.gTxLogSeq + 1 }
  | .recvCalls => { t with gRecvCalls := t.gRecvCalls + 1 }
  | .rxOk => { t with gRxOk := t.gRxOk + 1 }
  | .rxRoot => { t with gRxRoot := t.gRxRoot + 1 }
  | .rxSeq => { t with gRxSeq := t.gRxSeq + 1 }
  | .recvLogSeq => { t with gRecvLogSeq := t.gRecvLogSeq + 1 }
  | .recvEmpty => { t with gRecvEmpty := t.gRecvEmpty + 1 }
  | .recvErr => { t with gRecvErr := t.gRecvErr + 1 }
  | .selCalls => { t with gSelCalls := t.gSelCalls + 1 }
  | .selReady => { t with gSelReady := t.gSelReady + 1 }
  | .selErr => { t with gSelErr := t.gSelErr + 1 }
  | .closeSeq => { t with gCloseSeq := t.gCloseSeq + 1 }
  | .sockoptFail => { t with gSockoptFail := t.gSockoptFail + 1 }
  | .randSeq => { t with gRandSeq := t.gRandSeq + 1 }

/-- The counters behind a call that no other thread gets into. -/
def Stats.after (t : Stats) (ops : List Op) : Stats :=
  ops.foldl (fun t op => match op.counter with | some c => t.bump c | none => t) t

theorem read_bump (t : Stats) (c : Counter) :
    (t.bump c).read = Function.update t.read c (t.read c + 1) := by
  funext d
  rcases eq_or_ne d c with rfl | hne
  · rw [Function.update_self]
    cases d <;> rfl
  · rw [Function.update_of_ne hne]
    cases c <;> cases d <;> first | rfl | exact absurd rfl hne

theorem read_errno (t : Stats) (e : UInt32) : { t with gRecvErrno := e }.read = t.read := by
  funext d
  cases d <;> rfl

/-- Steps that leave a counter alone. -/
theorem after_untouched {ops : List Op} {c : Counter} (h : ∀ op ∈ ops, op.counter ≠ some c)
    (t : Stats) : (t.after ops).read c = t.read c := by
  induction ops generalizing t with
  | nil => rfl
  | cons op ops ih =>
    obtain ⟨hop, hops⟩ := List.forall_mem_cons.mp h
    refine (ih hops _).trans ?_
    dsimp only
    split
    next d hd =>
      have hne : c ≠ d := fun he => hop (hd.trans (congrArg some he.symm))
      rw [read_bump, Function.update_of_ne hne]
    next => rfl

theorem sendtoOps_after (t : Stats) (rc : Int) (dest : Option SockAddr) :
    t.after (sendtoOps rc dest) =
      let isRoot := (dest.map SockAddr.isRoot).getD false
      if dest.isSome ∧ (isRoot ∨ rc < 0) then
        { t.countSend rc isRoot with gTxLogSeq := t.gTxLogSeq + 1 }
      else t.countSend rc isRoot := by
  unfold sendtoOps Stats.countSend
  generalize (dest.map SockAddr.isRoot).getD false = isRoot
  by_cases hrc : rc < 0
  · have hge : ¬ rc ≥ 0 := by omega
    cases dest <;> simp [hrc, hge, Stats.after, Op.counter, Stats.bump, Numbered.seq]
  · have hge : rc ≥ 0 := by omega
    cases isRoot <;> cases dest <;>
      simp [hrc, hge, Stats.after, Op.counter, Stats.bump, Numbered.seq]

theorem receivedOps_after (t : Stats) {rc : Int} (hrc : rc > 0) (src : Option SockAddr) :
    t.after (recvfromOps rc src) =
      { { t with gRecvCalls := t.gRecvCalls + 1 }.countReceived
          ((src.map SockAddr.isRoot).getD false) with
        gRecvLogSeq := t.gRecvLogSeq + 1 } := by
  unfold recvfromOps Stats.countReceived
  rw [if_pos hrc]
  cases src with
  | none => simp [Stats.after, Op.counter, Stats.bump, Numbered.seq]
  | some a =>
    cases a with
    | inet port a b c d =>
      cases h : SockAddr.isRoot (.inet port a b c d) <;>
        simp [h, Stats.after, Op.counter, Stats.bump, Numbered.seq]
    | inet6 port addr | other family =>
      simp [SockAddr.isRoot, Stats.after, Op.counter, Stats.bump, Numbered.seq]

theorem diagHalt_stats {io io' : FileIo} {t : Thread} {what : Bytes} {s s' : Proc}
    (h : diagHalt io io' t what s = some s') : s'.stats = s.stats := by
  simp only [diagHalt] at h
  split at h
  · cases h
  · cases h
    simp [apply_ite Proc.stats]

/-- A call by itself is the wrapper as one step, as far as the counters go. -/
theorem step_alone {plat : Platform} {s s' : Proc} {c : Call} (h : s.step plat c = some s') :
    s'.stats.read = (s.stats.after c.ops).read := by
  cases c with
  | writeR io t fd buf =>
    cases h
    simp [Call.ops, Stats.after]
  | consoleUpdate t =>
    cases h
    simp only [wrapConsoleUpdate]
    split <;> rfl
  | pthreadCreate io attr original real =>
    cases h
    cases attr <;> simp [wrapPthreadCreate, Call.ops, Stats.after]
  | fopen io path mode real =>
    cases h
    simp [wrapFopen, Call.ops, Stats.after]
  | socket io domain type protocol real =>
    cases h
    simp only [wrapSocket, Call.ops]
    split <;> simp [Stats.after, Op.counter, Stats.bump]
  | bind io fd addr real =>
    cases h
    simp only [wrapBind, Call.ops]
    split <;> simp [Stats.after, Op.counter, Stats.bump]
  | sendto io fd buf dest real =>
    cases h
    rw [Call.ops, sendtoOps_after]
    cases dest with
    | none => simp [wrapSendto]
    | some a =>
      simp only [wrapSendto, Option.isSome_some, true_and]
      split
      · split <;> simp
      · simp
  | recvfrom io fd real out =>
    cases h
    rw [Call.ops]
    simp only [wrapRecvfrom]
    split
    next hrc =>
      rw [receivedOps_after _ hrc]
      split
      · split <;> simp
      · simp
    next hrc =>
      unfold recvfromOps
      rw [if_neg hrc]
      split
      · simp [Stats.after, Op.counter, Stats.bump]
      · exact read_errno _ (UInt32.ofInt (s.after real).errno)
  | select real =>
    cases h
    simp only [wrapSelect, Call.ops, selectOps]
    split
    · simp [Stats.after, Op.counter, Stats.bump]
    · split <;> simp [Stats.after, Op.counter, Stats.bump]
  | close io fd real =>
    cases h
    simp only [wrapClose]
    split <;> simp [Call.ops, Stats.after, Op.counter, Stats.bump, Numbered.seq]
  | setsockopt io fd level name real =>
    cases h
    simp only [wrapSetsockopt, Call.ops]
    split
    · split <;> simp [Stats.after, Op.counter, Stats.bump, Numbered.seq]
    · simp [Stats.after]
  | mkdir io t path real isDir =>
    cases h
    simp only [wrapMkdir]
    split
    · rfl
    · rfl
    · split <;> simp [Call.ops, Stats.after]
  | getSecureRandom io drawn =>
    cases h
    simp [Call.ops, Stats.after, Op.counter, Stats.bump, Numbered.seq]
  | abort io io' t =>
    rw [diagHalt_stats h]
    rfl
  | exit io io' t name code =>
    simp only [Proc.step] at h
    split at h
    · cases h
    · rw [diagHalt_stats h]
      rfl

end SwitchLdnZt.Compat
