import SwitchLdnZt.Compat.Counters

namespace SwitchLdnZt.Proofs.RandomSecrecy
open Library Compat

def isDraw : Call → Bool
  | .getSecureRandom .. => true
  | _ => false

/-- Two call sequences that differ in the bytes the draws deliver, and there not
in the first eight of a draw whose number is below ten; `seq` numbers the draws. -/
inductive SameShown : UInt32 → List Call → List Call → Prop
  | nil {seq : UInt32} : SameShown seq [] []
  | call {seq : UInt32} {c : Call} {cs cs' : List Call} : isDraw c = false →
      SameShown seq cs cs' → SameShown seq (c :: cs) (c :: cs')
  | draw {seq : UInt32} {io : FileIo} {drawn drawn' : Bytes} {cs cs' : List Call} :
      drawn.length = drawn'.length → (seq < 10 → drawn.take 8 = drawn'.take 8) →
      SameShown (seq + 1) cs cs' →
      SameShown seq (.getSecureRandom io drawn :: cs) (.getSecureRandom io drawn' :: cs')

/-- What has left the process: the log file and the console. -/
def written (s : Proc) : Bytes × List RealCall := (s.logFile, s.screen)

variable {plat : Platform}

/-- A draw shows its number, its size and at most its first eight bytes. -/
theorem getSecureRandom_shown {s : Proc} {io : FileIo} {drawn drawn' : Bytes}
    (hlen : drawn.length = drawn'.length)
    (hshown : s.stats.gRandSeq < 10 → drawn.take 8 = drawn'.take 8) :
    wrapGetSecureRandom io drawn s = wrapGetSecureRandom io drawn' s := by
  unfold wrapGetSecureRandom
  by_cases hq : s.stats.gRandSeq < 10
  · have hline : randLine s.stats.gRandSeq drawn = randLine s.stats.gRandSeq drawn' := by
      rw [randLine, randLine, hlen, hshown hq]
    simp only [hq, ↓reduceIte, hline]
  · simp only [hq, ↓reduceIte]

theorem getSecureRandom_randSeq (io : FileIo) (drawn : Bytes) (s : Proc) :
    (wrapGetSecureRandom io drawn s).stats.gRandSeq = s.stats.gRandSeq + 1 := by
  rw [getSecureRandom_stats]

theorem ops_undrawn {c : Call} (hc : isDraw c = false) :
    ∀ op ∈ c.ops, op.counter ≠ some .randSeq := by
  cases c with
  | socket io domain type protocol real =>
    simp only [Call.ops]
    split <;> simp [Op.counter]
  | bind io fd addr real =>
    simp only [Call.ops]
    split <;> simp [Op.counter]
  | sendto io fd buf dest real =>
    simp only [Call.ops, sendtoOps]
    split <;> split <;> split <;> simp [Op.counter, Numbered.seq]
  | recvfrom io fd real out =>
    simp only [Call.ops, recvfromOps]
    split
    · split <;> split <;> simp [Op.counter, Numbered.seq]
    · split <;> simp [Op.counter]
  | select real =>
    simp only [Call.ops, selectOps]
    split
    · simp [Op.counter]
    · split <;> simp [Op.counter]
  | close io fd real => simp [Call.ops, Op.counter, Numbered.seq]
  | setsockopt io fd level name real =>
    simp only [Call.ops]
    split <;> simp [Op.counter, Numbered.seq]
  | getSecureRandom io drawn => cases hc
  | _ => exact fun _ h => absurd h List.not_mem_nil

/-- Only a draw moves the draws' counter. -/
theorem step_randSeq {s s' : Proc} {c : Call} (hc : isDraw c = false)
    (h : s.step plat c = some s') : s'.stats.gRandSeq = s.stats.gRandSeq :=
  calc s'.stats.gRandSeq
    _ = (s.stats.after c.ops).read .randSeq := congrFun (step_alone h) .randSeq
    _ = s.stats.gRandSeq := after_untouched (ops_undrawn hc) s.stats

/-- The two runs stay in one and the same state. -/
theorem run_shown {seq : UInt32} {cs cs' : List Call} (h : SameShown seq cs cs') {s : Proc}
    (hs : s.stats.gRandSeq = seq) :
    run (Proc.step plat) s cs = run (Proc.step plat) s cs' := by
  induction h generalizing s with
  | nil => rfl
  | @call seq c cs cs' hc _ ih =>
    simp only [run]
    cases ht : s.step plat c with
    | none => rfl
    | some t => exact ih ((step_randSeq hc ht).trans hs)
  | @draw seq io drawn drawn' cs cs' hlen hshown _ ih =>
    have he : wrapGetSecureRandom io drawn s = wrapGetSecureRandom io drawn' s :=
      getSecureRandom_shown hlen (hs ▸ hshown)
    simp only [run, Proc.step, Option.bind_some, he]
    exact ih (by rw [getSecureRandom_randSeq, hs])

/-- Log and console depend on the random source through the first eight bytes of
the draws numbered below ten, and no other byte of it. -/
theorem written_shown {cs cs' : List Call} {s : Proc} (h : SameShown s.stats.gRandSeq cs cs') :
    (run (Proc.step plat) s cs).map written = (run (Proc.step plat) s cs').map written :=
  congrArg _ (run_shown h rfl)

/-- Two draws of nine bytes that differ in the last. -/
theorem written_shown_ninth :
    (run (Proc.step ⟨28, id⟩) Proc.booted
      [.getSecureRandom .fine [1, 2, 3, 4, 5, 6, 7, 8, 9]]).map written =
    (run (Proc.step ⟨28, id⟩) Proc.booted
      [.getSecureRandom .fine [1, 2, 3, 4, 5, 6, 7, 8, 10]]).map written :=
  written_shown (.draw rfl (fun _ => rfl) .nil)

/-- The first draw of a process is logged: one byte of it is all it takes. -/
theorem first_draw_logged :
    (run (Proc.step ⟨28, id⟩) Proc.booted [.getSecureRandom .fine [1]]).map written ≠
    (run (Proc.step ⟨28, id⟩) Proc.booted [.getSecureRandom .fine [2]]).map written := by
  decide

end SwitchLdnZt.Proofs.RandomSecrecy
