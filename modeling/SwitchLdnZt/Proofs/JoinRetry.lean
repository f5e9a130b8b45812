import Mathlib.Data.List.Induction
import SwitchLdnZt.App.MainLoop

namespace SwitchLdnZt.Proofs.JoinRetry
open Library Ping App

/-- What a pass did about the network: whether the node was online, and the join. -/
abbrev Joined := Bool × Option Int

structure JoinsUntilOk (s : MainLoop) : Prop where
  joined : s.joined = true → ∃ c ∈ s.joins, c.2 = some ztsErrOk
  retried : ∀ pre a mid b post, s.joins = pre ++ a :: mid ++ b :: post →
    (∃ rc, a.2 = some rc ∧ rc ≠ ztsErrOk) → (∀ c ∈ mid, c.1 = false) → b.1 = true → b.2.isSome
  last : s.joins.Pairwise (fun a b => a.2 = some ztsErrOk → b.2 = none)

@[simp] theorem showOnline_joins (s : MainLoop) (online : Bool) :
    (s.showOnline online).joins = s.joins ∧ (s.showOnline online).joined = s.joined := by
  unfold MainLoop.showOnline
  split <;> exact ⟨rfl, rfl⟩

@[simp] theorem showReady_joins (s : MainLoop) (ready : Bool) :
    (s.showReady ready).joins = s.joins ∧ (s.showReady ready).joined = s.joined := by
  unfold MainLoop.showReady
  split <;> exact ⟨rfl, rfl⟩

@[simp] theorem pingResponderInit_joins (s : MainLoop) (p : LoopPass) :
    (s.pingResponderInit p).joins = s.joins ∧ (s.pingResponderInit p).joined = s.joined := by
  unfold MainLoop.pingResponderInit
  repeat' split
  all_goals exact ⟨rfl, rfl⟩

/-- The first pass with the node online joins, whatever comes of it, and no other. -/
theorem pass_joins (s : MainLoop) (p : LoopPass) :
    (s.pass p).joined = (s.joined || p.online) ∧
    (s.pass p).joins =
      s.joins ++ [(p.online, if p.online && !s.joined then some p.joinRc else none)] := by
  have hj : (s.pass p).joined = (((s.showOnline p.online).showReady p.ready).join
      p.online p.joinRc).joined := (pingResponderInit_joins _ p).2
  have hc : (s.pass p).joins = (((s.showOnline p.online).showReady p.ready).join
      p.online p.joinRc).joins := (pingResponderInit_joins _ p).1
  rw [hj, hc]
  unfold MainLoop.join
  cases ho : p.online <;> cases hs : s.joined <;> simp [MainLoop.print, hs]

theorem mainLoop_snoc (ps : List LoopPass) (p : LoopPass) :
    mainLoop (ps ++ [p]) = (mainLoop ps).pass p := by
  simp [mainLoop]

/-- Offline passes, then the one join, then no other. -/
theorem mainLoop_joins (ps : List LoopPass) :
    match ps.find? LoopPass.online with
    | none => (mainLoop ps).joined = false ∧ (∀ c ∈ (mainLoop ps).joins, c = (false, none))
    | some p => (mainLoop ps).joined = true ∧ ∃ pre post,
        (mainLoop ps).joins = pre ++ (true, some p.joinRc) :: post ∧
        (∀ c ∈ pre, c.2 = none) ∧ ∀ c ∈ post, c.2 = none := by
  induction ps using List.reverseRecOn with
  | nil => exact ⟨rfl, by simp [mainLoop, MainLoop.start]⟩
  | append_singleton ps p ih =>
    obtain ⟨hj, hc⟩ := pass_joins (mainLoop ps) p
    rw [mainLoop_snoc, hj, hc, List.find?_append]
    cases hf : ps.find? LoopPass.online with
    | none =>
      rw [hf] at ih
      obtain ⟨hn, hall⟩ := ih
      cases ho : p.online with
      | false =>
        simp only [Option.none_or, List.find?_singleton, ho, Bool.false_eq_true, ↓reduceIte, hn,
          Bool.or_self, Bool.false_and, true_and]
        intro c hm
        rcases List.mem_append.mp hm with hm | hm
        · exact hall c hm
        · exact List.mem_singleton.mp hm
      | true =>
        simp only [Option.none_or, List.find?_singleton, ho, ↓reduceIte, hn, Bool.or_true,
          Bool.not_false, Bool.and_self, true_and]
        exact ⟨_, [], rfl, fun c hm => by rw [hall c hm], by simp⟩
    | some q =>
      rw [hf] at ih
      obtain ⟨hn, pre, post, he, hpre, hpost⟩ := ih
      simp only [Option.some_or, hn, Bool.true_or, Bool.not_true, Bool.and_false,
        Bool.false_eq_true, ↓reduceIte, true_and, he]
      refine ⟨pre, post ++ [(p.online, none)], by simp, hpre, ?_⟩
      intro c hm
      rcases List.mem_append.mp hm with hm | hm
      · exact hpost c hm
      · rw [List.mem_singleton.mp hm]

theorem joins_offline {s : MainLoop} (hj : s.joined = false)
    (h : ∀ c ∈ s.joins, c = (false, none)) : JoinsUntilOk s := by
  constructor
  · intro ht
    rw [hj] at ht
    cases ht
  · intro pre a mid b post he hfail
    obtain ⟨rc, hrc, _⟩ := hfail
    rw [h a (by simp [he])] at hrc
    cases hrc
  · apply List.pairwise_of_forall_mem_list
    intro a ha b _ hok
    rw [h a ha] at hok
    cases hok

theorem joins_ok {s : MainLoop} {pre post : List Joined}
    (he : s.joins = pre ++ (true, some ztsErrOk) :: post) (hpre : ∀ c ∈ pre, c.2 = none)
    (hpost : ∀ c ∈ post, c.2 = none) : JoinsUntilOk s := by
  constructor
  · intro _
    exact ⟨(true, some ztsErrOk), by simp [he], rfl⟩
  · intro pre' a mid b post' he' hfail
    obtain ⟨rc, hrc, hne⟩ := hfail
    have ha : a ∈ s.joins := by simp [he']
    rw [he] at ha
    rcases List.mem_append.mp ha with ha | ha
    · rw [hpre a ha] at hrc
      cases hrc
    · rcases List.mem_cons.mp ha with rfl | ha
      · exact absurd (Option.some.inj hrc).symm hne
      · rw [hpost a ha] at hrc
        cases hrc
  · rw [he, List.pairwise_append, List.pairwise_cons]
    refine ⟨?_, ⟨fun b hb _ => hpost b hb, ?_⟩, ?_⟩
    · apply List.pairwise_of_forall_mem_list
      intro a ha b hb _
      exact hpre b hb
    · apply List.pairwise_of_forall_mem_list
      intro a ha b hb _
      exact hpost b hb
    · intro a ha b hb hok
      rw [hpre a ha] at hok
      cases hok

/-- The loop joins until a join succeeds exactly when the join of the first pass
that finds the node online is a success: it is the only one there will be. -/
theorem joined_after_ok (ps : List LoopPass) :
    (∀ pre, pre <+: ps → JoinsUntilOk (mainLoop pre)) ↔
      ∀ p, ps.find? LoopPass.online = some p → p.joinRc = ztsErrOk := by
  constructor
  · intro h p hp
    have hall := mainLoop_joins ps
    rw [hp] at hall
    obtain ⟨hj, pre, post, he, hpre, hpost⟩ := hall
    obtain ⟨c, hc, hok⟩ := (h ps (List.prefix_refl ps)).joined hj
    rw [he] at hc
    rcases List.mem_append.mp hc with hc | hc
    · rw [hpre c hc] at hok
      cases hok
    · rcases List.mem_cons.mp hc with rfl | hc
      · exact Option.some.inj hok
      · rw [hpost c hc] at hok
        cases hok
  · intro h pre hpre
    have hall := mainLoop_joins pre
    cases hf : pre.find? LoopPass.online with
    | none =>
      rw [hf] at hall
      exact joins_offline hall.1 hall.2
    | some p =>
      rw [hf] at hall
      obtain ⟨_, before, after, he, hb, ha⟩ := hall
      have hrc : p.joinRc = ztsErrOk := by
        apply h p
        obtain ⟨rest, rfl⟩ := hpre
        rw [List.find?_append, hf]
        rfl
      rw [hrc] at he
      exact joins_ok he hb ha

/-- The node is online at the first pass, but its service cannot join yet. -/
def refusedPass : LoopPass := ⟨true, false, -2, 0, 0, ⟨List.replicate 64 0, rfl⟩, none⟩

theorem joined_without_ok :
    ¬ ∀ (ps pre : List LoopPass), pre <+: ps → JoinsUntilOk (mainLoop pre) := by
  intro h
  obtain ⟨c, hc, hok⟩ := (h [refusedPass] [refusedPass] (List.prefix_refl _)).joined rfl
  have he : (mainLoop [refusedPass]).joins = [(true, some (-2))] :=
    (pass_joins .start refusedPass).2
  rw [he] at hc
  rcases List.mem_singleton.mp hc with rfl
  cases hok

end SwitchLdnZt.Proofs.JoinRetry
