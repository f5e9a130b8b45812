import Mathlib.Data.List.Nodup
import SwitchLdnZt.Patched.SysThread

namespace SwitchLdnZt.Proofs.SysThreadSlots
open Library Patched

variable {Caller Id : Type}

/-- The call gave back a pointer where it made a thread, and then one to the slot that
has this thread. -/
structure Told (introduced : List SysThread) (switchThreads : SysThread → Option Id)
    (call : SysThreadCall Id) : Prop where
  iff : call.st.isSome = true ↔ call.code = 0
  entry : ∀ p, call.st = some p → p ∈ introduced ∧ switchThreads p = some call.tmp

/-- Every call that returned told the truth, and no slot was given out twice. -/
structure Handed (s : SysThreads Caller Id) : Prop where
  returned : ∀ call ∈ s.returned, Told s.introduced s.switchThreads call
  distinct : s.introduced.Nodup

structure Inv (s : SysThreads Caller Id) : Prop extends Handed s where
  count : s.switchThreadCount.toNat ≤ 32
  created : ∀ c code tmp, s.phase c = .created code tmp → code = 0
  slot : ∀ c code tmp slot, s.phase c = .slot code tmp slot →
    code = 0 ∧ slot.toNat < s.switchThreadCount.toNat ∧ ∀ p ∈ s.introduced, p.val ≠ slot.toNat
  apart : ∀ c d code code' tmp tmp' slot, s.phase c = .slot code tmp slot →
    s.phase d = .slot code' tmp' slot → c = d
  below : ∀ p ∈ s.introduced, p.val < s.switchThreadCount.toNat
  returning : ∀ c call, s.phase c = .returning call → Told s.introduced s.switchThreads call

theorem Inv.init : Inv (SysThreads.init : SysThreads Caller Id) where
  returned := by simp [SysThreads.init]
  distinct := by simp [SysThreads.init]
  count := by simp [SysThreads.init]
  created := by simp [SysThreads.init]
  slot := by simp [SysThreads.init]
  apart := by simp [SysThreads.init]
  below := by simp [SysThreads.init]
  returning := by simp [SysThreads.init]

theorem Told.null {introduced : List SysThread} {switchThreads : SysThread → Option Id}
    {code : Int} {tmp : Id} (hcode : code ≠ 0) : Told introduced switchThreads ⟨code, tmp, none⟩ :=
  ⟨by simpa using hcode, by simp⟩

/-- A slot that nobody was given gets a thread. -/
theorem Told.introduce {introduced : List SysThread} {switchThreads : SysThread → Option Id}
    {call : SysThreadCall Id} (h : Told introduced switchThreads call) {slot : SysThread}
    (hfresh : slot ∉ introduced) (tmp : Id) :
    Told (introduced ++ [slot]) (Function.update switchThreads slot (some tmp)) call := by
  refine ⟨h.iff, ?_⟩
  intro p hp
  obtain ⟨hmem, hentry⟩ := h.entry p hp
  have hne : p ≠ slot := fun he => hfresh (he ▸ hmem)
  rw [Function.update_of_ne hne]
  exact ⟨List.mem_append_left _ hmem, hentry⟩

variable [DecidableEq Caller] {s t : SysThreads Caller Id} {c : Caller} {st : Option SysThread}

theorem phase_at {q r : SysThreadPhase Id} {d : Caller} (h : (s.at c q).phase d = r) :
    d = c ∧ q = r ∨ d ≠ c ∧ s.phase d = r := by
  by_cases he : d = c
  · subst he
    exact .inl ⟨rfl, by simpa [SysThreads.at] using h⟩
  · exact .inr ⟨he, by simpa [SysThreads.at, he] using h⟩

/-- A caller moves to a phase that holds no slot number. -/
theorem Inv.move (h : Inv s) {q : SysThreadPhase Id}
    (hcreated : ∀ code tmp, q = .created code tmp → code = 0)
    (hslot : ∀ code tmp slot, q ≠ .slot code tmp slot)
    (hreturning : ∀ call, q = .returning call → Told s.introduced s.switchThreads call) :
    Inv (s.at c q) where
  returned := h.returned
  distinct := h.distinct
  count := h.count
  below := h.below
  created := by
    intro d code tmp hd
    rcases phase_at hd with ⟨-, hq⟩ | ⟨-, hd⟩
    · exact hcreated code tmp hq
    · exact h.created d code tmp hd
  slot := by
    intro d code tmp slot hd
    rcases phase_at hd with ⟨-, hq⟩ | ⟨-, hd⟩
    · exact absurd hq (hslot code tmp slot)
    · exact h.slot d code tmp slot hd
  apart := by
    intro d e code code' tmp tmp' slot hd he
    rcases phase_at hd with ⟨-, hq⟩ | ⟨-, hd⟩
    · exact absurd hq (hslot code tmp slot)
    · rcases phase_at he with ⟨-, hq⟩ | ⟨-, he⟩
      · exact absurd hq (hslot code' tmp' slot)
      · exact h.apart d e code code' tmp tmp' slot hd he
  returning := by
    intro d call hd
    rcases phase_at hd with ⟨-, hq⟩ | ⟨-, hd⟩
    · exact hreturning call hq
    · exact h.returning d call hd

/-- `introduce_thread` takes a number from the counter that nobody has. -/
theorem Inv.fetchAndAdd (h : Inv s) {code : Int} {tmp : Id} (hc : s.phase c = .created code tmp)
    (hleft : s.switchThreadCount.toNat < 32) :
    Inv { s.at c (.slot code tmp s.switchThreadCount) with
      switchThreadCount := s.switchThreadCount + 1 } := by
  have hnext : (s.switchThreadCount + 1).toNat = s.switchThreadCount.toNat + 1 := by
    rw [UInt32.toNat_add]
    exact Nat.mod_eq_of_lt (by simp only [UInt32.reduceToNat]; omega)
  -- the numbers others have are below the counter, so the new one is not theirs
  have hfresh {d : Caller} {code' : Int} {tmp' : Id}
      (hp : s.phase d = .slot code' tmp' s.switchThreadCount) : False :=
    Nat.lt_irrefl _ (h.slot d code' tmp' _ hp).2.1
  refine { returned := h.returned, distinct := h.distinct, count := ?_, created := ?_, slot := ?_,
           apart := ?_, below := ?_, returning := ?_ }
  · change (s.switchThreadCount + 1).toNat ≤ 32
    omega
  · intro d code' tmp' hd
    rcases phase_at hd with ⟨-, hq⟩ | ⟨-, hd⟩
    · cases hq
    · exact h.created d code' tmp' hd
  · intro d code' tmp' slot hd
    change code' = 0 ∧ slot.toNat < (s.switchThreadCount + 1).toNat ∧ _
    rcases phase_at hd with ⟨-, hq⟩ | ⟨-, hd⟩
    · cases hq
      refine ⟨h.created c code tmp hc, by omega, ?_⟩
      intro p hp
      exact Nat.ne_of_lt (h.below p hp)
    · obtain ⟨hcode, hlt, hne⟩ := h.slot d code' tmp' slot hd
      exact ⟨hcode, by omega, hne⟩
  · intro d e code₁ code₂ tmp₁ tmp₂ slot hd he
    rcases phase_at hd with ⟨hdc, hq⟩ | ⟨-, hd⟩
    · rcases phase_at he with ⟨hec, -⟩ | ⟨-, he⟩
      · rw [hdc, hec]
      · cases hq
        exact (hfresh he).elim
    · rcases phase_at he with ⟨-, hq⟩ | ⟨-, he⟩
      · cases hq
        exact (hfresh hd).elim
      · exact h.apart d e code₁ code₂ tmp₁ tmp₂ slot hd he
  · intro p hp
    change p.val < (s.switchThreadCount + 1).toNat
    have := h.below p hp
    omega
  · intro d call hd
    rcases phase_at hd with ⟨-, hq⟩ | ⟨-, hd⟩
    · cases hq
    · exact h.returning d call hd

/-- `introduce_thread` writes its slot and returns it. -/
theorem Inv.introduce (h : Inv s) {code : Int} {tmp : Id} {slot : UInt32}
    (hc : s.phase c = .slot code tmp slot) (hlt : slot.toNat < 32) :
    Inv { s.at c (.returning ⟨code, tmp, some ⟨slot.toNat, hlt⟩⟩) with
      switchThreads := Function.update s.switchThreads ⟨slot.toNat, hlt⟩ (some tmp)
      introduced := s.introduced ++ [⟨slot.toNat, hlt⟩] } := by
  obtain ⟨hcode, hbelow, hne⟩ := h.slot c code tmp slot hc
  have hfresh : (⟨slot.toNat, hlt⟩ : SysThread) ∉ s.introduced := fun hmem => hne _ hmem rfl
  refine { returned := ?_, distinct := ?_, count := h.count, created := ?_, slot := ?_,
           apart := ?_, below := ?_, returning := ?_ }
  · intro call hcall
    exact (h.returned call hcall).introduce hfresh tmp
  · change (s.introduced ++ [(⟨slot.toNat, hlt⟩ : SysThread)]).Nodup
    rw [List.nodup_append_comm]
    exact List.nodup_cons.mpr ⟨hfresh, h.distinct⟩
  · intro d code' tmp' hd
    rcases phase_at hd with ⟨-, hq⟩ | ⟨-, hd⟩
    · cases hq
    · exact h.created d code' tmp' hd
  · intro d code' tmp' slot' hd
    rcases phase_at hd with ⟨-, hq⟩ | ⟨hdc, hd⟩
    · cases hq
    · obtain ⟨hcode', hlt', hne'⟩ := h.slot d code' tmp' slot' hd
      refine ⟨hcode', hlt', ?_⟩
      intro p hp
      rcases List.mem_append.mp hp with hold | hnew
      · exact hne' p hold
      · rw [List.mem_singleton.mp hnew]
        intro he
        have hslot : slot = slot' := UInt32.toNat_inj.mp he
        subst hslot
        exact hdc (h.apart d c code' code tmp' tmp slot hd hc)
  · intro d e code₁ code₂ tmp₁ tmp₂ slot' hd he
    rcases phase_at hd with ⟨-, hq⟩ | ⟨-, hd⟩
    · cases hq
    · rcases phase_at he with ⟨-, hq⟩ | ⟨-, he⟩
      · cases hq
      · exact h.apart d e code₁ code₂ tmp₁ tmp₂ slot' hd he
  · intro p hp
    rcases List.mem_append.mp hp with hold | hnew
    · exact h.below p hold
    · rw [List.mem_singleton.mp hnew]
      exact hbelow
  · intro d call hd
    rcases phase_at hd with ⟨-, hq⟩ | ⟨-, hd⟩
    · cases hq
      refine ⟨by simpa using hcode, ?_⟩
      intro p hp
      cases hp
      simp
    · exact (h.returning d call hd).introduce hfresh tmp

theorem Inv.leave (h : Inv s) {call : SysThreadCall Id} (hc : s.phase c = .returning call) :
    Inv { s.at c .outside with returned := s.returned ++ [call] } := by
  have hmove : Inv (s.at c .outside) := h.move (by simp) (by simp) (by simp)
  refine { hmove with returned := ?_ }
  intro call' hcall
  rcases List.mem_append.mp hcall with hold | hnew
  · exact h.returned call' hold
  · rw [List.mem_singleton.mp hnew]
    exact h.returning c call hc

theorem Inv.step (hst : st = none) (h : Inv s) {e : SysThreadEvent Caller Id}
    (hleft : slotLeft s e = true) (he : sysThreadStep st s e = some t) : Inv t := by
  cases e with
  | enter c =>
    simp only [sysThreadStep] at he
    split at he <;> cases he
    exact h.move (by simp) (by simp) (by simp)
  | pthreadCreate c code tmp =>
    simp only [sysThreadStep] at he
    split at he
    · split at he <;> cases he
      · rename_i hcode
        exact h.move (by simp [hcode]) (by simp) (by simp)
      · rename_i hcode
        apply h.move (by simp) (by simp)
        intro call hcall
        cases hcall
        subst hst
        exact .null (Ne.symm hcode)
    · cases he
  | fetchAndAdd c =>
    simp only [sysThreadStep] at he
    split at he <;> cases he
    exact h.fetchAndAdd ‹_› (UInt32.lt_iff_toNat_lt.mp (of_decide_eq_true hleft))
  | introduce c =>
    simp only [sysThreadStep] at he
    split at he
    · rename_i code tmp slot hc
      have hlt : slot.toNat < 32 := by
        have := (h.slot c code tmp slot hc).2.1
        have := h.count
        omega
      rw [dif_pos hlt] at he
      cases he
      exact h.introduce hc hlt
    · cases he
  | leave c =>
    simp only [sysThreadStep] at he
    split at he <;> cases he
    exact h.leave ‹_›

/-- In a run where every `introduce_thread` still finds the counter inside the table,
each call that returned gave a pointer for a thread, and no two threads share a slot. -/
theorem handed_while_slots_left (hst : st = none) {es : List (SysThreadEvent Caller Id)}
    (h : run (guarded slotLeft (sysThreadStep st)) SysThreads.init es = some s) : Handed s :=
  (run_guarded Inv.init (fun _ _ _ hi hok hs => Inv.step hst hi hok hs) h).toHanded

/-- One caller's call of `sys_thread_new` whose `pthread_create` succeeds. -/
def oneCall (tmp : Nat) : List (SysThreadEvent Unit Nat) :=
  [.enter (), .pthreadCreate () 0 tmp, .fetchAndAdd (), .introduce (), .leave ()]

theorem handed_after_two : ∃ s : SysThreads Unit Nat,
    run (guarded slotLeft (sysThreadStep none)) .init (oneCall 7 ++ oneCall 8) = some s ∧
      s.returned = [⟨0, 7, some 0⟩, ⟨0, 8, some 1⟩] ∧ Handed s := by
  have hrun : run (guarded slotLeft (sysThreadStep none)) .init (oneCall 7 ++ oneCall 8) =
      some (⟨2, _, _, _, _⟩ : SysThreads Unit Nat) := rfl
  exact ⟨_, hrun, rfl, handed_while_slots_left rfl hrun⟩

/-- The slot that the number `count` stands for. -/
def slotOf (count : UInt32) : Option SysThread :=
  if h : count.toNat < 32 then some ⟨count.toNat, h⟩ else none

theorem run_oneCall {s : SysThreads Unit Nat} (hs : s.phase () = .outside) (tmp : Nat) :
    ∃ t, run (sysThreadStep none) s (oneCall tmp) = some t ∧ t.phase () = .outside ∧
      t.switchThreadCount = s.switchThreadCount + 1 ∧
      t.returned = s.returned ++ [⟨0, tmp, slotOf s.switchThreadCount⟩] := by
  by_cases h : s.switchThreadCount.toNat < 32 <;>
    simp [oneCall, run, sysThreadStep, SysThreads.at, slotOf, hs, h]

/-- The counter goes on past the table, and around. -/
theorem run_calls (n : Nat) : ∃ s : SysThreads Unit Nat,
    run (sysThreadStep none) .init ((List.range n).flatMap oneCall) = some s ∧
      s.phase () = .outside ∧ s.switchThreadCount = UInt32.ofNat n ∧
      s.returned = (List.range n).map (fun k => ⟨0, k, slotOf (UInt32.ofNat k)⟩) := by
  induction n with
  | zero => exact ⟨.init, rfl, rfl, rfl, rfl⟩
  | succ n ih =>
    obtain ⟨s, hrun, hs, hcount, hret⟩ := ih
    obtain ⟨t, hcall, ht, htcount, htret⟩ := run_oneCall hs n
    refine ⟨t, ?_, ht, ?_, ?_⟩
    · rw [List.range_succ, List.flatMap_append, run_append]
      exact ⟨s, hrun, by simpa using hcall⟩
    · rw [htcount, hcount]
      simp
    · rw [htret, hret, hcount, List.range_succ, List.map_append]
      rfl

/-- The 33rd thread runs, and its call returns NULL. -/
theorem thread_without_slot : ∃ s : SysThreads Unit Nat,
    run (sysThreadStep none) .init ((List.range 33).flatMap oneCall) = some s ∧
      ⟨0, 32, none⟩ ∈ s.returned ∧ ¬ Handed s := by
  obtain ⟨s, hrun, -, -, hret⟩ := run_calls 33
  have hnull : ⟨0, 32, none⟩ ∈ s.returned := by
    rw [hret]
    exact List.mem_map.mpr ⟨32, by simp, by simp [slotOf]⟩
  refine ⟨s, hrun, hnull, ?_⟩
  intro h
  exact absurd ((h.returned _ hnull).iff.mpr rfl) (by simp)

end SwitchLdnZt.Proofs.SysThreadSlots
