import SwitchLdnZt.Sysmodule.Genmem

namespace SwitchLdnZt.Proofs.GenmemSlot
open Library Sysmodule

variable {T : Type} {genmem : UInt64} {s s' : Genmem T} {e : GenmemEvent T}

/-- A flag that is down with nobody inside is one more block to hand out. -/
def vacant (s : Genmem T) : Nat := if s.inUse = false ∧ s.inside = [] then 1 else 0

structure Inv (s : Genmem T) : Prop where
  bound : s.holders.length + s.inside.length + vacant s ≤ 1 + s.overlaps
  taken : s.inUse = true → s.holders ≠ []
  size : ∀ c ∈ s.holders ++ s.inside, c.2 ≤ ztGenmemSize

theorem vacant_le (s : Genmem T) : vacant s ≤ 1 := by
  unfold vacant
  split <;> omega

theorem boot_inv : Inv (Genmem.boot : Genmem T) :=
  ⟨Nat.le_refl 1, fun h => (by cases h), fun _ hc => (by cases hc)⟩

variable [DecidableEq T]

theorem Inv.test (h : Inv s) {t : T} {size : Nat}
    (hs : s.step genmem (.acquireTest t size) = some s') : Inv s' := by
  simp only [Genmem.step] at hs
  split at hs
  · cases hs
  · split at hs
    · cases hs
      exact ⟨h.bound, h.taken, h.size⟩
    next hpass =>
      obtain ⟨hsize, hflag⟩ := not_or.mp hpass
      have hdown : s.inUse = false := Bool.eq_false_iff.mpr hflag
      cases hs
      refine ⟨?_, h.taken, ?_⟩
      · have hb := h.bound
        simp only [vacant, hdown, true_and, List.append_eq_nil_iff, List.cons_ne_nil, and_false,
          if_false, List.length_append, List.length_singleton] at hb ⊢
        split at hb
        next hnone =>
          rw [if_pos hnone]
          omega
        next hsome =>
          rw [if_neg hsome]
          omega
      · intro c hc
        rw [← List.append_assoc] at hc
        rcases List.mem_append.mp hc with hc | hc
        · exact h.size c hc
        · cases List.mem_singleton.mp hc
          exact Nat.not_lt.mp hsize

theorem Inv.store (h : Inv s) {t : T} (hs : s.step genmem (.acquireStore t) = some s') :
    Inv s' := by
  simp only [Genmem.step] at hs
  split at hs
  · cases hs
  next c hfind =>
    have hmem : c ∈ s.inside := List.mem_of_find?_eq_some hfind
    cases hs
    refine ⟨?_, fun _ => by simp, ?_⟩
    · have hb := h.bound
      have hpos := List.length_pos_of_mem hmem
      simp only [vacant, Bool.true_eq_false, false_and, if_false, List.length_append,
        List.length_singleton, List.length_erase_of_mem hmem]
      omega
    · intro d hd
      apply h.size
      rcases List.mem_append.mp hd with hd | hd
      · rcases List.mem_append.mp hd with hd | hd
        · exact List.mem_append_left _ hd
        · cases List.mem_singleton.mp hd
          exact List.mem_append_right _ hmem
      · exact List.mem_append_right _ (List.mem_of_mem_erase hd)

theorem Inv.release (h : Inv s) {t : T} {p : UInt64} (hown : givesBackOwn genmem s (.release t p))
    (hs : s.step genmem (.release t p) = some s') : Inv s' := by
  simp only [Genmem.step] at hs
  split at hs
  next hp =>
    simp only [givesBackOwn, hp, bne_self_eq_false, Bool.false_or, List.any_eq_true] at hown
    obtain ⟨c, hc, hct⟩ := hown
    cases hs
    refine ⟨?_, fun hf => (by cases hf), ?_⟩
    · have hb := h.bound
      have hlen := List.length_eraseP_of_mem (p := fun c => c.1 == t) hc hct
      have hpos := List.length_pos_of_mem hc
      have hone := vacant_le { s with
        inUse := false, holders := s.holders.eraseP (fun c => c.1 == t) }
      dsimp only at hone ⊢
      omega
    · intro d hd
      apply h.size
      rcases List.mem_append.mp hd with hd | hd
      · exact List.mem_append_left _ (List.mem_of_mem_eraseP hd)
      · exact List.mem_append_right _ hd
  next =>
    cases hs
    exact h

theorem Inv.step (h : Inv s) (hown : givesBackOwn genmem s e = true)
    (hs : s.step genmem e = some s') : Inv s' := by
  cases e with
  | acquireTest t size => exact h.test hs
  | acquireStore t => exact h.store hs
  | release t p => exact h.release hown hs

/-- However the calls interleave, as long as only holders give the block back: it has at
most one holder more than tests were passed while another call stood between its test and
its store, never one that asked for more than there is, and it is not lost. -/
theorem genmem_holders {es : List (GenmemEvent T)}
    (hr : run (guarded (givesBackOwn genmem) (Genmem.step genmem)) Genmem.boot es = some s) :
    s.holders.length ≤ 1 + s.overlaps ∧ (∀ c ∈ s.holders, c.2 ≤ ztGenmemSize) ∧
    (s.inUse = true → s.holders ≠ []) := by
  have h : Inv s := run_guarded boot_inv (fun _ _ _ ht hok hs => ht.step hok hs) hr
  refine ⟨?_, fun c hc => h.size c (List.mem_append_left _ hc), h.taken⟩
  have := h.bound
  omega

/-- Both tests are passed before either stores: the block has two holders. -/
def overlapping : List (GenmemEvent Bool) :=
  [.acquireTest true 4096, .acquireTest false 8192, .acquireStore false, .acquireStore true,
    .release true 0]

theorem genmem_holders_overlapping : ∃ s : Genmem Bool, s.overlaps = 1 ∧
    s.holders = [(false, 8192), (true, 4096)] ∧
    s.holders.length ≤ 1 + s.overlaps ∧ (∀ c ∈ s.holders, c.2 ≤ ztGenmemSize) ∧
    (s.inUse = true → s.holders ≠ []) :=
  ⟨_, rfl, rfl, @genmem_holders Bool 65536 _ _ overlapping rfl⟩

end SwitchLdnZt.Proofs.GenmemSlot
