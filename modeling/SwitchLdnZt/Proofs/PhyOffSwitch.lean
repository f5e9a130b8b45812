import SwitchLdnZt.Library.BlankLines
import SwitchLdnZt.Proofs.OffSwitch
import SwitchLdnZt.Proofs.PhyRestored

namespace SwitchLdnZt.Proofs.PhyOffSwitch
open Library Preprocess Scripts LwipThread SwitchPhy FileRerun PhyRerun PhyRestored OffSwitch

/-- Lines for the Switch alone, with the line end behind them. -/
def Group (x : Text) : Prop := ∃ body, Plain body ∧ x = guarded switch body ++ ['\n']

/-- What stands between the first line and the last. -/
def inner (x : Text) : List Text := ((x.splitOn '\n').drop 1).dropLast.dropLast

def grouped (x : Text) : Bool :=
  x == guarded switch (inner x) ++ ['\n'] && (inner x).all fun l =>
    conditional l == none && !l.contains '\n' && l.getLast? != some '\\'

theorem Group.of {x : Text} (h : grouped x = true) : Group x := by
  rw [grouped, Bool.and_eq_true, beq_iff_eq, List.all_eq_true] at h
  obtain ⟨hx, hall⟩ := h
  refine ⟨inner x, ⟨?_, ?_, ?_⟩, hx⟩
  all_goals
    intro l hl
    have hline := hall l hl
    simp only [Bool.and_eq_true, beq_iff_eq, Bool.not_eq_true', bne_iff_ne,
      List.contains_eq_mem, decide_eq_false_iff_not] at hline
  · exact hline.1.1
  · exact hline.1.2
  · exact hline.2

set_option maxRecDepth 8000 in
theorem groups : Group (stdioGuard ++ text "\n") ∧ Group recvTrace ∧ Group udpTrace ∧
    Group rxTrace.tail :=
  ⟨.of (by decide), .of (by decide), .of (by decide),
    .of (by decide)⟩

variable {m : Macros switch} {t t₁ t₂ : Tree} {p : Path} {s s₁ : Text}

section
variable {anchor addition : Text} {message : String}

end

/-- The files are the same ones, and each that reads is read on, for the same off the
Switch. -/
structure Unseen (m : Macros switch) (t t' : Tree) : Prop where
  paths : t'.map (·.1) = t.map (·.1)
  means : ∀ q s, t.readText q = .ok s → ∃ s', t'.readText q = .ok s' ∧ process m s' = process m s

theorem Unseen.refl (t : Tree) : Unseen m t t := ⟨rfl, fun _ s h => ⟨s, h, rfl⟩⟩

theorem Unseen.trans (h : Unseen m t t₁) (h' : Unseen m t₁ t₂) : Unseen m t t₂ := by
  refine ⟨h'.paths.trans h.paths, ?_⟩
  intro q s hs
  obtain ⟨s', hs', hsame⟩ := h.means q s hs
  obtain ⟨s'', hs'', hsame'⟩ := h'.means q s' hs'
  exact ⟨s'', hs'', hsame'.trans hsame⟩

end SwitchLdnZt.Proofs.PhyOffSwitch
