import SwitchLdnZt.Library.Commute
import SwitchLdnZt.Proofs.PhyRerun

namespace SwitchLdnZt.Proofs.PhyRestored
open Library Scripts LwipThread SwitchPhy FileRerun PhyRerun

variable {t t₁ t₂ u : Tree} {p q : Path} {name : String} {s s₁ s₂ : Text}

/-- The upstream spelling put back where it was. -/
def unchecked (s : Text) : Text := replaceFirst checked noCheck s

theorem solid : Solid checked ∧ Solid noCheck :=
  ⟨.of (by decide), .of (by decide)⟩

/-- A second run of both scripts takes the file through the same two texts. -/
theorem nodeService_unchecked (hin : occurs checked s = true) (hno : occurs noCheck s = false)
    (hm : occurs rxMarker s = true) : nodeService p (unchecked s) = .ok (some s) := by
  obtain ⟨⟨a, b⟩, hcut⟩ := Option.isSome_iff_exists.mp hin
  have hno' := hno
  rw [cut_eq hcut, noCheck_apart.1.occurs_between, Bool.or_eq_false_iff] at hno'
  have hback := solid.2.cut hno'.1 b
  have hunchecked : unchecked s = a ++ noCheck ++ b := replaceFirst_some hcut
  have hone : occurrences noCheck (unchecked s) = 1 := by
    rw [hunchecked, occurrences_some noCheck_apart.1.ne_nil hback,
      occurrences_none (occurs_false.mp hno'.2)]
  have hthere : occurs noCheck (unchecked s) = true := by
    rw [hunchecked]
    exact occurs_iff.mpr ⟨a, b, rfl⟩
  have hconstructor : constructor p (unchecked s) = .ok s := by
    rw [constructor, if_pos hthere, if_neg (by simp [hone])]
    rw [unchecked, replaceFirst_back_again solid.2 hin hno]
  exact bind_ok.mpr ⟨s, hconstructor, bind_ok.mpr ⟨s, traceRx_same hm, rfl⟩⟩

theorem writeText_twice (t : Tree) (p : Path) (s s' : Text) :
    (t.writeText p s).writeText p s' = t.writeText p s' := by
  induction t with
  | nil => simp [Tree.writeText]
  | cons f fs ih =>
    by_cases hf : f.1 = p
    · simp [Tree.writeText, hf]
    · simp only [Tree.writeText, beq_iff_eq, hf, if_false]
      rw [ih]

/-- Wanted for what is in it, the first file that reads is found. -/
theorem findText_first {wanted : Text → Bool}
    (h : findText t name (fun _ => true) = some p) (hs : t.readText p = .ok s)
    (hw : wanted s = true) : findText t name wanted = some p := by
  rw [findText] at h ⊢
  obtain ⟨-, as, bs, hl, hno⟩ := List.find?_eq_some_iff_append.mp h
  rw [hl]
  refine List.find?_eq_some_iff_append.mpr ⟨?_, as, bs, rfl, ?_⟩
  · rw [hs]
    exact hw
  · intro q hq
    have hfalse := hno q hq
    split at hfalse
    next => cases hfalse
    next => rfl

/-- What a run of patch-switch-phy.py went through. -/
structure PhyRun (t : Tree) (p : Path) (s s₁ s₂ : Text) (t₁ : Tree) : Prop where
  found : findText t "NodeService.cpp" (fun _ => true) = some p
  there : ∃ r, t.raw p = some (some r) ∧ universalNewlines r = s
  built : constructor p s = .ok s₁
  traced : traceRx p s₁ = .ok s₂
  header : patchPhyHpp (t.writeText p s₂) = .ok t₁

theorem PhyRun.of (h : patchPhy t = .ok t₁) : ∃ p s s₁ s₂, PhyRun t p s s₁ s₂ t₁ := by
  obtain ⟨u, h₁, h₂⟩ := bind_ok.mp h
  unfold patchNodeService at h₁
  split at h₁
  next p hp =>
    obtain ⟨r, hraw, ⟨hnone, -⟩ | ⟨s₂, hsome, rfl⟩⟩ := edit_ok h₁
    · obtain ⟨s₁, s₂, -, -, ho⟩ := nodeService_ok hnone
      cases ho
    · obtain ⟨s₁, s₂', hbuilt, htraced, ho⟩ := nodeService_ok hsome
      cases ho
      exact ⟨p, _, s₁, s₂, hp, ⟨r, hraw, rfl⟩, hbuilt, htraced, h₂⟩
  next => cases h₁

theorem PhyRun.clean (h : PhyRun t p s s₁ s₂ t₁) : '\r' ∉ s₂ := by
  obtain ⟨r, -, rfl⟩ := h.there
  apply traceRx_clean ?_ h.traced
  obtain ⟨-, rfl | rfl⟩ := constructor_ok h.built
  · exact universalNewlines_clean r
  · exact replaceFirst_clean (by decide) (universalNewlines_clean r)

theorem patchPhyHpp_only (h : patchPhyHpp t = .ok t₁) : Only ["Phy.hpp"] t t₁ := by
  unfold patchPhyHpp at h
  split at h
  next q hq => exact edit_only h (findFile_name hq)
  next => cases h

theorem PhyRun.header_again (h : PhyRun t p s s₁ s₂ t₁) : patchPhyHpp t₁ = .ok t₁ := by
  have hheader := h.header
  unfold patchPhyHpp at hheader
  split at hheader
  next q hq =>
    rw [findFile_eq] at hq
    obtain ⟨hq', hagain⟩ := (phyHpp_settles q).again hq hheader (.refl [] t₁) (by simp)
    rw [patchPhyHpp, findFile_eq, hq']
    exact hagain
  next => cases hheader

/-- The file stands in the tree as the run left it, and is the first that reads. -/
theorem PhyRun.left (h : PhyRun t p s s₁ s₂ t₁) : t₁.raw p = some (some s₂) ∧
    t₁.readText p = .ok s₂ ∧ findText t₁ "NodeService.cpp" (fun _ => true) = some p := by
  obtain ⟨r, hraw, -⟩ := h.there
  have honly := patchPhyHpp_only h.header
  have hname := (findText_spec h.found).1
  have hleft : t₁.raw p = some (some s₂) := by
    rw [honly.raw hname (by decide), writeText_raw_self]
  have hread := readText_of_raw hleft
  rw [universalNewlines_same h.clean] at hread
  refine ⟨hleft, hread, ?_⟩
  rw [findText_same honly (by decide)]
  have hbut : AllBut "NodeService.cpp" p t (t.writeText p s₂) :=
    ⟨writeText_paths hraw s₂, fun q _ hne => writeText_raw_other t s₂ hne⟩
  have hread' := readText_of_raw (writeText_raw_self t p s₂)
  rw [universalNewlines_same h.clean] at hread'
  exact findText_again h.found hbut hread' rfl

/-- The restore script, on a file that the other has left with its own spelling. -/
theorem PhyRun.restore (h : PhyRun t p s s₁ s₂ t₁) (hin : occurs checked s₂ = true)
    (h₂ : restoreChecksum t₁ = .ok t₂) : t₂ = t₁.writeText p (unchecked s₂) := by
  obtain ⟨hraw, hread, hfirst⟩ := h.left
  have hfound : findText t₁ "NodeService.cpp" (fun s => occurs checked s || occurs noCheck s) =
      some p := findText_first hfirst hread (by rw [hin]; rfl)
  rw [restoreChecksum, hfound] at h₂
  obtain ⟨r, hraw', ⟨hnone, -⟩ | ⟨s', hsome, rfl⟩⟩ := edit_ok h₂
  all_goals
    rw [hraw, Option.some.injEq, Option.some.injEq] at hraw'
    subst hraw'
    rw [universalNewlines_same h.clean, restored, if_pos hin] at *
  · cases hnone
  · cases hsome
    rfl

theorem traceRx_word {w : Text} (h : traceRx p s = .ok s₁) (hline : '\n' ∉ w)
    (hbrace : '\x7b' ∉ w) (ho : occurs w s = true) : occurs w s₁ = true := by
  have hinclude : occurs w (includeStdio s) = true := by
    rcases includeStdio_cases s with hs | ⟨a, b, hs, hi⟩
    · rwa [hs]
    · rw [hi]
      rw [hs] at ho
      have hword := word_kept (by decide) hline ho (stdioGuard ++ text "\n")
      simpa only [List.append_assoc] using hword
  obtain ⟨-, rfl⟩ | ⟨x, y, hi, rfl⟩ := traceRx_ok h
  · exact ho
  · rw [hi] at hinclude
    exact (Whole.of_last (List.getLast?_concat) hbrace y).occurs hinclude rxTrace

/-- With either spelling in the file, it is the script's own that is there behind the run. -/
theorem PhyRun.checked_in (h : PhyRun t p s s₁ s₂ t₁)
    (hs : (occurs checked s || occurs noCheck s) = true) : occurs checked s₂ = true := by
  have hbuilt : occurs checked s₁ = true := by
    obtain ⟨hgone, rfl | rfl⟩ := constructor_ok h.built
    · rwa [hgone, Bool.or_false] at hs
    · cases hin : occurs noCheck s with
      | true =>
        obtain ⟨⟨a, b⟩, hcut⟩ := Option.isSome_iff_exists.mp hin
        rw [replaceFirst_some hcut]
        exact occurs_iff.mpr ⟨a, b, rfl⟩
      | false =>
        rw [hin, Bool.or_false] at hs
        rwa [replaceFirst_none (occurs_false.mp hin)]
  exact traceRx_word h.traced (by decide) (by decide) hbuilt

/-- The NodeService.cpp that the scripts take has the constructor as upstream has it. -/
def Upstream (t : Tree) : Prop := ∀ p s, findText t "NodeService.cpp" (fun _ => true) = some p →
  t.readText p = .ok s → occurs noCheck s = true ∧ occurs checked s = false

/-- On the tree that both have left, the first script gives its own tree again, where
the NodeService.cpp that it takes has the constructor in either spelling. -/
theorem phy_after_restore
    (hspelled : ∀ p s, findText t "NodeService.cpp" (fun _ => true) = some p →
      t.readText p = .ok s → (occurs checked s || occurs noCheck s) = true)
    (h₁ : patchPhy t = .ok t₁) (h₂ : restoreChecksum t₁ = .ok t₂) :
    patchPhy t₂ = .ok t₁ ∧ (patchPhy t₂ >>= restoreChecksum) = .ok t₂ := by
  obtain ⟨p, s, s₁, s₂, hrun⟩ := PhyRun.of h₁
  obtain ⟨r, hraw, hr⟩ := hrun.there
  have hin := hrun.checked_in (hspelled p s hrun.found (by rw [readText_of_raw hraw, hr]))
  have htree := hrun.restore hin h₂
  suffices hagain : patchPhy t₂ = .ok t₁ from ⟨hagain, bind_ok.mpr ⟨t₁, hagain, h₂⟩⟩
  obtain ⟨hleft, -, hfirst⟩ := hrun.left
  have hno := traceRx_absent hrun.traced (constructor_ok hrun.built).1
  have hnode := nodeService_unchecked (p := p) hin hno (traceRx_marked hrun.traced)
  have hclean : '\r' ∉ unchecked s₂ := replaceFirst_clean (by decide) hrun.clean
  have hraw₂ := writeText_raw_self t₁ p (unchecked s₂)
  have hread := readText_of_raw hraw₂
  rw [universalNewlines_same hclean] at hread
  rw [← htree] at hread
  have hbut : AllBut "NodeService.cpp" p t₁ t₂ := by
    rw [htree]
    exact ⟨writeText_paths hleft _, fun q _ hne => writeText_raw_other t₁ _ hne⟩
  refine bind_ok.mpr ⟨t₁, ?_, hrun.header_again⟩
  rw [patchNodeService, findText_again hfirst hbut hread rfl]
  refine bind_ok.mpr ⟨unchecked s₂, hread, bind_ok.mpr ⟨some s₂, hnode, ?_⟩⟩
  dsimp only
  rw [htree, writeText_twice, writeText_same hleft]

/-- The two scripts on upstream's files in short. -/
def restoredTree : Result Tree := patchPhy phyTree >>= restoreChecksum

set_option maxRecDepth 8000 in
theorem restoredTree_ok : restoredTree.isOk = true := by
  decide

theorem restored_some : ∃ t₁ t₂, patchPhy phyTree = .ok t₁ ∧ restoreChecksum t₁ = .ok t₂ := by
  obtain ⟨t₂, hrun⟩ := ok_of_isOk restoredTree_ok
  obtain ⟨t₁, h₁, h₂⟩ := bind_ok.mp hrun
  exact ⟨t₁, t₂, h₁, h₂⟩

set_option maxRecDepth 8000 in
theorem phyTree_upstream : Upstream phyTree := by
  have hfound : findText phyTree "NodeService.cpp" (fun _ => true) = some nodeServiceCpp := by
    decide
  have hspelled : (phyTree.readText nodeServiceCpp).toOption.all (fun s =>
      occurs noCheck s && !occurs checked s) = true := by decide
  intro p s hp hs
  rw [hfound, Option.some.injEq] at hp
  rw [← hp] at hs
  rw [hs, Except.toOption, Option.all_some, Bool.and_eq_true, Bool.not_eq_true'] at hspelled
  exact hspelled

theorem phy_after_restore_upstream : ∃ t₁ t₂, patchPhy t₂ = .ok t₁ ∧
    (patchPhy t₂ >>= restoreChecksum) = .ok t₂ := by
  obtain ⟨t₁, t₂, h₁, h₂⟩ := restored_some
  have hspelled (p s) (hp : findText phyTree "NodeService.cpp" (fun _ => true) = some p)
      (hs : phyTree.readText p = .ok s) : (occurs checked s || occurs noCheck s) = true := by
    obtain ⟨hin, -⟩ := phyTree_upstream p s hp hs
    rw [hin, Bool.or_true]
  exact ⟨t₁, t₂, phy_after_restore hspelled h₁ h₂⟩

end SwitchLdnZt.Proofs.PhyRestored
