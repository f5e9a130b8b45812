import SwitchLdnZt.Proofs.FileRerun
import SwitchLdnZt.Scripts.SwitchPhy

namespace SwitchLdnZt.Proofs.PhyRerun
open Library Scripts LwipThread SwitchPhy FileRerun

variable {p : Path} {s s' : Text}

set_option maxRecDepth 4000 in
theorem rxTrace_text : '\r' ∉ rxTrace ∧ occurs rxMarker rxTrace = true ∧
    apart noCheck rxTrace = true := by
  decide

theorem noCheck_apart : Apart noCheck checked ∧ Apart noCheck (stdioGuard ++ text "\n") ∧
    Apart noCheck rxTrace :=
  ⟨.of_apart (by decide), .of_apart (by decide), .of_apart rxTrace_text.2.2⟩

theorem constructor_ok (h : constructor p s = .ok s') :
    occurs noCheck s' = false ∧ (s' = s ∨ s' = replaceFirst noCheck checked s) := by
  unfold constructor at h
  split at h
  · split at h
    · cases h
    next hone =>
      cases h
      exact ⟨replaced_gone noCheck_apart.1 (not_not.mp hone), .inr rfl⟩
  next hno =>
    cases h
    exact ⟨Bool.eq_false_iff.mpr hno, .inl rfl⟩

theorem constructor_same (h : occurs noCheck s = false) : constructor p s = .ok s := by
  rw [constructor, h]
  rfl

/-- The include, where it is put in, comes behind a line end. -/
theorem includeStdio_cases (s : Text) : includeStdio s = s ∨ ∃ a b, s = a ++ stdlibInclude ++ b ∧
    includeStdio s = a ++ stdlibInclude ++ (stdioGuard ++ text "\n") ++ b := by
  unfold includeStdio
  split
  next h =>
    simp only [Bool.and_eq_true] at h
    obtain ⟨⟨a, b⟩, hcut⟩ := Option.isSome_iff_exists.mp h.1
    refine .inr ⟨a, b, cut_eq hcut, ?_⟩
    rw [replaceFirst_some hcut, withStdio, ← List.append_assoc]
  next => exact .inl rfl

theorem includeStdio_absent (h : occurs noCheck s = false) :
    occurs noCheck (includeStdio s) = false := by
  rcases includeStdio_cases s with hs | ⟨a, b, hs, hi⟩
  · rwa [hs]
  · rw [hi]
    apply noCheck_apart.2.1.absent
    rwa [← hs]

/-- A finished trace is there before, or is put in behind a brace. -/
theorem traceRx_ok (h : traceRx p s = .ok s') :
    (occurs rxMarker s = true ∧ s' = s) ∨
    ∃ x y, includeStdio s = x ++ ['\x7b'] ++ y ∧ s' = x ++ ['\x7b'] ++ rxTrace ++ y := by
  unfold traceRx at h
  split at h
  next hm =>
    cases h
    exact .inl ⟨hm, rfl⟩
  next =>
    split at h
    · cases h
    next a b hcut =>
      split at h
      · cases h
      next u v hbrace =>
        cases h
        refine .inr ⟨a ++ u, v, ?_, ?_⟩
        · rw [cut_eq hcut, List.append_assoc, cut_eq hbrace]
          simp only [List.append_assoc]
        · simp only [List.append_assoc, List.cons_append, List.nil_append]

theorem traceRx_absent (h : traceRx p s = .ok s') (hno : occurs noCheck s = false) :
    occurs noCheck s' = false := by
  obtain ⟨-, rfl⟩ | ⟨x, y, hi, rfl⟩ := traceRx_ok h
  · exact hno
  · apply noCheck_apart.2.2.absent
    rw [← hi]
    exact includeStdio_absent hno

theorem traceRx_marked (h : traceRx p s = .ok s') : occurs rxMarker s' = true := by
  obtain ⟨hm, rfl⟩ | ⟨x, y, -, rfl⟩ := traceRx_ok h
  · exact hm
  · exact occurs_append rxTrace_text.2.1 _ _

theorem traceRx_same (h : occurs rxMarker s = true) : traceRx p s = .ok s := by
  rw [traceRx, if_pos h]

theorem nodeService_ok {o : Option Text} (h : nodeService p s = .ok o) :
    ∃ s₁ s₂, constructor p s = .ok s₁ ∧ traceRx p s₁ = .ok s₂ ∧ o = some s₂ := by
  obtain ⟨s₁, h₁, h⟩ := bind_ok.mp h
  obtain ⟨s₂, h₂, h⟩ := bind_ok.mp h
  cases h
  exact ⟨s₁, s₂, h₁, h₂, rfl⟩

theorem traceRx_clean (hs : '\r' ∉ s) (h : traceRx p s = .ok s') : '\r' ∉ s' := by
  have hinclude : '\r' ∉ includeStdio s := by
    unfold includeStdio
    split
    · exact replaceFirst_clean (by decide) hs
    · exact hs
  obtain ⟨-, rfl⟩ | ⟨x, y, hi, rfl⟩ := traceRx_ok h
  · exact hs
  · rw [hi] at hinclude
    simp only [List.mem_append, not_or] at hinclude ⊢
    exact ⟨⟨hinclude.1, rxTrace_text.1⟩, hinclude.2⟩

theorem nodeService_settles (p : Path) : Settles (fun _ => true) (nodeService p) := by
  refine ⟨?_, fun _ _ _ _ => rfl, ?_⟩
  · intro s s' hs h
    obtain ⟨s₁, s₂, h₁, h₂, ho⟩ := nodeService_ok h
    cases ho
    apply traceRx_clean ?_ h₂
    obtain ⟨-, rfl | rfl⟩ := constructor_ok h₁
    · exact hs
    · exact replaceFirst_clean (by decide) hs
  · intro s s' _ h
    obtain ⟨s₁, s₂, h₁, h₂, ho⟩ := nodeService_ok h
    cases ho
    have hno := traceRx_absent h₂ (constructor_ok h₁).1
    exact .inr (bind_ok.mpr ⟨s', constructor_same hno,
      bind_ok.mpr ⟨s', traceRx_same (traceRx_marked h₂), rfl⟩⟩)

section
variable {anchor addition w : Text} {message : String}

theorem behind_ok (h : behind anchor addition message s = .ok s') :
    ∃ a b, s = a ++ anchor ++ b ∧ s' = a ++ (anchor ++ addition) ++ b := by
  unfold behind at h
  split at h
  next hocc =>
    obtain ⟨⟨a, b⟩, hcut⟩ := Option.isSome_iff_exists.mp hocc
    cases h
    exact ⟨a, b, cut_eq hcut, replaceFirst_some hcut⟩
  next => cases h

theorem behind_word (h : behind anchor addition message s = .ok s')
    (hend : anchor.getLast? = some '\n') (hw : '\n' ∉ w) (ho : occurs w s = true) :
    occurs w s' = true := by
  obtain ⟨a, b, rfl, rfl⟩ := behind_ok h
  exact word_kept hend hw ho addition

theorem behind_clean (h : behind anchor addition message s = .ok s') (hadd : '\r' ∉ addition)
    (hs : '\r' ∉ s) : '\r' ∉ s' := by
  obtain ⟨a, b, rfl, rfl⟩ := behind_ok h
  simp only [List.mem_append, not_or] at hs ⊢
  exact ⟨⟨hs.1.1, hs.1.2, hadd⟩, hs.2⟩

end

theorem guardStdio_word {w : Text} (h : guardStdio p s = .ok s') (hw : '\n' ∉ w)
    (ho : occurs w s = true) : occurs w s' = true := by
  unfold guardStdio at h
  split at h
  · cases h
    exact ho
  · exact behind_word h rfl hw ho

theorem guardStdio_clean (h : guardStdio p s = .ok s') (hs : '\r' ∉ s) : '\r' ∉ s' := by
  unfold guardStdio at h
  split at h
  · cases h
    exact hs
  · exact behind_clean h (by decide) hs

theorem phyHpp_ok (h : phyHpp p s = .ok (some s')) :
    ∃ s₁ s₂ m₁ m₂, guardStdio p s = .ok s₁ ∧ behind recvStatement recvTrace m₁ s₁ = .ok s₂ ∧
      behind udpCase udpTrace m₂ s₂ = .ok s' := by
  unfold phyHpp at h
  split at h
  · cases h
  · obtain ⟨s₁, h₁, h⟩ := bind_ok.mp h
    obtain ⟨s₂, h₂, h⟩ := bind_ok.mp h
    obtain ⟨s₃, h₃, h⟩ := bind_ok.mp h
    cases h
    exact ⟨s₁, s₂, _, _, h₁, h₂, h₃⟩

set_option maxRecDepth 4000 in
theorem phyHpp_text : '\r' ∉ recvTrace ∧ '\r' ∉ udpTrace ∧
    occurs recvMarker (recvStatement ++ recvTrace) = true := by
  decide

theorem phyHpp_settles (p : Path) :
    Settles (fun s => phyWords.all (fun x => occurs x s)) (phyHpp p) := by
  refine ⟨?_, ?_, ?_⟩
  · intro s s' hs h
    obtain ⟨s₁, s₂, _, _, h₁, h₂, h₃⟩ := phyHpp_ok h
    have hrecv := behind_clean h₂ phyHpp_text.1 (guardStdio_clean h₁ hs)
    exact behind_clean h₃ phyHpp_text.2.1 hrecv
  · intro s s' hs h
    obtain ⟨s₁, s₂, _, _, h₁, h₂, h₃⟩ := phyHpp_ok h
    rw [List.all_eq_true] at hs ⊢
    intro w hw
    have hline : ∀ w ∈ phyWords, '\n' ∉ w := by decide
    have hrecv := behind_word h₂ (by decide) (hline w hw)
      (guardStdio_word h₁ (hline w hw) (hs w hw))
    exact behind_word h₃ (by decide) (hline w hw) hrecv
  · intro s s' _ h
    obtain ⟨s₁, s₂, _, _, -, h₂, h₃⟩ := phyHpp_ok h
    obtain ⟨a, b, -, rfl⟩ := behind_ok h₂
    have hmarked : occurs recvMarker (a ++ (recvStatement ++ recvTrace) ++ b) = true :=
      occurs_append phyHpp_text.2.2 _ _
    have hkept := behind_word h₃ (by decide) (by decide) hmarked
    left
    rw [phyHpp, if_pos hkept]

/-- On whatever tree patch-switch-phy.py comes to its end, a second run changes nothing. -/
theorem phy_rerun {t t' : Tree} (h : patchPhy t = .ok t') : patchPhy t' = .ok t' := by
  obtain ⟨t₁, h₁, h₂⟩ := bind_ok.mp h
  unfold patchNodeService at h₁
  unfold patchPhyHpp at h₂
  split at h₁
  next p hp =>
    split at h₂
    next q hq =>
      rw [findFile_eq] at hq
      have hphy : Only ["Phy.hpp"] t₁ t' := edit_only h₂ (findText_spec hq).1
      obtain ⟨hp', hnode⟩ := (nodeService_settles p).again hp h₁ hphy (by decide)
      obtain ⟨hq', hagain⟩ := (phyHpp_settles q).again hq h₂ (.refl [] t') (by simp)
      refine bind_ok.mpr ⟨t', ?_, ?_⟩
      · rw [patchNodeService, hp']
        exact hnode
      · rw [patchPhyHpp, findFile_eq, hq']
        exact hagain
    next => cases h₂
  next => cases h₁

def nodeServiceCpp : Path := ["libzt", "NodeService.cpp"]

/-- The two files in short, as upstream has them. -/
def phyTree : Tree :=
  [(nodeServiceCpp, some (lines ["#include <stdlib.h>", ": _phy(this, false, true)",
      "void NodeService::phyOnDatagram(", "    void** uptr)", "\x7b", "\x7d", ""])),
    (["libzt", "Phy.hpp"], some (lines ["#include <string.h>", "udpBind(a)",
      "case ZT_PHY_SOCKET_UDP:", "\t\t\t\t\tif (FD_ISSET(s->sock, &rfds)) \x7b",
      "long n = (long)::recvfrom(s->sock, buf, sizeof(buf), 0, (struct sockaddr*)&ss, &slen);",
      "phyOnDatagram", ""]))]

set_option maxRecDepth 8000 in
theorem phyTree_ok : (patchPhy phyTree).isOk = true := by
  decide

theorem phy_rerun_upstream : ∃ t', patchPhy phyTree = .ok t' ∧ patchPhy t' = .ok t' := by
  obtain ⟨t', hrun⟩ := ok_of_isOk phyTree_ok
  exact ⟨t', hrun, phy_rerun hrun⟩

end SwitchLdnZt.Proofs.PhyRerun
