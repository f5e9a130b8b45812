import SwitchLdnZt.Proofs.FileRerun
import SwitchLdnZt.Scripts.Keepalive
import SwitchLdnZt.Scripts.PeerInfoStruct

namespace SwitchLdnZt.Proofs.ScriptReruns
open Library Scripts LwipThread FileRerun

variable {t t' : Tree} {p : Path} {s s' : Text}

section
open Keepalive

theorem scale_ok (h : scale p s = .ok (some s')) :
    occurrences scaleOld s = 1 ∧ s' = replaceFirst scaleOld scaleNew s := by
  unfold scale at h
  split at h
  · cases h
  · split at h
    · cases h
    next hone =>
      cases h
      exact ⟨not_not.mp hone, rfl⟩

/-- What goes in for a text that occurs just once is there. -/
theorem replaced_in {old new : Text} (hold : old ≠ []) (h : occurrences old s = 1) :
    ∃ a b, s = a ++ old ++ b ∧ replaceFirst old new s = a ++ new ++ b := by
  have hocc : occurs old s = true := (occurs_iff_occurrences hold).mpr (by omega)
  obtain ⟨⟨a, b⟩, hcut⟩ := Option.isSome_iff_exists.mp hocc
  exact ⟨a, b, cut_eq hcut, replaceFirst_some hcut⟩

theorem replaced_occurs {old new : Text} (hold : old ≠ []) (h : occurrences old s = 1) :
    occurs new (replaceFirst old new s) = true := by
  obtain ⟨a, b, -, hr⟩ := replaced_in hold h
  rw [hr]
  exact occurs_iff.mpr ⟨a, b, rfl⟩

theorem scale_settles (p : Path) :
    Settles (fun s => occurs scaleNew s || occurs scaleOld s) (scale p) := by
  have hin {s s'} (h : scale p s = .ok (some s')) : occurs scaleNew s' = true := by
    obtain ⟨hone, rfl⟩ := scale_ok h
    exact replaced_occurs (by decide) hone
  refine ⟨?_, ?_, ?_⟩
  · intro s s' hs h
    obtain ⟨hone, rfl⟩ := scale_ok h
    exact replaceFirst_clean (by decide) hs
  · intro s s' _ h
    rw [hin h]
    rfl
  · intro s s' _ h
    left
    rw [scale, if_pos (hin h)]

/-- No line of `CONST_SUBS` shares a character with what goes in for any, nor with another. -/
theorem constSubs_apart : ∀ d ∈ constSubs, ∀ sub ∈ constSubs,
    Apart d.1 sub.2 ∧ (d = sub ∨ Apart d.1 sub.1) := by
  have hall : (constSubs.all fun d => constSubs.all fun sub =>
      apart d.1 sub.2 && (d == sub || apart d.1 sub.1)) = true := by decide
  intro d hd sub hsub
  have hpair := List.all_eq_true.mp (List.all_eq_true.mp hall d hd) sub hsub
  rw [Bool.and_eq_true, Bool.or_eq_true, beq_iff_eq] at hpair
  exact ⟨.of_apart hpair.1, hpair.2.imp_right .of_apart⟩

/-- A line that is not there does not come back, and the turn's own is gone. -/
theorem substitute_gone {sub d : Text × Text} {n n' : Nat} (hsub : sub ∈ constSubs)
    (hd : d ∈ constSubs) (h : substitute p (s, n) sub = .ok (s', n'))
    (hno : occurs d.1 s = false ∨ d = sub) : occurs d.1 s' = false := by
  obtain ⟨hnew, hold⟩ := constSubs_apart d hd sub hsub
  simp only [substitute] at h
  split at h
  next hocc =>
    split at h
    · cases h
    next hone =>
      cases h
      rcases hold with rfl | hold
      · exact replaced_gone hnew (not_not.mp hone)
      · rcases hno with hno | rfl
        · rwa [← (replaceFirst_swapped sub.1 sub.2 s).occurs hnew.ne_nil (by simp [hold, hnew])]
        · exact replaced_gone hnew (not_not.mp hone)
  next hocc =>
    cases h
    rcases hno with hno | rfl
    · exact hno
    · exact Bool.eq_false_iff.mpr hocc

theorem substitute_idle {sub : Text × Text} (h : occurs sub.1 s = false) (n : Nat) :
    substitute p (s, n) sub = .ok (s, n) := by
  rw [substitute, h]
  rfl

/-- Behind the loop none of its lines is left. -/
theorem substitutes_gone {subs : List (Text × Text)} {n n' : Nat}
    (h : subs.foldlM (substitute p) (s, n) = .ok (s', n')) (hsubs : subs ⊆ constSubs)
    {d : Text × Text} (hd : d ∈ constSubs) (hno : occurs d.1 s = false ∨ d ∈ subs) :
    occurs d.1 s' = false := by
  induction subs generalizing s n with
  | nil =>
    cases h
    exact hno.resolve_right (List.not_mem_nil)
  | cons sub subs ih =>
    obtain ⟨⟨s₁, n₁⟩, h₁, h⟩ := bind_ok.mp h
    obtain ⟨hsub, hsubs⟩ := List.cons_subset.mp hsubs
    apply ih h hsubs
    rw [List.mem_cons] at hno
    rcases hno with hno | rfl | hmem
    · exact .inl (substitute_gone hsub hd h₁ (.inl hno))
    · exact .inl (substitute_gone hsub hd h₁ (.inr rfl))
    · exact .inr hmem

theorem substitutes_idle {subs : List (Text × Text)} {n : Nat}
    (h : ∀ d ∈ subs, occurs d.1 s = false) : subs.foldlM (substitute p) (s, n) = .ok (s, n) := by
  induction subs with
  | nil => rfl
  | cons sub subs ih =>
    obtain ⟨hsub, hsubs⟩ := List.forall_mem_cons.mp h
    rw [List.foldlM_cons]
    exact bind_ok.mpr ⟨(s, n), substitute_idle hsub n, ih hsubs⟩

theorem substitutes_clean {subs : List (Text × Text)} {n n' : Nat}
    (h : subs.foldlM (substitute p) (s, n) = .ok (s', n')) (hsubs : ∀ d ∈ subs, '\r' ∉ d.2)
    (hs : '\r' ∉ s) : '\r' ∉ s' := by
  induction subs generalizing s n with
  | nil =>
    cases h
    exact hs
  | cons sub subs ih =>
    obtain ⟨⟨s₁, n₁⟩, h₁, h⟩ := bind_ok.mp h
    obtain ⟨hsub, hsubs⟩ := List.forall_mem_cons.mp hsubs
    apply ih h hsubs
    rw [substitute_ok h₁]
    exact replaceFirst_clean hsub hs

theorem constantsWrite_ok (h : constantsWrite p s = .ok (some s')) :
    ∃ n, constSubs.foldlM (substitute p) (s, 0) = .ok (s', n) ∧ occurs pingDone s' = true := by
  obtain ⟨⟨s₁, n⟩, h₁, h⟩ := bind_ok.mp h
  obtain ⟨⟨s₂, n₂⟩, h₂, hdone⟩ := bind_ok.mp h₁
  simp only at hdone
  split at hdone
  next hping =>
    cases hdone
    dsimp only at h
    split at h
    · cases h
    · cases h
      exact ⟨n, h₂, hping⟩
  next => cases hdone

theorem constantsWrite_settles (p : Path) :
    Settles (fun s => [text "ZT_PEER_PING_PERIOD"].all (fun x => occurs x s))
      (constantsWrite p) := by
  refine ⟨?_, ?_, ?_⟩
  · intro s s' hs h
    obtain ⟨n, hfold, -⟩ := constantsWrite_ok h
    exact substitutes_clean hfold (by decide) hs
  · intro s s' _ h
    obtain ⟨n, -, hping⟩ := constantsWrite_ok h
    obtain ⟨a, b, hs⟩ := occurs_iff.mp hping
    rw [List.all_eq_true]
    intro w hw
    rw [List.mem_singleton] at hw
    rw [hw, hs]
    exact occurs_append (by decide) a b
  · intro s s' _ h
    obtain ⟨n, hfold, hping⟩ := constantsWrite_ok h
    have hgone : ∀ d ∈ constSubs, occurs d.1 s' = false :=
      fun d hd => substitutes_gone hfold (List.Subset.refl _) hd (.inr hd)
    left
    refine bind_ok.mpr ⟨(s', 0), bind_ok.mpr ⟨(s', 0), substitutes_idle hgone, ?_⟩, rfl⟩
    simp only [hping, if_true]
    rfl

theorem patchScale_found
    (hp : findText t "Node.cpp" (fun s => occurs scaleNew s || occurs scaleOld s) = some p) :
    patchScale t = edit p (scale p) t := by
  unfold patchScale
  split
  next hnone => cases hp.symm.trans hnone
  next q hq =>
    cases hp.symm.trans hq
    rfl

/-- On whatever tree patch-zt-upstream-keepalive.py comes to its end, a second run changes
nothing. -/
theorem keepalive_rerun (h : patchKeepalive t = .ok t') : patchKeepalive t' = .ok t' := by
  obtain ⟨t₁, h₁, h₂⟩ := bind_ok.mp h
  unfold patchScale at h₁
  unfold Keepalive.patchConstants at h₂
  split at h₁
  next => cases h₁
  next p hp =>
    split at h₂
    next => cases h₂
    next q hq =>
      rw [findFile_eq] at hq
      have honly : Only ["Constants.hpp"] t₁ t' := edit_only h₂ (findText_spec hq).1
      obtain ⟨hp', hscale⟩ := (scale_settles p).again hp h₁ honly (by decide)
      obtain ⟨hq', hconstants⟩ :=
        (constantsWrite_settles q).again hq h₂ (.refl [] t') (by simp)
      refine bind_ok.mpr ⟨t', ?_, ?_⟩
      · rw [patchScale_found hp']
        exact hscale
      · rw [Keepalive.patchConstants, findFile_eq, hq']
        exact hconstants

/-- The two files as upstream has them, in short. -/
def keepaliveTree : Tree :=
  [(["libzt", "Node.cpp"], some scaleOld),
    (["libzt", "Constants.hpp"], some (text "#define ZT_PEER_PING_PERIOD 60000\n"))]

theorem keepalive_rerun_upstream :
    ∃ t', patchKeepalive keepaliveTree = .ok t' ∧ patchKeepalive t' = .ok t' := by
  have hok : (patchKeepalive keepaliveTree).isOk = true := by decide
  obtain ⟨t', hrun⟩ := ok_of_isOk hok
  exact ⟨t', hrun, keepalive_rerun hrun⟩

end

section
open PeerInfoStruct

theorem nodeService_ok (h : nodeService p s = .ok (some s')) :
    occurrences old s = 1 ∧ s' = replaceFirst old new s := by
  unfold nodeService at h
  split at h
  · cases h
  · split at h
    · cases h
    next hone =>
      cases h
      exact ⟨not_not.mp hone, rfl⟩

set_option maxRecDepth 4000 in
theorem new_text : occurs newStripped new = true ∧ '\r' ∉ new := by
  decide

theorem nodeService_settles (p : Path) :
    Settles (fun s => occurs newStripped s || occurs old s) (nodeService p) := by
  have hin {s s'} (h : nodeService p s = .ok (some s')) : occurs newStripped s' = true := by
    obtain ⟨hone, rfl⟩ := nodeService_ok h
    obtain ⟨a, b, -, hr⟩ := @replaced_in s old new (by decide) hone
    rw [hr]
    exact occurs_append new_text.1 a b
  refine ⟨?_, ?_, ?_⟩
  · intro s s' hs h
    obtain ⟨-, rfl⟩ := nodeService_ok h
    exact replaceFirst_clean new_text.2 hs
  · intro s s' _ h
    rw [hin h]
    rfl
  · intro s s' _ h
    left
    rw [nodeService, if_pos (hin h)]

theorem patchPeerInfo_found
    (hp : findText t "NodeService.cpp" (fun s => occurs newStripped s || occurs old s) = some p) :
    patchPeerInfo t = edit p (nodeService p) t := by
  unfold patchPeerInfo
  split
  next hnone => cases hp.symm.trans hnone
  next q hq =>
    cases hp.symm.trans hq
    rfl

/-- On whatever tree patch-zt-peer-info-struct.py comes to its end, a second run changes
nothing. -/
theorem peerInfo_rerun (h : patchPeerInfo t = .ok t') : patchPeerInfo t' = .ok t' := by
  unfold patchPeerInfo at h
  split at h
  next => cases h
  next p hp =>
    obtain ⟨hp', hagain⟩ := (nodeService_settles p).again hp h (.refl [] t') (by simp)
    rw [patchPeerInfo_found hp']
    exact hagain

/-- The one file as upstream has it, in short. -/
def peerInfoTree : Tree := [(["libzt", "NodeService.cpp"], some old)]

set_option maxRecDepth 8000 in
theorem peerInfoTree_ok : (patchPeerInfo peerInfoTree).isOk = true := by
  decide

theorem peerInfo_rerun_upstream :
    ∃ t', patchPeerInfo peerInfoTree = .ok t' ∧ patchPeerInfo t' = .ok t' := by
  obtain ⟨t', hrun⟩ := ok_of_isOk peerInfoTree_ok
  exact ⟨t', hrun, peerInfo_rerun hrun⟩

end

end SwitchLdnZt.Proofs.ScriptReruns
