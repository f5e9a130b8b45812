import SwitchLdnZt.Library.Spelling
import SwitchLdnZt.Scripts.Hotpath
import SwitchLdnZt.Scripts.Keepalive
import SwitchLdnZt.Scripts.PeerInfoStruct

namespace SwitchLdnZt.Proofs.LineEnds
open Library Scripts

/-- The files that the three scripts rewrite. -/
inductive Rewrite
  | posixCompat
  | mainCpp
  | nodeCpp
  | constantsHpp
  | nodeService

def Rewrite.edit : Rewrite → Path → Text → Result (Option Text)
  | .posixCompat, _ => Hotpath.posixCompat
  | .mainCpp, _ => Hotpath.mainCpp
  | .nodeCpp, p => Keepalive.scale p
  | .constantsHpp, p => Keepalive.constantsWrite p
  | .nodeService, p => PeerInfoStruct.nodeService p

def Rewrite.replacements : Rewrite → List Replacement
  | .posixCompat =>
    [.regex Hotpath.sendPat Hotpath.sendRepl, .regex Hotpath.recvPat Hotpath.recvRepl]
  | .mainCpp => [.literal Hotpath.sessionsOld Hotpath.sessionsNew]
  | .nodeCpp => [.literal Keepalive.scaleOld Keepalive.scaleNew]
  | .constantsHpp => Keepalive.constSubs.map (fun (old, new) => .literal old new)
  | .nodeService => [.literal PeerInfoStruct.old PeerInfoStruct.new]

/-- The file with the replacements made and each other byte as it was. -/
def Rewrite.preserved (w : Rewrite) (raw : Text) : Text :=
  respelled (applyAllOn w.replacements (spell raw))

/-- The bytes of the file outside the replaced text. -/
def Rewrite.outside (w : Rewrite) (raw : Text) : Text :=
  untouched (applyAllOn w.replacements (spell raw))

theorem substitute_replaces {p : Path} {subs : List (Text × Text)} {acc acc' : Text × Nat}
    (h : subs.foldlM (Keepalive.substitute p) acc = .ok acc') :
    acc'.1 = applyAll (subs.map (fun (old, new) => .literal old new)) acc.1 := by
  induction subs generalizing acc with
  | nil =>
    cases h
    rfl
  | cons sub subs ih =>
    rw [List.foldlM_cons] at h
    obtain ⟨acc₁, hsub, hrest⟩ := bind_ok.mp h
    obtain ⟨s, n⟩ := acc
    obtain ⟨old, new⟩ := sub
    have hone : acc₁.1 = replaceFirst old new s := Keepalive.substitute_ok hsub
    rw [ih hrest, hone, List.map_cons, applyAll, applyAll, List.foldl_cons,
      Replacement.apply_literal]

/-- What a script writes are its replacements, made in the text it read. -/
theorem edit_replaces {w : Rewrite} {p : Path} {s out : Text}
    (h : w.edit p s = .ok (some out)) : out = applyAll w.replacements s := by
  cases w with
  | posixCompat =>
    simp only [Rewrite.edit, Hotpath.posixCompat] at h
    split at h
    · cases h
    · split at h
      · cases h
        simp [Rewrite.replacements, applyAll]
      · cases h
  | mainCpp =>
    simp only [Rewrite.edit, Hotpath.mainCpp] at h
    split at h
    · cases h
      simp [Rewrite.replacements, applyAll]
    · split at h <;> cases h
  | nodeCpp =>
    simp only [Rewrite.edit, Keepalive.scale] at h
    split at h
    · cases h
    · split at h
      · cases h
      · cases h
        simp [Rewrite.replacements, applyAll]
  | constantsHpp =>
    simp only [Rewrite.edit, Keepalive.constantsWrite] at h
    obtain ⟨⟨s', n⟩, hdone, hn⟩ := bind_ok.mp h
    obtain ⟨⟨s'', n'⟩, hsubs, hdone⟩ := bind_ok.mp hdone
    have hout := substitute_replaces hsubs
    dsimp only at hdone
    split at hdone
    · cases hdone
      by_cases hzero : n = 0
      · simp [hzero, pure, Except.pure] at hn
      · simp only [hzero, if_false, pure, Except.pure, Except.ok.injEq, Option.some.injEq] at hn
        rw [← hn]
        exact hout
    · cases hdone
  | nodeService =>
    simp only [Rewrite.edit, PeerInfoStruct.nodeService] at h
    split at h
    · cases h
    · split at h
      · cases h
      · cases h
        simp [Rewrite.replacements, applyAll]

inductive Script
  | hotpath
  | keepalive
  | peerInfo

def Script.run : Script → Tree → Result Tree
  | .hotpath => Hotpath.patchHotpath
  | .keepalive => Keepalive.patchKeepalive
  | .peerInfo => PeerInfoStruct.patchPeerInfo

/-- Which rewriting a script has for a file. -/
def Script.rewrite : Script → Path → Option Rewrite
  | .hotpath, p =>
    if p = ["source", "posix_compat.cpp"] then some .posixCompat
    else if p = ["source", "main.cpp"] then some .mainCpp
    else none
  | .keepalive, p =>
    if p.getLast? = some "Node.cpp" then some .nodeCpp
    else if p.getLast? = some "Constants.hpp" then some .constantsHpp
    else none
  | .peerInfo, p => if p.getLast? = some "NodeService.cpp" then some .nodeService else none

/-- An edit changes its own file alone, to what it computes. -/
theorem edit_changed {p q : Path} {f : Text → Result (Option Text)} {t t' : Tree} {raw : Text}
    (h : edit p f t = .ok t') (hraw : t.raw q = some (some raw)) (hne : t'.raw q ≠ t.raw q) :
    q = p ∧ ∃ out, f (universalNewlines raw) = .ok (some out) ∧ t'.raw q = some (some out) := by
  have hq : q = p := by
    by_contra hq
    exact hne (edit_frame h hq)
  subst hq
  obtain ⟨raw', hraw', hedit⟩ := edit_ok h
  obtain rfl := Option.some.inj (Option.some.inj (hraw'.symm.trans hraw))
  rcases hedit with ⟨_, rfl⟩ | ⟨out, hout, rfl⟩
  · exact absurd rfl hne
  · exact ⟨rfl, out, hout, writeText_raw_self t q out⟩

theorem hotpath_changed {t t' : Tree} {q : Path} {raw : Text}
    (h : Hotpath.patchHotpath t = .ok t') (hraw : t.raw q = some (some raw))
    (hne : t'.raw q ≠ t.raw q) : ∃ w out, Script.rewrite .hotpath q = some w ∧
      w.edit q (universalNewlines raw) = .ok (some out) ∧ t'.raw q = some (some out) := by
  obtain ⟨t₁, hposix, hmain⟩ := bind_ok.mp h
  by_cases hq : q = ["source", "main.cpp"]
  · subst hq
    have hsame := edit_frame hposix (q := ["source", "main.cpp"]) (by decide)
    rw [← hsame] at hraw hne
    obtain ⟨_, out, hout, hw⟩ := edit_changed hmain hraw hne
    exact ⟨.mainCpp, out, rfl, hout, hw⟩
  · have hsame := edit_frame hmain hq
    rw [hsame] at hne ⊢
    obtain ⟨rfl, out, hout, hw⟩ := edit_changed hposix hraw hne
    exact ⟨.posixCompat, out, rfl, hout, hw⟩

theorem keepalive_changed {t t' : Tree} {q : Path} {raw : Text}
    (h : Keepalive.patchKeepalive t = .ok t') (hraw : t.raw q = some (some raw))
    (hne : t'.raw q ≠ t.raw q) : ∃ w out, Script.rewrite .keepalive q = some w ∧
      w.edit q (universalNewlines raw) = .ok (some out) ∧ t'.raw q = some (some out) := by
  obtain ⟨t₁, hscale, hconstants⟩ := bind_ok.mp h
  unfold Keepalive.patchScale at hscale
  unfold Keepalive.patchConstants at hconstants
  split at hscale
  · cases hscale
  next p hp =>
    split at hconstants
    · cases hconstants
    next p' hp' =>
      have hname := rglob_name hp
      have hname' := findFile_name hp'
      by_cases hq : q = p'
      · subst hq
        have hqp : q ≠ p := by
          intro he
          rw [he, hname] at hname'
          exact absurd hname' (by decide)
        rw [← edit_frame hscale hqp] at hraw hne
        obtain ⟨_, out, hout, hw⟩ := edit_changed hconstants hraw hne
        refine ⟨.constantsHpp, out, ?_, hout, hw⟩
        simp [Script.rewrite, hname']
      · have hsame := edit_frame hconstants hq
        rw [hsame] at hne ⊢
        obtain ⟨rfl, out, hout, hw⟩ := edit_changed hscale hraw hne
        refine ⟨.nodeCpp, out, ?_, hout, hw⟩
        simp [Script.rewrite, hname]

theorem peerInfo_changed {t t' : Tree} {q : Path} {raw : Text}
    (h : PeerInfoStruct.patchPeerInfo t = .ok t') (hraw : t.raw q = some (some raw))
    (hne : t'.raw q ≠ t.raw q) : ∃ w out, Script.rewrite .peerInfo q = some w ∧
      w.edit q (universalNewlines raw) = .ok (some out) ∧ t'.raw q = some (some out) := by
  unfold PeerInfoStruct.patchPeerInfo at h
  split at h
  · cases h
  next p hp =>
    obtain ⟨rfl, out, hout, hw⟩ := edit_changed h hraw hne
    refine ⟨.nodeService, out, ?_, hout, hw⟩
    simp [Script.rewrite, rglob_name hp]

/-- A file that one of the scripts rewrites keeps every byte outside the replaced
text exactly where there is no carriage return among these bytes. -/
theorem line_ends_kept {x : Script} {t t' : Tree} {p : Path} {raw : Text}
    (h : x.run t = .ok t') (hraw : t.raw p = some (some raw)) (hne : t'.raw p ≠ t.raw p) :
    ∃ w, x.rewrite p = some w ∧
      (t'.raw p = some (some (w.preserved raw)) ↔ '\r' ∉ w.outside raw) := by
  have hchanged : ∃ w out, x.rewrite p = some w ∧
      w.edit p (universalNewlines raw) = .ok (some out) ∧ t'.raw p = some (some out) := by
    cases x with
    | hotpath => exact hotpath_changed h hraw hne
    | keepalive => exact keepalive_changed h hraw hne
    | peerInfo => exact peerInfo_changed h hraw hne
  obtain ⟨w, out, hw, hout, hwritten⟩ := hchanged
  refine ⟨w, hw, ?_⟩
  rw [hwritten, edit_replaces hout, Option.some.injEq, Option.some.injEq]
  exact edits_keep_iff w.replacements raw

/-- posix_compat.cpp is patched before; main.cpp has the one line, ended as given. -/
def sources (setting lineEnd : Text) : Tree :=
  [(["source", "posix_compat.cpp"], some (text "(void)__sync_fetch_and_add(&g_tx_seq, 1);" ++
      text "(void)__sync_fetch_and_add(&g_rx_seq, 1);")),
    (["source", "main.cpp"], some (setting ++ lineEnd))]

theorem line_ends_kept_lf :
    ∃ t', Script.run .hotpath (sources Hotpath.sessionsOld ['\n']) = .ok t' ∧
      t'.raw ["source", "main.cpp"] =
        some (some (Rewrite.preserved .mainCpp (Hotpath.sessionsOld ++ ['\n']))) := by
  have hrun : Script.run .hotpath (sources Hotpath.sessionsOld ['\n']) =
      .ok (sources Hotpath.sessionsNew ['\n']) := by decide
  obtain ⟨w, hw, hkept⟩ := line_ends_kept (p := ["source", "main.cpp"]) hrun rfl
    (by decide)
  cases hw
  exact ⟨_, hrun, hkept.mpr (by decide)⟩

/-- The line end behind the setting is CRLF, and is LF afterwards. -/
theorem line_ends_lost :
    ¬ ∀ (x : Script) (t t' : Tree) (p : Path) (raw : Text), x.run t = .ok t' →
      t.raw p = some (some raw) → t'.raw p ≠ t.raw p →
      ∃ w, x.rewrite p = some w ∧ t'.raw p = some (some (w.preserved raw)) := by
  intro h
  have hrun : Script.run .hotpath (sources Hotpath.sessionsOld ['\r', '\n']) =
      .ok (sources Hotpath.sessionsNew ['\n']) := by decide
  obtain ⟨w, hw, hkept⟩ := h .hotpath _ _ ["source", "main.cpp"] _ hrun rfl (by decide)
  cases hw
  revert hkept
  decide

end SwitchLdnZt.Proofs.LineEnds
