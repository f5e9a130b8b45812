import SwitchLdnZt.Proofs.PhyRerun
import SwitchLdnZt.Scripts.AuthTrace

namespace SwitchLdnZt.Proofs.AuthRerun
open Library Scripts SwitchPhy AuthTrace FileRerun PhyRerun

variable {p q : Path} {t t₁ t' u : Tree} {s s' w : Text}

theorem stdio_apart : Apart stdioInclude failureCall := .of_apart (by decide)

theorem addStdio_same (h : occurs stdioInclude s = true) : addStdio p w s = .ok s := by
  rw [addStdio, if_pos h]

theorem addStdio_occurs (h : addStdio p w s = .ok s') : occurs stdioInclude s' = true := by
  unfold addStdio at h
  split at h
  next hin =>
    cases h
    exact hin
  next =>
    obtain ⟨a, b, -, rfl⟩ := behind_ok h
    refine occurs_iff.mpr ⟨a ++ w, text "\n" ++ b, ?_⟩
    simp only [List.append_assoc]

theorem addStdio_clean (h : addStdio p w s = .ok s') (hs : '\r' ∉ s) : '\r' ∉ s' := by
  unfold addStdio at h
  split at h
  · cases h
    exact hs
  · exact behind_clean h (by decide) hs

/-- The block has the call that the trace goes before. -/
theorem invalidMac_failure : ∃ is js,
    invalidMac = is ++ failureCall.map (fun c => .one (.lit c)) ++ js := by
  refine ⟨lits "if" ++ ws ++ lits "(" ++ ws ++ lits "!" ++ ws ++ lits "dearmor(peer->key()," ++
      ws ++ lits "peer->aesKeys())" ++ ws ++ lits ")" ++ ws ++ lits "\x7b" ++ anyFew,
    lits "(tPtr,_path,packetId(),sourceAddress,hops(),\"invalid MAC\");" ++ anyFew ++
      lits "peer->recordIncomingInvalidPacket(_path);" ++ anyFew ++ lits "return true;" ++ ws ++
      lits "\x7d", ?_⟩
  rfl

theorem Fits.occurs {is js : List Item} {segs : List Text}
    (h : Fits (is ++ w.map (fun c => .one (.lit c)) ++ js) segs) :
    occurs w segs.flatten = true := by
  obtain ⟨us, vs, rfl, hu, -⟩ := h.append
  obtain ⟨us, ws, rfl, -, hw⟩ := hu.append
  refine occurs_iff.mpr ⟨us.flatten, vs.flatten, ?_⟩
  rw [List.flatten_append, List.flatten_append, hw.lits]

/-- The text before the place of the trace in IncomingPacket.cpp, and from there on. -/
def place (s : Text) : Option (Text × Text) := do
  let (b, segs, a) ← search [invalidMac] s
  let (x, y) ← cut failureCall segs.flatten
  return (b ++ x, failureCall ++ y ++ a)

/-- A finished trace is there before, or is put in at its place. -/
theorem incomingPacket_ok (h : incomingPacket p s = .ok s') :
    ∃ s₁, addStdio p traceInclude s = .ok s₁ ∧ (occurs rejectMarker s₁ = true ∧ s' = s₁ ∨
      ∃ u v, place s₁ = some (u, v) ∧ s₁ = u ++ v ∧ failureCall <+: v ∧ s' = u ++ inject ++ v) := by
  obtain ⟨s₁, h₁, h⟩ := bind_ok.mp h
  refine ⟨s₁, h₁, ?_⟩
  split at h
  next hin =>
    cases h
    exact .inl ⟨hin, rfl⟩
  next =>
    split at h
    next => cases h
    next b segs a hsearch =>
      cases h
      obtain ⟨htext, is, his, hfits⟩ := searchFrom_spec hsearch
      obtain ⟨ks, js, hsplit⟩ := invalidMac_failure
      rw [List.mem_singleton.mp his, hsplit] at hfits
      obtain ⟨⟨x, y⟩, hcut⟩ := Option.isSome_iff_exists.mp (Fits.occurs hfits)
      refine .inr ⟨b ++ x, failureCall ++ y ++ a, ?_, ?_, ?_, ?_⟩
      · rw [place, hsearch]
        change (cut failureCall segs.flatten).bind _ = _
        rw [hcut]
        rfl
      · rw [htext, cut_eq hcut]
        simp only [List.append_assoc]
      · rw [List.append_assoc]
        exact List.prefix_append _ _
      · rw [replaceFirst_some hcut]
        simp only [List.append_assoc]

set_option maxRecDepth 4000 in
theorem inject_text : occurs rejectMarker inject = true ∧ '\r' ∉ inject := by
  decide

theorem incomingPacket_again (h : incomingPacket p s = .ok s') : incomingPacket p s' = .ok s' := by
  obtain ⟨s₁, h₁, ⟨hin, rfl⟩ | ⟨u, v, -, rfl, hv, rfl⟩⟩ := incomingPacket_ok h
  · refine bind_ok.mpr ⟨s', addStdio_same (addStdio_occurs h₁), ?_⟩
    rw [if_pos hin]
    rfl
  · have hwhole : Whole stdioInclude u v := .of_ahead hv stdio_apart
    have hmarked : occurs rejectMarker (u ++ inject ++ v) = true :=
      occurs_append inject_text.1 u v
    refine bind_ok.mpr ⟨u ++ inject ++ v, ?_, ?_⟩
    · exact addStdio_same (hwhole.occurs (addStdio_occurs h₁) inject)
    · rw [if_pos hmarked]
      rfl

theorem incomingPacket_clean (h : incomingPacket p s = .ok s') (hs : '\r' ∉ s) : '\r' ∉ s' := by
  obtain ⟨s₁, h₁, ⟨-, rfl⟩ | ⟨u, v, -, rfl, -, rfl⟩⟩ := incomingPacket_ok h
  · exact addStdio_clean h₁ hs
  · have hclean := addStdio_clean h₁ hs
    simp only [List.mem_append, not_or] at hclean ⊢
    exact ⟨⟨hclean.1, inject_text.2⟩, hclean.2⟩

/-- As with IncomingPacket.cpp; the place is the second of the anchor's line ends. -/
theorem peerReceived_ok (h : peerReceived p s = .ok s') :
    ∃ s₁, addStdio p metricsInclude s = .ok s₁ ∧ (occurs receivedMarker s₁ = true ∧ s' = s₁ ∨
      ∃ a b, s₁ = a ++ nowLine ++ (lastReceive ++ b) ∧
        s' = a ++ nowLine ++ (receivedTrace ++ text "\n") ++ (lastReceive ++ b)) := by
  obtain ⟨s₁, h₁, h⟩ := bind_ok.mp h
  refine ⟨s₁, h₁, ?_⟩
  split at h
  next hin =>
    cases h
    exact .inl ⟨hin, rfl⟩
  next =>
    split at h
    next hocc =>
      cases h
      obtain ⟨⟨a, b⟩, hcut⟩ := Option.isSome_iff_exists.mp hocc
      refine .inr ⟨a, b, ?_, ?_⟩
      · rw [cut_eq hcut]
        simp only [List.append_assoc]
      · rw [replaceFirst_some hcut]
        simp only [List.append_assoc]
    next => cases h

set_option maxRecDepth 4000 in
theorem received_text : occurs receivedMarker (receivedTrace ++ text "\n") = true ∧
    '\r' ∉ receivedTrace ++ text "\n" := by
  decide

theorem peerReceived_again (h : peerReceived p s = .ok s') : peerReceived p s' = .ok s' := by
  obtain ⟨s₁, h₁, ⟨hin, rfl⟩ | ⟨a, b, rfl, rfl⟩⟩ := peerReceived_ok h
  · refine bind_ok.mpr ⟨s', addStdio_same (addStdio_occurs h₁), ?_⟩
    rw [if_pos hin]
    rfl
  · have hlast : (a ++ nowLine).getLast? = some '\n' := by
      rw [List.getLast?_append]
      rfl
    have hwhole : Whole stdioInclude (a ++ nowLine) (lastReceive ++ b) :=
      .of_last hlast (by decide) _
    have hmarked : occurs receivedMarker
        (a ++ nowLine ++ (receivedTrace ++ text "\n") ++ (lastReceive ++ b)) = true :=
      occurs_append received_text.1 _ _
    refine bind_ok.mpr ⟨_, addStdio_same (hwhole.occurs (addStdio_occurs h₁) _), ?_⟩
    rw [if_pos hmarked]
    rfl

theorem peerReceived_clean (h : peerReceived p s = .ok s') (hs : '\r' ∉ s) : '\r' ∉ s' := by
  obtain ⟨s₁, h₁, ⟨-, rfl⟩ | ⟨a, b, rfl, rfl⟩⟩ := peerReceived_ok h
  · exact addStdio_clean h₁ hs
  · have hclean := addStdio_clean h₁ hs
    rw [List.mem_append, not_or] at hclean
    rw [List.mem_append, List.mem_append, not_or, not_or]
    exact ⟨⟨hclean.1, received_text.2⟩, hclean.2⟩

/-- What an edit did that always writes. -/
theorem edit_map_ok {g : Text → Result Text} (h : edit p (fun s => (g s).map some) t = .ok t₁) :
    ∃ r s', t.raw p = some (some r) ∧ g (universalNewlines r) = .ok s' ∧ t₁ = t.writeText p s' := by
  obtain ⟨r, hraw, ⟨hnone, -⟩ | ⟨s', hsome, rfl⟩⟩ := edit_ok h
  · cases hg : g (universalNewlines r) <;> rw [hg] at hnone <;> cases hnone
  · refine ⟨r, s', hraw, ?_, rfl⟩
    cases hg : g (universalNewlines r) with
    | error e =>
      rw [hg] at hsome
      cases hsome
    | ok s₁ =>
      rw [hg] at hsome
      cases hsome
      rfl

/-- An edit that always writes leaves what it has written. -/
theorem edit_again {g : Text → Result Text} (hclean : ∀ s s', g s = .ok s' → '\r' ∉ s → '\r' ∉ s')
    (hagain : ∀ s s', g s = .ok s' → g s' = .ok s')
    (h : edit p (fun s => (g s).map some) t = .ok t₁) (hu : u.raw p = t₁.raw p) :
    edit p (fun s => (g s).map some) u = .ok u := by
  obtain ⟨r, s', hraw, hg, rfl⟩ := edit_map_ok h
  refine edit_idle (hu.trans (writeText_raw_self t p s')) (.inr ⟨?_, ?_⟩)
  · exact hclean _ _ hg (universalNewlines_clean r)
  · rw [hagain _ _ hg]
    rfl

/-- On whatever tree patch-incoming-auth-trace.py comes to its end, a second run changes
nothing. -/
theorem auth_rerun (h : patchAuthTrace t = .ok t') : patchAuthTrace t' = .ok t' := by
  unfold patchAuthTrace at h
  split at h
  next => cases h
  next => cases h
  next p q hp hq =>
    obtain ⟨t₁, h₁, h₂⟩ := bind_ok.mp h
    have hpaths : t'.map (·.1) = t.map (·.1) := (edit_paths h₂).trans (edit_paths h₁)
    have hpname := rglob_last (List.mem_of_head? hp)
    have hqname := rglob_last (List.mem_of_head? hq)
    have hpq : p ≠ q := by
      rintro rfl
      rw [hpname] at hqname
      exact absurd hqname (by decide)
    rw [patchAuthTrace, rglob_of_paths hpaths, rglob_of_paths hpaths, hp, hq]
    refine bind_ok.mpr ⟨t', ?_, ?_⟩
    · exact edit_again (fun _ _ => incomingPacket_clean) (fun _ _ => incomingPacket_again) h₁
        (edit_frame h₂ hpq)
    · exact edit_again (fun _ _ => peerReceived_clean) (fun _ _ => peerReceived_again) h₂ rfl

/-- The two files in short, as upstream has them. -/
def authTree : Tree :=
  [(["libzt", "IncomingPacket.cpp"], some (lines ["#include \"Trace.hpp\"",
      "\t\t\t\tif (! dearmor(peer->key(), peer->aesKeys())) \x7b",
      "\t\t\t\t\tRR->t->incomingPacketMessageAuthenticationFailure" ++
        "(tPtr,_path,packetId(),sourceAddress,hops(),\"invalid MAC\");",
      "\t\t\t\t\tpeer->recordIncomingInvalidPacket(_path);", "\t\t\t\t\treturn true;",
      "\t\t\t\t\x7d", ""])),
    (["libzt", "Peer.cpp"], some (lines ["#include \"Metrics.hpp\"",
      "\tconst int64_t now = RR->node->now();", "", "\t_lastReceive = now;", ""]))]

set_option maxRecDepth 8000 in
theorem authTree_ok : (patchAuthTrace authTree).isOk = true := by
  decide

theorem auth_rerun_upstream :
    ∃ t', patchAuthTrace authTree = .ok t' ∧ patchAuthTrace t' = .ok t' := by
  obtain ⟨t', hrun⟩ := ok_of_isOk authTree_ok
  exact ⟨t', hrun, auth_rerun hrun⟩

end SwitchLdnZt.Proofs.AuthRerun
