import SwitchLdnZt.Patched.PeerInfo

namespace SwitchLdnZt.Proofs.PeerCopy
open Patched

variable {Ss ZtsSs : Type} {N M : Nat}
variable (nativeSsToZtsSs : Ss → ZtsSs) (zero : ZtsPath ZtsSs) (behind : Nat → PhysicalPath Ss)

/-- The copy touches nothing but entries of the two arrays, and its count is of
entries that it filled from the peer's own. -/
structure Bounded (peer : Peer Ss N) (c : Copy ZtsSs M) : Prop where
  reads : ∀ j ∈ c.reads, j < N
  writes : ∀ j ∈ c.writes, j < M
  count : c.info.pathCount.toNat = c.filled N
  seen : ∀ j < c.info.pathCount.toNat, ∃ (hm : j < M) (hn : j < N),
    c.info.paths ⟨j, hm⟩ = ztsPath nativeSsToZtsSs (peer.paths ⟨j, hn⟩)

theorem setPath_self {pr : PeerInfo ZtsSs M} {j : Nat} (h : j < M) (p : ZtsPath ZtsSs) :
    (pr.setPath j p).paths ⟨j, h⟩ = p := by
  simp [PeerInfo.setPath, h]

theorem setPath_other {pr : PeerInfo ZtsSs M} {j k : Nat} (h : k < M) (hne : k ≠ j)
    (p : ZtsPath ZtsSs) : (pr.setPath j p).paths ⟨k, h⟩ = pr.paths ⟨k, h⟩ := by
  unfold PeerInfo.setPath
  split
  · exact Function.update_of_ne (by simpa using hne) _ _
  · rfl

@[simp] theorem setPath_pathCount (pr : PeerInfo ZtsSs M) (j : Nat) (p : ZtsPath ZtsSs) :
    (pr.setPath j p).pathCount = pr.pathCount := by
  unfold PeerInfo.setPath
  split <;> rfl

/-- After `limit` turns the first `limit` entries were visited, in order. -/
theorem copyPaths_visits (peer : Peer Ss N) (pr : PeerInfo ZtsSs M) (limit : Nat) :
    (copyPaths nativeSsToZtsSs behind peer ⟨pr, [], []⟩ limit).reads = List.range limit ∧
    (copyPaths nativeSsToZtsSs behind peer ⟨pr, [], []⟩ limit).writes = List.range limit ∧
    (copyPaths nativeSsToZtsSs behind peer ⟨pr, [], []⟩ limit).info.pathCount = pr.pathCount := by
  induction limit with
  | zero => exact ⟨rfl, rfl, rfl⟩
  | succ limit ih =>
    obtain ⟨hr, hw, hc⟩ := ih
    simp [copyPaths, Copy.path, hr, hw, hc, List.range_succ]

theorem copyPaths_fills (peer : Peer Ss N) (pr : PeerInfo ZtsSs M) {limit j : Nat}
    (hj : j < limit) (hm : j < M) :
    (copyPaths nativeSsToZtsSs behind peer ⟨pr, [], []⟩ limit).info.paths ⟨j, hm⟩ =
      ztsPath nativeSsToZtsSs (peer.path behind j) := by
  induction limit with
  | zero => cases hj
  | succ limit ih =>
    simp only [copyPaths, Copy.path]
    by_cases he : j = limit
    · subst he
      rw [setPath_self]
    · rw [setPath_other hm he]
      exact ih (by omega)

theorem takeWhile_range (n k : Nat) :
    ((List.range n).takeWhile (fun j => decide (j < k))).length = min n k := by
  induction n generalizing k with
  | zero => simp
  | succ n ih =>
    cases k with
    | zero => simp [List.range_succ_eq_map]
    | succ k =>
      rw [List.range_succ_eq_map]
      simp [List.takeWhile_map, Function.comp_def, ih]

theorem copyPeer_filled (peer : Peer Ss N) :
    (copyPeer nativeSsToZtsSs zero behind M peer).filled N =
      min M (min (pathLimit M peer.pathCount) N) := by
  obtain ⟨hr, hw, -⟩ := copyPaths_visits nativeSsToZtsSs behind peer _ (pathLimit M peer.pathCount)
  rw [← takeWhile_range, Copy.filled, copyPeer, hr, hw]
  congr 2
  funext j
  simp only [List.mem_range, decide_eq_decide]
  omega

/-- The copy is in bounds and its count is right for exactly the peers whose
count fits both arrays. -/
theorem copyPeer_bounded_iff (peer : Peer Ss N) :
    Bounded nativeSsToZtsSs peer (copyPeer nativeSsToZtsSs zero behind M peer) ↔
      peer.pathCount.toNat ≤ N ∧ peer.pathCount.toNat ≤ M := by
  have hfilled := copyPeer_filled nativeSsToZtsSs zero behind (M := M) peer
  have hvisits (pr : PeerInfo ZtsSs M) :=
    copyPaths_visits nativeSsToZtsSs behind peer pr (pathLimit M peer.pathCount)
  have hcount : (copyPeer nativeSsToZtsSs zero behind M peer).info.pathCount = peer.pathCount :=
    (hvisits _).2.2
  constructor
  · intro h
    have hc := h.count
    rw [hfilled, hcount] at hc
    omega
  · intro hfits
    obtain ⟨hn, hm⟩ := hfits
    have hlimit : pathLimit M peer.pathCount = peer.pathCount.toNat := by
      unfold pathLimit
      split <;> omega
    refine ⟨?_, ?_, ?_, ?_⟩
    · intro j hj
      rw [copyPeer, (hvisits _).1, hlimit, List.mem_range] at hj
      omega
    · intro j hj
      rw [copyPeer, (hvisits _).2.1, hlimit, List.mem_range] at hj
      omega
    · rw [hfilled, hcount, hlimit]
      omega
    · intro j hj
      rw [hcount] at hj
      have hjn : j < N := by omega
      have hjm : j < M := by omega
      refine ⟨hjm, hjn, ?_⟩
      rw [← hlimit] at hj
      rw [copyPeer, copyPaths_fills nativeSsToZtsSs behind peer _ hj hjm]
      simp [Peer.path, hjn]

/-- A peer of 65 paths against two arrays of 64: the copy stops at 64, and `path_count` is 65. -/
theorem count_past_arrays :
    ∃ (peer : Peer Unit 64),
      (copyPeer (fun _ => ()) ⟨(), 0, 0, 0, 0, 0, 0⟩ (fun _ => ⟨(), 0, 0, 0, 0, 0, 0⟩) 64
        peer).info.pathCount = 65 ∧
      (copyPeer (fun _ => ()) ⟨(), 0, 0, 0, 0, 0, 0⟩ (fun _ => ⟨(), 0, 0, 0, 0, 0, 0⟩) 64
        peer).filled 64 = 64 ∧
      ¬ Bounded (fun _ => ()) peer
        (copyPeer (fun _ => ()) ⟨(), 0, 0, 0, 0, 0, 0⟩ (fun _ => ⟨(), 0, 0, 0, 0, 0, 0⟩) 64
          peer) := by
  let peer : Peer Unit 64 := ⟨1, 1, 14, 0, 20, 0, 65, fun _ => ⟨(), 0, 0, 0, 0, 0, 0⟩⟩
  have hfilled := copyPeer_filled (M := 64) (fun _ => ()) ⟨(), 0, 0, 0, 0, 0, 0⟩
    (fun _ => ⟨(), 0, 0, 0, 0, 0, 0⟩) peer
  refine ⟨peer, rfl, hfilled, ?_⟩
  intro h
  have hc := h.count
  rw [hfilled] at hc
  exact absurd hc (by decide)

end SwitchLdnZt.Proofs.PeerCopy
