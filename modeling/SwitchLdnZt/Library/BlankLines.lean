import SwitchLdnZt.Library.Insertion

namespace SwitchLdnZt.Library.Preprocess
open CTokens

variable {name : Text} (m : Macros name)

/-- Two scans that leave the lexer at one point behind what one kept more than the other. -/
structure Level (st st' : Scan) : Prop where
  branches : st'.branches = st.branches
  kept : ∃ x x' z, read (.between, []) x' = read (.between, []) x ∧ st.kept = x ++ z ∧
    st'.kept = x' ++ z

theorem Level.refl (st : Scan) : Level st st := ⟨rfl, [], [], st.kept, rfl, rfl, rfl⟩

theorem Level.tokens {st st' : Scan} (h : Level st st') :
    CTokens.tokens st'.kept = CTokens.tokens st.kept := by
  obtain ⟨x, x', z, hx, hk, hk'⟩ := h.kept
  simp only [CTokens.tokens, hk, hk', read_append, hx]

theorem Level.turn {st st' : Scan} (h : Level st st') (cond : Option Cond) :
    Level (st.turn m cond) (st'.turn m cond) := by
  have htokens := h.tokens
  unfold Scan.turn
  rw [h.branches]
  split
  · exact h
  · exact ⟨by simp [htokens], h.kept⟩
  · exact ⟨rfl, h.kept⟩

theorem Level.line {st st' : Scan} (h : Level st st') (l : Text) :
    Level (st.line m l) (st'.line m l) := by
  have htokens := h.tokens
  have hactive : st'.active = st.active := by rw [Scan.active, Scan.active, h.branches]
  unfold Scan.line
  split
  · exact ⟨by simp [htokens, hactive, h.branches], h.kept⟩
  · exact h.turn m _
  · exact h.turn m _
  · exact ⟨by simp [h.branches], h.kept⟩
  · rw [hactive]
    split
    · obtain ⟨x, x', z, hx, hk, hk'⟩ := h.kept
      exact ⟨h.branches, x, x', z ++ (l ++ ['\n']), hx, by simp [hk], by simp [hk']⟩
    · exact h

theorem Level.scan {st st' : Scan} (h : Level st st') (s : Text) :
    Level (scan m st s) (scan m st' s) := by
  unfold Preprocess.scan
  induction s.splitOn '\n' generalizing st st' with
  | nil => exact h
  | cons l ls ih => exact ih (h.line m l)

end SwitchLdnZt.Library.Preprocess
