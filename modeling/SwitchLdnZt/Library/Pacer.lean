import Mathlib.Data.List.Chain

namespace SwitchLdnZt.Library

/-- Something done again once a period has gone by since it was done last, asked at the
times that a loop happens to come round. -/
structure Pacer where
  last : Int
  fired : List Int

def Pacer.tick (period : Int) (p : Pacer) (now : Int) : Pacer :=
  if now - p.last ≥ period then ⟨now, p.fired ++ [now]⟩ else p

def Pacer.over (period : Int) (readings : List Int) : Pacer :=
  readings.foldl (Pacer.tick period) ⟨0, []⟩

/-- Each time is a period or more behind the one before, counted from zero, and less than
a period and a gap. -/
def Regular (period gap : Int) (times : List Int) : Prop :=
  (0 :: times).IsChain (fun x y => x + period ≤ y ∧ y < x + period + gap)

variable {period gap : Int}

theorem Pacer.over_snoc (readings : List Int) (now : Int) :
    Pacer.over period (readings ++ [now]) = (Pacer.over period readings).tick period now := by
  rw [Pacer.over, List.foldl_append]
  rfl

/-- Nothing overdue is left undone when a pass is over. -/
theorem Pacer.tick_due (hp : 0 < period) (p : Pacer) (now : Int) :
    now - (p.tick period now).last < period := by
  unfold Pacer.tick
  split
  next =>
    dsimp only
    omega
  next hdue => omega

/-- What holds of the times when the clock was last read at `now`. -/
structure Pacer.Inv (period gap : Int) (p : Pacer) (now : Int) : Prop where
  regular : Regular period gap p.fired
  last : p.last = (0 :: p.fired).getLast (List.cons_ne_nil _ _)
  due : now - p.last < period

theorem Pacer.Inv.tick {p : Pacer} {before now : Int} (h : p.Inv period gap before)
    (hp : 0 < period) (hgap : now ≤ before + gap) : (p.tick period now).Inv period gap now := by
  have hdue := Pacer.tick_due hp p now
  by_cases hfire : now - p.last ≥ period
  · rw [Pacer.tick, if_pos hfire] at hdue ⊢
    refine ⟨?_, ?_, hdue⟩
    · unfold Regular
      rw [← List.cons_append, List.isChain_append]
      refine ⟨h.regular, .singleton now, ?_⟩
      intro x hx y hy
      cases hy
      rw [List.getLast?_eq_some_getLast (List.cons_ne_nil _ _), ← h.last] at hx
      cases hx
      have := h.due
      omega
    · exact (List.getLast_append_singleton (0 :: p.fired)).symm
  · rw [Pacer.tick, if_neg hfire] at hdue ⊢
    exact ⟨h.regular, h.last, hdue⟩

end SwitchLdnZt.Library
