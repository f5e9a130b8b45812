import Mathlib.Data.List.Destutter

namespace SwitchLdnZt.Library

variable {α β : Type} [DecidableEq α]

/-- The members of a sequence at which `f` differs from what it was before. -/
def changesBy (f : β → α) (a : α) : List β → List β
  | [] => []
  | x :: l => if a = f x then changesBy f a l else x :: changesBy f (f x) l

/-- Whoever keeps the last value knows whether the next one is a change. -/
theorem changesBy_snoc (f : β → α) (a : α) (l : List β) (x : β) :
    changesBy f a (l ++ [x]) = changesBy f a l ++
      if (a :: l.map f).getLast (List.cons_ne_nil a _) = f x then [] else [x] := by
  induction l generalizing a with
  | nil =>
    rw [List.nil_append, changesBy]
    rfl
  | cons y l ih =>
    simp only [List.cons_append, changesBy, List.map_cons,
      List.getLast_cons (List.cons_ne_nil (f y) (l.map f))]
    split
    next h =>
      rw [h]
      exact ih (f y)
    next => rw [ih (f y), List.cons_append]

end SwitchLdnZt.Library
