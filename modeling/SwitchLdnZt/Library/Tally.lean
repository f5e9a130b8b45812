import Mathlib.Algebra.BigOperators.Group.List.Basic
import Mathlib.Algebra.GroupWithZero.Nat

namespace SwitchLdnZt.Library

variable {α ι : Type}

/-- How many steps of a kind a straight-line program has behind it. -/
def executed (p : ι → Bool) (whole left : List ι) : Nat := whole.countP p - left.countP p

@[simp] theorem executed_self (p : ι → Bool) (whole : List ι) : executed p whole whole = 0 :=
  Nat.sub_self _

theorem executed_cons {p : ι → Bool} {whole left : List ι} {x : ι} (h : x :: left <:+ whole) :
    executed p whole left = executed p whole (x :: left) + if p x then 1 else 0 := by
  have hle := h.sublist.countP_le (p := p)
  unfold executed
  rw [List.countP_cons] at hle ⊢
  split at hle
  next hx =>
    simp only [hx, ↓reduceIte] at hle ⊢
    omega
  next hx =>
    simp only [hx, Bool.false_eq_true, ↓reduceIte] at hle ⊢
    omega

/-- A sum over a pool, when one of its members moves on. -/
theorem sum_map_set (f : α → Nat) {l : List α} {i : Nat} {a : α} (h : l[i]? = some a) (b : α) :
    ((l.set i b).map f).sum + f a = (l.map f).sum + f b := by
  induction l generalizing i with
  | nil => cases h
  | cons c l ih =>
    cases i with
    | zero =>
      cases h
      simp only [List.set_cons_zero, List.map_cons, List.sum_cons]
      omega
    | succ i =>
      have := ih (i := i) h
      simp only [List.set_cons_succ, List.map_cons, List.sum_cons]
      omega

theorem sum_map_toNat (p : α → Bool) (l : List α) :
    (l.map (fun a => (p a).toNat)).sum = l.countP p := by
  induction l with
  | nil => rfl
  | cons a l ih =>
    rw [List.map_cons, List.sum_cons, List.countP_cons, ih]
    cases p a <;> simp [Nat.add_comm]

/-- What holds of each member's share holds of the sums. -/
theorem sum_map_congr {f g : α → Nat} {l : List α} (h : ∀ a ∈ l, f a = g a) :
    (l.map f).sum = (l.map g).sum := by
  rw [List.map_congr_left h]

end SwitchLdnZt.Library
