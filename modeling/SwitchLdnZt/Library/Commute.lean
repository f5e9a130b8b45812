import SwitchLdnZt.Library.Splice

namespace SwitchLdnZt.Library

variable {x y n m s t a b : Text}

theorem Apart.symm (h : Apart n x) : Apart x n :=
  ⟨h.notOver, h.notIn, h.notBehind, h.notAhead⟩

/-- Two occurrences of the text cannot share a character. -/
def Solid (y : Text) : Prop := ∀ u, u ≠ [] → u <:+ y.tail → ¬ u <+: y

theorem Solid.of (h : overlaps y.tail y = false) : Solid y := not_overlaps h

/-- Where nothing of it comes before, a text is found at its one place. -/
theorem Solid.cut (h : Solid y) (ha : occurs y a = false) (b : Text) :
    Library.cut y (a ++ y ++ b) = some (a, b) := by
  obtain ⟨a', b', hcut, hle⟩ := cut_append y a b
  have heq := cut_eq hcut
  rw [List.append_assoc, List.append_assoc] at heq
  obtain ⟨r, rfl, hrest⟩ := append_split heq hle
  cases r with
  | nil =>
    rw [List.nil_append, List.append_cancel_left_eq] at hrest
    rw [hcut, List.append_nil, hrest]
  | cons c r =>
    exfalso
    rcases Nat.le_total y.length (c :: r).length with hlong | hshort
    · -- the earlier one is in what comes before
      obtain ⟨r', hr, -⟩ := append_split hrest.symm hlong
      rw [hr, ← List.append_assoc] at ha
      have hocc : occurs y (a' ++ y ++ r') = true := occurs_iff.mpr ⟨a', r', rfl⟩
      rw [hocc] at ha
      cases ha
    · obtain ⟨y', rfl, hy⟩ := append_split hrest hshort
      by_cases hy' : y' = []
      · rw [hy', List.append_nil] at ha
        have hocc : occurs (c :: r) (a' ++ (c :: r)) = true := occurs_iff.mpr ⟨a', [], by simp⟩
        rw [hocc] at ha
        cases ha
      · apply h y' hy' (List.suffix_append r y')
        refine List.prefix_of_prefix_length_le ⟨b', hy.symm⟩ (List.prefix_append _ b) ?_
        simp only [List.length_append]
        omega

theorem occurs_false {a : Text} : occurs n a = false ↔ cut n a = none := by
  rw [occurs, Option.isSome_eq_false_iff, Option.isNone_iff_eq_none]

theorem replaceFirst_none (h : cut n t = none) : replaceFirst n m t = t := by
  rw [replaceFirst, h]

theorem replaceFirst_some (h : cut n t = some (a, b)) : replaceFirst n m t = a ++ m ++ b := by
  rw [replaceFirst, h]

/-- A replacement and its inverse, where what goes in was nowhere. -/
theorem replaceFirst_back_again (hy : Solid y) (hx : occurs x t = true)
    (hno : occurs y t = false) : replaceFirst y x (replaceFirst x y t) = t := by
  obtain ⟨⟨a, b⟩, hcut⟩ := Option.isSome_iff_exists.mp hx
  have ha : occurs y a = false := by
    by_contra h
    have hocc := occurs_append (eq_true_of_ne_false h) [] (x ++ b)
    rw [List.nil_append, ← List.append_assoc, ← cut_eq hcut, hno] at hocc
    cases hocc
  rw [replaceFirst_some hcut, replaceFirst_some (hy.cut ha b), ← cut_eq hcut]

theorem Swapped.clean {ys : List Text} {t t' : Text} {c : Char} (h : Swapped ys t t')
    (hys : ∀ y ∈ ys, c ∉ y) (ht : c ∉ t) : c ∉ t' := by
  induction h with
  | nil => exact ht
  | char d _ ih =>
    rw [List.mem_cons, not_or] at ht ⊢
    exact ⟨ht.1, ih ht.2⟩
  | swap _ hy' _ ih =>
    rw [List.mem_append, not_or] at ht ⊢
    exact ⟨hys _ hy', ih ht.2⟩

/-- `z` goes in behind the first `c` from the first `w` on. -/
def insertBehind (w : Text) (c : Char) (z s : Text) : Option Text :=
  match cut w s with
  | none => none
  | some (a, b) =>
    match cut [c] (w ++ b) with
    | none => none
    | some (u, v) => some (a ++ u ++ (c :: z) ++ v)

/-- The text in front of that place. -/
def Site (w : Text) (c : Char) (p : Text) : Prop := ∃ a u, cut w p = some (a, u) ∧ c ∉ u

variable {w z r : Text} {c : Char}

theorem Site.insert (hw : c ∉ w) {p : Text} (h : Site w c p) (v : Text) :
    insertBehind w c z (p ++ [c] ++ v) = some (p ++ (c :: z) ++ v) := by
  obtain ⟨a, u, hcut, hu⟩ := h
  have hwhole := cut_append_right hcut ([c] ++ v)
  have hbrace : cut [c] (w ++ (u ++ ([c] ++ v))) = some (w ++ u, v) := by
    rw [← List.append_assoc]
    exact cut_char (by simp [hw, hu]) v
  rw [← List.append_assoc] at hwhole
  rw [insertBehind, hwhole]
  dsimp only
  rw [hbrace, cut_eq hcut]
  simp only [List.append_assoc]

end SwitchLdnZt.Library
