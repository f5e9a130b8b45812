import SwitchLdnZt.Library.Searching

namespace SwitchLdnZt.Library

/-- No occurrence of the word goes across the place between `p` and `q`. -/
def Whole (w p q : Text) : Prop :=
  ∀ w₁ w₂, w = w₁ ++ w₂ → w₁ <:+ p → w₂ <+: q → w₁ = [] ∨ w₂ = []

theorem Whole.side {w p q : Text} (h : Whole w p q) (ho : occurs w (p ++ q) = true) :
    occurs w p = true ∨ occurs w q = true := by
  obtain ⟨a, b, hab⟩ := occurs_iff.mp ho
  rcases Nat.le_total (a ++ w).length p.length with hle | hle
  · obtain ⟨t, rfl, rfl⟩ := append_split hab hle
    exact .inl (occurs_iff.mpr ⟨a, t, rfl⟩)
  rw [List.append_assoc] at hab
  rcases Nat.le_total p.length a.length with hpa | hap
  · obtain ⟨t, rfl, rfl⟩ := append_split hab.symm hpa
    exact .inr (occurs_iff.mpr ⟨t, b, by simp⟩)
  · -- the word begins before the place and ends behind it
    obtain ⟨w₁, rfl, hwb⟩ := append_split hab hap
    rw [List.length_append, List.length_append, Nat.add_le_add_iff_left] at hle
    obtain ⟨w₂, rfl, rfl⟩ := append_split hwb hle
    rcases h w₁ w₂ rfl (List.suffix_append a w₁) (List.prefix_append w₂ b) with rfl | rfl
    · exact .inr (occurs_iff.mpr ⟨[], b, by simp⟩)
    · exact .inl (occurs_iff.mpr ⟨a, [], by simp⟩)

theorem Whole.occurs {w p q : Text} (h : Whole w p q) (ho : occurs w (p ++ q) = true) (x : Text) :
    Library.occurs w (p ++ x ++ q) = true := by
  rcases h.side ho with hp | hq
  · have hocc := occurs_append hp [] (x ++ q)
    rwa [List.nil_append, ← List.append_assoc] at hocc
  · have hocc := occurs_append hq (p ++ x) []
    rwa [List.append_nil] at hocc

theorem Whole.of_last {w p : Text} {c : Char} (hp : p.getLast? = some c) (hc : c ∉ w) (q : Text) :
    Whole w p q := by
  intro w₁ w₂ hw h₁ _
  left
  by_contra hne
  obtain ⟨t, rfl⟩ := h₁
  rw [List.getLast?_append_of_ne_nil _ hne] at hp
  apply hc
  rw [hw]
  exact List.mem_append_left _ (List.mem_of_getLast? hp)

theorem Whole.mono {w p p' q q' : Text} (h : Whole w p q) (hp : p' <:+ p) (hq : q' <+: q) :
    Whole w p' q' :=
  fun w₁ w₂ hw h₁ h₂ => h w₁ w₂ hw (h₁.trans hp) (h₂.trans hq)

theorem Whole.of_start (w q : Text) : Whole w [] q := by
  intro w₁ w₂ _ h₁ _
  exact .inl (List.suffix_nil.mp h₁)

theorem Whole.of_ahead {w p q y : Text} (hy : y <+: q) (h : Apart w y) : Whole w p q := by
  intro w₁ w₂ hw _ h₂
  right
  by_contra hne
  obtain ⟨t, rfl⟩ := hy
  exact h.no_rest hne ⟨w₁, hw.symm⟩ h₂

/-- A word apart from what is put in is there only where it was before. -/
theorem Apart.occurs_between {w x : Text} (h : Apart w x) (p q : Text) :
    occurs w (p ++ x ++ q) = (occurs w p || occurs w q) := by
  rw [List.append_assoc]
  cases hp : cut w p with
  | none =>
    rw [occurs, h.cut_between hp q, Option.isSome_map]
    simp [occurs, hp]
  | some m =>
    rw [occurs, cut_append_right hp]
    simp [occurs, hp]

/-- An occurrence of a word apart from `z` is on one side of it. -/
theorem Apart.outside {w z a b u v : Text} (h : Apart w z) (htext : a ++ z ++ b = u ++ w ++ v) :
    (u ++ w).length ≤ a.length ∨ (a ++ z).length ≤ u.length := by
  by_contra hno
  rw [not_or, Nat.not_le, Nat.not_le] at hno
  obtain ⟨hright, hleft⟩ := hno
  rw [List.append_assoc, List.append_assoc] at htext
  rcases Nat.lt_or_ge u.length a.length with hua | hau
  · obtain ⟨t, rfl, hrest⟩ := append_split htext (Nat.le_of_lt hua)
    rw [List.length_append, List.length_append] at hright
    obtain ⟨n, rfl, hn⟩ := append_split hrest (by omega)
    have hne : n ≠ [] := by
      rintro rfl
      simp at hright
    exact h.no_rest hne (List.suffix_append t n) ⟨v, hn.symm⟩
  · obtain ⟨t, rfl, hrest⟩ := append_split htext.symm hau
    rw [List.length_append, List.length_append] at hleft
    obtain ⟨z', rfl, hz⟩ := append_split hrest (by omega)
    have hne : z' ≠ [] := by
      rintro rfl
      simp at hleft
    have hpre : w <+: z' ++ b := ⟨v, hz⟩
    rcases List.prefix_or_prefix_of_prefix hpre (List.prefix_append z' b) with hwz | hzw
    · exact h.notIn (hwz.isInfix.trans (List.suffix_append t z').isInfix)
    · exact h.notBehind z' hne (List.suffix_append t z') hzw

/-- A word apart from what is put in does not come about by that. -/
theorem Apart.absent {w x p q : Text} (h : Apart w x) (hno : occurs w (p ++ q) = false) :
    occurs w (p ++ x ++ q) = false := by
  rw [h.occurs_between, Bool.or_eq_false_iff]
  constructor
  · by_contra hp
    have hocc := occurs_append (eq_true_of_ne_false hp) [] q
    rw [List.nil_append, hno] at hocc
    cases hocc
  · by_contra hq
    have hocc := occurs_append (eq_true_of_ne_false hq) p []
    rw [List.append_nil, hno] at hocc
    cases hocc

/-- The first occurrence of a word in a text that it is not before and does not begin before. -/
theorem cut_within {w a z u v : Text} (ha : occurs w a = false) (hz : cut w z = some (u, v))
    (hover : overlaps w z = false) (b : Text) :
    cut w (a ++ z ++ b) = some (a ++ u, v ++ b) := by
  suffices h : cut w (a ++ z) = some (a ++ u, v) from cut_append_right h b
  induction a with
  | nil => exact hz
  | cons c a ih =>
    have hrest : occurs w a = false := by
      by_contra h
      have hocc := occurs_append (eq_true_of_ne_false h) [c] []
      rw [List.append_nil, List.singleton_append, ha] at hocc
      cases hocc
    have hno : ¬ w.isPrefixOf (c :: (a ++ z)) = true := by
      intro hp
      rw [List.isPrefixOf_iff_prefix] at hp
      have hin {t : Text} (ht : w <+: t) : occurs w t = true := by
        obtain ⟨r, rfl⟩ := ht
        exact occurs_iff.mpr ⟨[], r, rfl⟩
      rcases List.prefix_or_prefix_of_prefix hp (List.prefix_append (c :: a) z) with hwa | ⟨s, rfl⟩
      · rw [hin hwa] at ha
        cases ha
      · rcases List.eq_nil_or_concat s with rfl | ⟨t, d, hs⟩
        · rw [hin (by simp)] at ha
          cases ha
        · refine not_overlaps hover s (by simp [hs]) (List.suffix_append _ s) ?_
          rwa [← List.cons_append, List.prefix_append_right_inj] at hp
    rw [List.cons_append, cut, if_neg hno, ih hrest]
    rfl

/-- A word that does not end a text is in what comes before the end. -/
theorem occurs_init {w s : Text} {c : Char} (h : occurs w (s ++ [c]) = true) (hw : w ≠ [])
    (hc : c ∉ w) : occurs w s = true := by
  obtain ⟨a, b, hab⟩ := occurs_iff.mp h
  rcases List.eq_nil_or_concat b with rfl | ⟨b, d, rfl⟩
  · have hlast := congrArg List.getLast? hab
    rw [List.append_nil, List.getLast?_concat, List.getLast?_append_of_ne_nil _ hw] at hlast
    exact absurd (List.mem_of_getLast? hlast.symm) hc
  · rw [List.concat_eq_append, ← List.append_assoc] at hab
    exact occurs_iff.mpr ⟨a, b, (List.append_inj' hab rfl).1⟩

theorem closed_tail {e : Char} {x : Option (Text × Text)} {s b : Text}
    (h : x.map (fun (a, b) => (e :: a, b)) = some (e :: s, b)) : x = some (s, b) := by
  obtain ⟨⟨a', b'⟩, hs, he⟩ := Option.map_eq_some_iff.mp h
  cases he
  exact hs

theorem closing_text {o c : Char} {d : Nat} {s a b : Text} (h : closing o c d s = some (a, b)) :
    s = a ++ b ∧ closing o c d a = some (a, []) := by
  have onward {k : Nat} {e : Char} {s a b : Text}
      (ih : ∀ {a}, closing o c k s = some (a, b) → s = a ++ b ∧ closing o c k a = some (a, []))
      (h : (closing o c k s).map (fun (a, b) => (e :: a, b)) = some (a, b)) :
      ∃ a', a = e :: a' ∧ s = a' ++ b ∧ closing o c k a' = some (a', []) := by
    obtain ⟨⟨a', b'⟩, hs, he⟩ := Option.map_eq_some_iff.mp h
    cases he
    obtain ⟨hs, ha⟩ := ih hs
    exact ⟨a', rfl, hs, ha⟩
  induction s generalizing d a with
  | nil => cases h
  | cons e s ih =>
    unfold closing at h
    split at h
    next ho =>
      obtain ⟨a', rfl, rfl, ha⟩ := onward ih h
      exact ⟨rfl, by rw [closing, if_pos ho, ha, Option.map_some]⟩
    next ho =>
      split at h
      next hc =>
        split at h
        next hd =>
          cases h
          exact ⟨rfl, by rw [closing, if_neg ho, if_pos hc, if_pos hd]⟩
        next hd =>
          obtain ⟨a', rfl, rfl, ha⟩ := onward ih h
          exact ⟨rfl, by rw [closing, if_neg ho, if_pos hc, if_neg hd, ha, Option.map_some]⟩
      next hc =>
        obtain ⟨a', rfl, rfl, ha⟩ := onward ih h
        exact ⟨rfl, by rw [closing, if_neg ho, if_neg hc, ha, Option.map_some]⟩

/-- How many brackets more are open behind the text; none where it closes one that
it did not open. -/
def level (opener closer : Char) : Nat → Text → Option Nat
  | n, [] => some n
  | n, c :: cs =>
    if c = opener then level opener closer (n + 1) cs
    else if c = closer then
      match n with
      | 0 => none
      | n + 1 => level opener closer n cs
    else level opener closer n cs

theorem level_add {o c : Char} {n k : Nat} {x : Text} (h : level o c n x = some k) (j : Nat) :
    level o c (n + j) x = some (k + j) := by
  induction x generalizing n with
  | nil =>
    cases h
    rfl
  | cons e x ih =>
    unfold level at h ⊢
    split at h
    next ho =>
      rw [if_pos ho, Nat.add_right_comm]
      exact ih h
    next ho =>
      rw [if_neg ho]
      split at h
      next hc =>
        rw [if_pos hc]
        cases n with
        | zero => cases h
        | succ n =>
          rw [Nat.add_right_comm]
          exact ih h
      next hc =>
        rw [if_neg hc]
        exact ih h

theorem closing_level {o c : Char} {n k : Nat} {x : Text} (h : level o c n x = some k) (t : Text) :
    closing o c (n + 1) (x ++ t) = (closing o c (k + 1) t).map (fun m => (x ++ m.1, m.2)) := by
  induction x generalizing n with
  | nil =>
    cases h
    simp
  | cons e x ih =>
    rw [List.cons_append, closing]
    unfold level at h
    split at h
    next ho =>
      rw [if_pos ho, ih h, Option.map_map]
      rfl
    next ho =>
      rw [if_neg ho]
      split at h
      next hc =>
        rw [if_pos hc]
        cases n with
        | zero => cases h
        | succ n =>
          rw [if_neg (by omega), Nat.add_sub_cancel, ih h, Option.map_map]
          rfl
      next hc =>
        rw [if_neg hc, ih h, Option.map_map]
        rfl

/-- Before its last character a bracket is still open. -/
theorem level_of_closing {o c : Char} {n : Nat} {a₁ a₂ : Text} (hne : a₂ ≠ [])
    (h : closing o c (n + 1) (a₁ ++ a₂) = some (a₁ ++ a₂, [])) : ∃ k, level o c n a₁ = some k := by
  induction a₁ generalizing n with
  | nil => exact ⟨n, rfl⟩
  | cons e a₁ ih =>
    rw [List.cons_append, closing] at h
    unfold level
    split at h
    next ho =>
      rw [if_pos ho]
      exact ih (closed_tail h)
    next ho =>
      rw [if_neg ho]
      split at h
      next hc =>
        rw [if_pos hc]
        split at h
        next => simp [hne] at h
        next hd =>
          cases n with
          | zero => exact absurd rfl hd
          | succ n => exact ih (closed_tail h)
      next hc =>
        rw [if_neg hc]
        exact ih (closed_tail h)

/-- What opens as many brackets as it closes does not move the closing one. -/
theorem closing_insert {o c : Char} {d : Nat} {x a₁ a₂ : Text}
    (hx : ∀ n, level o c n x = some n) (hne : a₂ ≠ [])
    (h : closing o c (d + 1) (a₁ ++ a₂) = some (a₁ ++ a₂, [])) :
    closing o c (d + 1) (a₁ ++ x ++ a₂) = some (a₁ ++ x ++ a₂, []) := by
  obtain ⟨k, hk⟩ := level_of_closing hne h
  rw [closing_level hk] at h
  obtain ⟨⟨a, b⟩, ha, he⟩ := Option.map_eq_some_iff.mp h
  simp only [Prod.mk.injEq, List.append_cancel_left_eq] at he
  obtain ⟨rfl, rfl⟩ := he
  rw [List.append_assoc, closing_level hk, closing_level (hx k), ha]
  rfl

theorem closing_behind {o c : Char} {d : Nat} {a : Text} (h : closing o c d a = some (a, []))
    (t : Text) : closing o c d (a ++ t) = some (a, t) := by
  induction a generalizing d with
  | nil => cases h
  | cons e a ih =>
    rw [List.cons_append]
    unfold closing at h ⊢
    split at h
    next ho => rw [if_pos ho, ih (closed_tail h), Option.map_some]
    next ho =>
      rw [if_neg ho]
      split at h
      next hc =>
        rw [if_pos hc]
        split at h
        next hd =>
          cases h
          rw [if_pos hd]
          rfl
        next hd => rw [if_neg hd, ih (closed_tail h), Option.map_some]
      next hc => rw [if_neg hc, ih (closed_tail h), Option.map_some]

/-- Nor is the closing one in such a text. -/
theorem closing_outside {o c : Char} {d k : Nat} {a x₁ x₂ : Text}
    (hx : level o c 0 (x₁ ++ x₂) = some k)
    (h : closing o c (d + 1) (a ++ x₁) = some (a ++ x₁, [])) : x₁ = [] := by
  by_contra hne
  obtain ⟨j, hj⟩ := level_of_closing hne h
  rw [closing_level hj] at h
  obtain ⟨⟨a', b'⟩, hx₁, he⟩ := Option.map_eq_some_iff.mp h
  simp only [Prod.mk.injEq, List.append_cancel_left_eq] at he
  obtain ⟨rfl, rfl⟩ := he
  have hopen := closing_level (level_add hx j) []
  rw [List.append_nil, Nat.zero_add, closing_behind hx₁] at hopen
  cases hopen

/-- The loop over indices stops where the loop over the text does. -/
theorem closeLoop_eq {o c : Char} {d : Nat} (hd : 1 ≤ d) (i : Nat) (s : Text) :
    closeLoop o c d i s = (closing o c d s).map (fun m => i + m.1.length - 1) := by
  have onward (i k : Nat) {e : Char} {s : Text} :
      (closing o c k s).map (fun m => i + 1 + m.1.length - 1) =
        ((closing o c k s).map (fun (a, b) => (e :: a, b))).map (fun m => i + m.1.length - 1) := by
    rw [Option.map_map]
    congr 1
    funext m
    simp only [Function.comp_apply, List.length_cons]
    omega
  induction s generalizing d i with
  | nil => rfl
  | cons e s ih =>
    rw [closeLoop, closing]
    split
    · rw [← onward, ← ih (by omega)]
      rfl
    · split
      · split
        next h0 =>
          rw [if_pos (by omega)]
          simp
        next h0 =>
          have hcast : ((d : Int) - 1) = ((d - 1 : Nat) : Int) := by omega
          rw [if_neg (by omega), hcast, ih (by omega), onward]
      · rw [← onward, ih hd]

theorem closing_last {o c : Char} {d : Nat} {s a b : Text} (h : closing o c d s = some (a, b)) :
    ∃ a₀, a = a₀ ++ [c] := by
  induction s generalizing d a with
  | nil => cases h
  | cons e s ih =>
    have onward {k : Nat} (h : (closing o c k s).map (fun (a, b) => (e :: a, b)) = some (a, b)) :
        ∃ a₀, a = a₀ ++ [c] := by
      obtain ⟨⟨a', b'⟩, hs, he⟩ := Option.map_eq_some_iff.mp h
      cases he
      obtain ⟨a₀, rfl⟩ := ih hs
      exact ⟨e :: a₀, rfl⟩
    unfold closing at h
    split at h
    · exact onward h
    · split at h
      next hc =>
        split at h
        · cases h
          exact ⟨[], by rw [hc]; rfl⟩
        · exact onward h
      next => exact onward h

/-- The first place of a character, and what stands before it. -/
theorem cut_char {c : Char} {u : Text} (hu : c ∉ u) (v : Text) :
    cut [c] (u ++ c :: v) = some (u, v) := by
  induction u with
  | nil => simp [cut]
  | cons d u ih =>
    rw [List.mem_cons, not_or] at hu
    rw [List.cons_append, cut, if_neg (by simp [hu.1]), ih hu.2]
    rfl

theorem cut_char_spec {c : Char} {s u v : Text} (h : cut [c] s = some (u, v)) :
    s = u ++ c :: v ∧ c ∉ u := by
  have hs : s = u ++ c :: v := by simpa using cut_eq h
  refine ⟨hs, ?_⟩
  intro hm
  obtain ⟨a, b, rfl, ha⟩ := List.eq_append_cons_of_mem hm
  rw [hs, List.append_assoc, List.cons_append, cut_char ha] at h
  have hlen := congrArg (fun m => m.map (fun n => n.1.length)) h
  simp at hlen

theorem find_from {needle u v : Text} :
    find needle (u ++ v) (u.length : Nat) =
      match cut needle v with
      | some (a, _) => ((u.length + a.length : Nat) : Int)
      | none => -1 := by
  rw [find, if_neg (by omega), Int.toNat_natCast, List.drop_left]
  cases cut needle v with
  | none => rfl
  | some m => simp

/-- What is found is not before the place the search began at. -/
theorem find_ge {needle s : Text} {start : Int} (hs : 0 ≤ start) (h : 0 ≤ find needle s start) :
    start ≤ find needle s start := by
  unfold find at h ⊢
  rw [if_neg (by omega)] at h ⊢
  dsimp only at h ⊢
  split
  · omega
  next hnone =>
    rw [hnone] at h
    cases h

theorem closeLoop_ge {o c : Char} {depth : Int} {i k : Nat} {s : Text}
    (h : closeLoop o c depth i s = some k) : i ≤ k := by
  induction s generalizing depth i with
  | nil => cases h
  | cons d s ih =>
    unfold closeLoop at h
    split at h
    · exact Nat.le_of_succ_le (ih h)
    · split at h
      · split at h
        · cases h
          exact Nat.le_refl _
        · exact Nat.le_of_succ_le (ih h)
      · exact Nat.le_of_succ_le (ih h)

theorem closeFrom_ge {o c : Char} {s : Text} {start : Int} {k : Nat} (hs : 0 ≤ start)
    (h : closeFrom o c s start = some k) : start ≤ k := by
  rw [closeFrom, if_pos hs] at h
  have := closeLoop_ge h
  omega

theorem lineStart_le (s : Text) (pos : Nat) : lineStart s pos ≤ pos := by
  have := List.length_take_le pos s
  unfold lineStart
  omega

/-- A text is what stands before, in and behind one of its slices. -/
theorem slice_split (s : Text) {i : Nat} {j : Int} (h : i ≤ j) :
    s.take i ++ (slice s i j ++ s.drop j.toNat) = s := by
  have htake : s.take i = (s.take j.toNat).take i := by
    rw [List.take_take, Nat.min_eq_left (by omega)]
  rw [slice, Int.toNat_natCast, ← List.append_assoc, htake, List.take_append_drop,
    List.take_append_drop]

theorem find_char {c : Char} {s : Text} {k : Nat} (h : c ∈ s.drop k) : 0 ≤ find [c] s k := by
  obtain ⟨a, b, hab⟩ := List.append_of_mem h
  have hocc : occurs [c] (s.drop k) = true := occurs_iff.mpr ⟨a, b, by rw [hab]; simp⟩
  obtain ⟨⟨a', b'⟩, hcut⟩ := Option.isSome_iff_exists.mp hocc
  have hk : ¬ (k : Int) < 0 := by omega
  simp only [find, if_neg hk, Int.toNat_natCast, hcut]
  omega

theorem find_char_at {c : Char} {y : Text} (hy : c ∉ y) (u z : Text) :
    find [c] (u ++ (y ++ c :: z)) (u.length : Nat) = ((u ++ y).length : Nat) := by
  rw [find_from, cut_char hy, List.length_append]

/-- A line starts at the text's start or behind a line end, and goes on in one line. -/
theorem lineStart_split (s : Text) (pos : Nat) : ∃ u line, s.take pos = u ++ line ∧
    lineStart s pos = u.length ∧ '\n' ∉ line ∧ (u = [] ∨ u.getLast? = some '\n') := by
  have hsplit : ((s.take pos).reverse.dropWhile (· ≠ '\n')).reverse ++
      ((s.take pos).reverse.takeWhile (· ≠ '\n')).reverse = s.take pos := by
    rw [← List.reverse_append, List.takeWhile_append_dropWhile, List.reverse_reverse]
  refine ⟨_, _, hsplit.symm, ?_, ?_, ?_⟩
  · have hlen := congrArg List.length hsplit
    rw [List.length_append, List.length_reverse, List.length_reverse] at hlen
    rw [lineStart, List.length_reverse]
    omega
  · intro hm
    have hall := List.all_eq_true.mp List.all_takeWhile '\n' (List.mem_reverse.mp hm)
    exact absurd hall (by decide)
  · have hlast := List.head?_dropWhile_not (· ≠ '\n') (s.take pos).reverse
    rw [List.reverse_eq_nil_iff, List.getLast?_reverse]
    cases hd : (s.take pos).reverse.dropWhile (· ≠ '\n') with
    | nil => exact .inl rfl
    | cons c cs =>
      rw [hd] at hlast
      exact .inr (by simpa using hlast)

theorem lineStart_last (s : Text) (pos : Nat) :
    s.take (lineStart s pos) = [] ∨ (s.take (lineStart s pos)).getLast? = some '\n' := by
  obtain ⟨u, line, hs, hlen, -, hu⟩ := lineStart_split s pos
  have htake : s.take (lineStart s pos) = u := by
    rw [hlen, ← List.take_append_drop pos s, hs, List.append_assoc, List.take_left]
  rw [htake]
  exact hu

theorem slice_middle (u v w : Text) : slice (u ++ v ++ w) u.length (u ++ v).length = v := by
  rw [slice, Int.toNat_natCast, Int.toNat_natCast, List.take_left, List.drop_left]

/-- What is found stands there. -/
theorem find_spec {needle s : Text} (hne : needle ≠ []) {start : Int}
    (h : 0 ≤ find needle s start) :
    ∃ u v, s = u ++ needle ++ v ∧ find needle s start = u.length := by
  unfold find at h ⊢
  generalize (if start < 0 then start + s.length else start).toNat = i at h ⊢
  dsimp only at h ⊢
  split
  next a b hcut =>
    have hs := cut_eq hcut
    refine ⟨s.take i ++ a, b, ?_, ?_⟩
    · rw [List.append_assoc, List.append_assoc, ← List.append_assoc a, ← hs,
        List.take_append_drop]
    · have hlen := congrArg List.length hs
      have hpos := List.length_pos_iff.mpr hne
      simp only [List.length_append, List.length_drop] at hlen
      rw [List.length_append, List.length_take]
      omega
  next hnone =>
    rw [hnone] at h
    exact absurd (show (0 : Int) ≤ -1 from h) (by decide)

/-- The text up to the end of what is found. -/
theorem find_take {needle s : Text} (hne : needle ≠ []) {start k : Int}
    (h : find needle s start = k) (hk : 0 ≤ k) :
    ∃ u v, s = u ++ needle ++ v ∧ k = u.length ∧
      s.take (k + needle.length).toNat = u ++ needle := by
  subst h
  obtain ⟨u, v, hs, hlen⟩ := find_spec hne hk
  refine ⟨u, v, hs, hlen, ?_⟩
  have hnat : (find needle s start + needle.length).toNat = (u ++ needle).length := by
    rw [hlen, List.length_append]
    rfl
  rw [hnat, hs, List.take_left]

end SwitchLdnZt.Library
