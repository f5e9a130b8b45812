import Mathlib.Logic.Relation
import Mathlib.Data.List.Infix
import SwitchLdnZt.Library.PyText

namespace SwitchLdnZt.Library

/-- A stretch at the end of `x` begins `y`. -/
def overlaps (x y : Text) : Bool := x.tails.any (fun s => !s.isEmpty && s.isPrefixOf y)

/-- No occurrence of `n` can share a character with an occurrence of `x`. -/
def apart (n x : Text) : Bool := !occurs n x && !occurs x n && !overlaps n x && !overlaps x n

/-- `t'` is `t` with some stretches that are in `ys` exchanged for others in `ys`. -/
inductive Swapped (ys : List Text) : Text → Text → Prop
  | nil : Swapped ys [] []
  | char {t t' : Text} (c : Char) : Swapped ys t t' → Swapped ys (c :: t) (c :: t')
  | swap {t t' x y : Text} : x ∈ ys → y ∈ ys → Swapped ys t t' → Swapped ys (x ++ t) (y ++ t')

variable {ys : List Text}

theorem Swapped.refl (t : Text) : Swapped ys t t := by
  induction t with
  | nil => exact .nil
  | cons c t ih => exact .char c ih

theorem Swapped.symm {t t' : Text} (h : Swapped ys t t') : Swapped ys t' t := by
  induction h with
  | nil => exact .nil
  | char c _ ih => exact .char c ih
  | swap hx hy _ ih => exact .swap hy hx ih

theorem Swapped.append {s s' t t' : Text} (h : Swapped ys s s') (h' : Swapped ys t t') :
    Swapped ys (s ++ t) (s' ++ t') := by
  induction h with
  | nil => exact h'
  | char c _ ih => exact .char c ih
  | swap hx hy _ ih =>
    rw [List.append_assoc, List.append_assoc]
    exact .swap hx hy ih

theorem Swapped.mono {zs : List Text} {t t' : Text} (h : Swapped ys t t') (hs : ys ⊆ zs) :
    Swapped zs t t' := by
  induction h with
  | nil => exact .nil
  | char c _ ih => exact .char c ih
  | swap hx hy _ ih => exact .swap (hs hx) (hs hy) ih

structure Apart (n x : Text) : Prop where
  notIn : ¬ n <:+: x
  notOver : ¬ x <:+: n
  notAhead : ∀ s, s ≠ [] → s <:+ n → ¬ s <+: x
  notBehind : ∀ s, s ≠ [] → s <:+ x → ¬ s <+: n

theorem occurs_iff_within {old s : Text} : occurs old s = true ↔ old <:+: s := by
  rw [occurs_iff]
  constructor
  · intro h
    rcases h with ⟨a, b, rfl⟩
    exact ⟨a, b, rfl⟩
  · intro h
    rcases h with ⟨a, b, rfl⟩
    exact ⟨a, b, rfl⟩

theorem not_overlaps {x y : Text} (h : overlaps x y = false) :
    ∀ s, s ≠ [] → s <:+ x → ¬ s <+: y := by
  intro s hs hx hy
  have hall := List.any_eq_false.mp h s ((List.mem_tails s x).mpr hx)
  apply hall
  simp [List.isPrefixOf_iff_prefix.mpr hy, hs]

theorem Apart.of_apart {n x : Text} (h : apart n x = true) : Apart n x := by
  simp only [apart, Bool.and_eq_true, Bool.not_eq_true'] at h
  obtain ⟨⟨⟨hin, hover⟩, hahead⟩, hbehind⟩ := h
  refine ⟨?_, ?_, not_overlaps hahead, not_overlaps hbehind⟩
  · intro hi
    rw [occurs_iff_within.mpr hi] at hin
    cases hin
  · intro hi
    rw [occurs_iff_within.mpr hi] at hover
    cases hover

theorem Apart.ne_nil {n x : Text} (h : Apart n x) : n ≠ [] := by
  intro he
  cases he
  exact h.notIn List.nil_infix

/-- What is left of `n` cannot begin at an occurrence of `x`. -/
theorem Apart.no_rest {n x p t : Text} (h : Apart n x) (hp : p ≠ []) (hs : p <:+ n) :
    ¬ p <+: x ++ t := by
  intro hpre
  rcases List.prefix_or_prefix_of_prefix hpre (List.prefix_append x t) with hpx | hxp
  · exact h.notAhead p hp hs hpx
  · exact h.notOver (hxp.isInfix.trans hs.isInfix)

/-- No occurrence of `n` begins within `x`. -/
theorem Apart.cut_append {n x : Text} (h : Apart n x) (t : Text) :
    cut n (x ++ t) = (cut n t).map (fun (a, b) => (x ++ a, b)) := by
  suffices hsuff : ∀ y, y <:+ x → cut n (y ++ t) = (cut n t).map (fun (a, b) => (y ++ a, b)) from
    hsuff x List.suffix_rfl
  intro y hy
  induction y with
  | nil => simp
  | cons c y ih =>
    have hno : ¬ n.isPrefixOf (c :: (y ++ t)) = true := by
      intro hp
      have hp' : n <+: (c :: y) ++ t := List.isPrefixOf_iff_prefix.mp hp
      rcases List.prefix_or_prefix_of_prefix hp' (List.prefix_append (c :: y) t) with hny | hyn
      · exact h.notIn (hny.isInfix.trans hy.isInfix)
      · exact h.notBehind (c :: y) (by simp) hy hyn
    rw [List.cons_append, cut, if_neg hno, ih ((List.suffix_cons c y).trans hy), Option.map_map]
    rfl

theorem cut_nil {n : Text} (h : n ≠ []) : cut n [] = none := by
  cases n with
  | nil => exact absurd rfl h
  | cons c n => simp [cut]

/-- Where the rest of `n` stands in the one text it stands in the other. -/
theorem Swapped.strip {n p t t' v : Text} (h : Swapped ys t t') (hy : ∀ y ∈ ys, Apart n y)
    (hp : p <:+ n) (ht : t = p ++ v) : ∃ v', t' = p ++ v' ∧ Swapped ys v v' := by
  induction p generalizing t t' with
  | nil =>
    subst ht
    exact ⟨t', rfl, h⟩
  | cons c p ih =>
    cases h with
    | nil => cases ht
    | char d h =>
      rw [List.cons_append, List.cons.injEq] at ht
      obtain ⟨rfl, ht⟩ := ht
      obtain ⟨v', rfl, hv⟩ := ih h ((List.suffix_cons d p).trans hp) ht
      exact ⟨v', rfl, hv⟩
    | swap hx hy' h =>
      exact absurd ⟨v, ht.symm⟩ ((hy _ hx).no_rest (by simp) hp)

/-- The first occurrence of a text apart from all that is swapped is in the same
place of both texts. -/
theorem Swapped.cut {n t t' : Text} (h : Swapped ys t t') (hn : n ≠ [])
    (hy : ∀ y ∈ ys, Apart n y) :
    (Library.cut n t = none ∧ Library.cut n t' = none) ∨
    ∃ a b a' b', Library.cut n t = some (a, b) ∧ Library.cut n t' = some (a', b') ∧
      Swapped ys a a' ∧ Swapped ys b b' := by
  induction h with
  | nil => exact .inl ⟨cut_nil hn, cut_nil hn⟩
  | @char t t' c h ih =>
    have moves {s s' : Text} (hs : Swapped ys s s') (hpre : n.isPrefixOf s = true) :
        n.isPrefixOf s' = true ∧ Swapped ys (s.drop n.length) (s'.drop n.length) := by
      obtain ⟨v', rfl, hv⟩ := hs.strip hy List.suffix_rfl (isPrefixOf_eq hpre)
      refine ⟨List.isPrefixOf_iff_prefix.mpr (List.prefix_append n v'), ?_⟩
      rwa [List.drop_left]
    by_cases hpre : n.isPrefixOf (c :: t) = true
    · obtain ⟨hpre', hdrop⟩ := moves (.char c h) hpre
      refine .inr ⟨[], _, [], _, ?_, ?_, .nil, hdrop⟩
      · rw [Library.cut, if_pos hpre]
      · rw [Library.cut, if_pos hpre']
    · have hpre' : ¬ n.isPrefixOf (c :: t') = true :=
        fun hp => hpre (moves (Swapped.char c h).symm hp).1
      rw [Library.cut, if_neg hpre, Library.cut, if_neg hpre']
      rcases ih with ⟨h₁, h₂⟩ | ⟨a, b, a', b', h₁, h₂, ha, hb⟩
      · exact .inl ⟨by rw [h₁, Option.map_none], by rw [h₂, Option.map_none]⟩
      · exact .inr ⟨c :: a, b, c :: a', b', by rw [h₁, Option.map_some],
          by rw [h₂, Option.map_some], .char c ha, hb⟩
  | @swap t t' x y hx hy' h ih =>
    rw [(hy x hx).cut_append, (hy y hy').cut_append]
    rcases ih with ⟨h₁, h₂⟩ | ⟨a, b, a', b', h₁, h₂, ha, hb⟩
    · exact .inl ⟨by rw [h₁, Option.map_none], by rw [h₂, Option.map_none]⟩
    · exact .inr ⟨x ++ a, b, y ++ a', b', by rw [h₁, Option.map_some],
        by rw [h₂, Option.map_some], .swap hx hy' ha, hb⟩

theorem Swapped.occurs {n t t' : Text} (h : Swapped ys t t') (hn : n ≠ [])
    (hy : ∀ y ∈ ys, Apart n y) : Library.occurs n t = Library.occurs n t' := by
  unfold Library.occurs
  rcases h.cut hn hy with ⟨h₁, h₂⟩ | ⟨a, b, a', b', h₁, h₂, -, -⟩
  · rw [h₁, h₂]
  · rw [h₁, h₂, Option.isSome_some, Option.isSome_some]

/-- Behind the characters that belong to an occurrence the count goes on. -/
theorem pieces_skip (n x b : Text) : pieces n x.length (x ++ b) = pieces n 0 b := by
  induction x with
  | nil => rfl
  | cons c x ih =>
    rw [List.length_cons, List.cons_append, pieces]
    exact ih

theorem pieces_none {n t : Text} (h : Library.cut n t = none) : pieces n 0 t = (t, []) := by
  induction t with
  | nil => rfl
  | cons c t ih =>
    unfold Library.cut at h
    split at h
    · cases h
    · next hno =>
      rw [pieces, if_neg hno, ih (Option.map_eq_none_iff.mp h)]

theorem pieces_some {n t a b : Text} (hn : n ≠ []) (h : Library.cut n t = some (a, b)) :
    pieces n 0 t = (a, (pieces n 0 b).1 :: (pieces n 0 b).2) := by
  induction t generalizing a with
  | nil =>
    rw [cut_nil hn] at h
    cases h
  | cons c t ih =>
    unfold Library.cut at h
    split at h
    next hpre =>
      cases h
      rw [pieces, if_pos hpre]
      obtain ⟨d, m, rfl⟩ := List.exists_cons_of_ne_nil hn
      have heq := isPrefixOf_eq hpre
      rw [List.cons_append, List.cons.injEq] at heq
      have hskip := pieces_skip (d :: m) m ((c :: t).drop (d :: m).length)
      rw [← heq.2] at hskip
      rw [List.length_cons, Nat.add_sub_cancel, hskip, List.length_cons]
    next hno =>
      obtain ⟨⟨a', b'⟩, hc, he⟩ := Option.map_eq_some_iff.mp h
      cases he
      rw [pieces, if_neg hno, ih hc]

theorem occurrences_none {n t : Text} (h : Library.cut n t = none) : occurrences n t = 0 := by
  rw [occurrences, pieces_none h, List.length_nil]

theorem occurrences_some {n t a b : Text} (hn : n ≠ []) (h : Library.cut n t = some (a, b)) :
    occurrences n t = occurrences n b + 1 := by
  rw [occurrences, pieces_some hn h, List.length_cons]
  rfl

theorem occurrences_self {n : Text} (hn : n ≠ []) (t : Text) :
    occurrences n (n ++ t) = occurrences n t + 1 := by
  obtain ⟨a, b, h, ha⟩ := Library.cut_append n [] t
  obtain rfl : a = [] := List.length_eq_zero_iff.mp (Nat.le_zero.mp ha)
  have hb : b = t := by simpa using (cut_eq h).symm
  rw [List.nil_append] at h
  rw [occurrences_some hn h, hb]

theorem cut_shorter {n t a b : Text} (hn : n ≠ []) (h : cut n t = some (a, b)) :
    b.length < t.length := by
  have hlen := congrArg List.length (cut_eq h)
  have hpos := List.length_pos_iff.mpr hn
  simp only [List.length_append] at hlen
  omega

theorem Swapped.occurrences {n t t' : Text} (h : Swapped ys t t') (hn : n ≠ [])
    (hy : ∀ y ∈ ys, Apart n y) : Library.occurrences n t = Library.occurrences n t' := by
  induction hl : t.length using Nat.strong_induction_on generalizing t t' with
  | _ k ih =>
    rcases h.cut hn hy with ⟨h₁, h₂⟩ | ⟨a, b, a', b', h₁, h₂, -, hb⟩
    · rw [occurrences_none h₁, occurrences_none h₂]
    · have hshort : b.length < k := hl ▸ cut_shorter hn h₁
      rw [occurrences_some hn h₁, occurrences_some hn h₂, ih b.length hshort hb rfl]

theorem occurs_iff_occurrences {n t : Text} (hn : n ≠ []) :
    Library.occurs n t = true ↔ Library.occurrences n t ≠ 0 := by
  unfold Library.occurs
  cases h : Library.cut n t with
  | none => simp [occurrences_none h]
  | some m => simp [occurrences_some hn h]

theorem cut_append_right {n a p q : Text} (h : Library.cut n a = some (p, q)) (t : Text) :
    Library.cut n (a ++ t) = some (p, q ++ t) := by
  have hlen := congrArg List.length (cut_eq h)
  simp only [List.length_append] at hlen
  induction a generalizing p with
  | nil =>
    obtain rfl : n = [] := List.length_eq_zero_iff.mp (by simp at hlen; omega)
    cases h
    cases t <;> simp [Library.cut]
  | cons c a ih =>
    unfold Library.cut at h
    split at h
    next hpre =>
      cases h
      have hpre' : n.isPrefixOf (c :: (a ++ t)) = true :=
        List.isPrefixOf_iff_prefix.mpr
          ((List.isPrefixOf_iff_prefix.mp hpre).trans (List.prefix_append (c :: a) t))
      rw [List.cons_append, Library.cut, if_pos hpre', ← List.cons_append,
        List.drop_append_of_le_length (List.isPrefixOf_iff_prefix.mp hpre).length_le]
    next hno =>
      obtain ⟨⟨p', q'⟩, hc, he⟩ := Option.map_eq_some_iff.mp h
      cases he
      have hlen' := congrArg List.length (cut_eq hc)
      simp only [List.length_append] at hlen'
      have hno' : ¬ n.isPrefixOf (c :: (a ++ t)) = true := by
        intro hp
        apply hno
        rw [List.isPrefixOf_iff_prefix] at hp ⊢
        exact List.prefix_of_prefix_length_le hp (List.prefix_append (c :: a) t)
          (by rw [List.length_cons]; omega)
      rw [List.cons_append, Library.cut, if_neg hno', ih hc hlen', Option.map_some]

/-- An occurrence is before `x` or behind it. -/
theorem Apart.cut_between {n x a : Text} (h : Apart n x) (ha : Library.cut n a = none) (b : Text) :
    Library.cut n (a ++ (x ++ b)) = (Library.cut n b).map (fun (p, q) => (a ++ x ++ p, q)) := by
  induction a with
  | nil => simpa using h.cut_append b
  | cons c a ih =>
    unfold Library.cut at ha
    split at ha
    · cases ha
    next hno =>
      have hno' : ¬ n.isPrefixOf (c :: (a ++ (x ++ b))) = true := by
        intro hp
        rw [List.isPrefixOf_iff_prefix] at hp hno
        rcases List.prefix_or_prefix_of_prefix hp (List.prefix_append (c :: a) (x ++ b))
          with hna | ⟨p, rfl⟩
        · exact hno hna
        · have hrest : p <+: x ++ b := by
            rw [← List.cons_append] at hp
            exact (List.prefix_append_right_inj (c :: a)).mp hp
          by_cases hp0 : p = []
          · exact hno ⟨[], by rw [hp0, List.append_nil, List.append_nil]⟩
          · exact h.no_rest hp0 (List.suffix_append (c :: a) p) hrest
      rw [List.cons_append, Library.cut, if_neg hno', ih (Option.map_eq_none_iff.mp ha),
        Option.map_map]
      rfl

theorem Apart.occurrences_between {n x : Text} (h : Apart n x) (a b : Text) :
    Library.occurrences n (a ++ (x ++ b)) = Library.occurrences n a + Library.occurrences n b := by
  induction hl : a.length using Nat.strong_induction_on generalizing a with
  | _ k ih =>
    cases ha : Library.cut n a with
    | none =>
      rw [occurrences_none ha, Nat.zero_add]
      have hcut := h.cut_between ha b
      cases hb : Library.cut n b with
      | none =>
        rw [hb, Option.map_none] at hcut
        rw [occurrences_none hcut, occurrences_none hb]
      | some m =>
        rw [hb, Option.map_some] at hcut
        rw [occurrences_some h.ne_nil hcut, occurrences_some h.ne_nil hb]
    | some m =>
      obtain ⟨p, q⟩ := m
      have hshort : q.length < k := hl ▸ cut_shorter h.ne_nil ha
      rw [occurrences_some h.ne_nil (cut_append_right ha (x ++ b)), occurrences_some h.ne_nil ha,
        ih q.length hshort q rfl]
      omega

theorem replaceFirst_swapped (x y t : Text) : Swapped [x, y] t (replaceFirst x y t) := by
  unfold replaceFirst
  split
  next a b h =>
    rw [cut_eq h, List.append_assoc, List.append_assoc]
    exact (Swapped.refl a).append (.swap (by simp) (by simp) (.refl b))
  next => exact .refl t

theorem Swapped.replaceFirst {n t t' : Text} (h : Swapped ys t t') (hn : n ≠ [])
    (hy : ∀ y ∈ ys, Apart n y) (new : Text) :
    Swapped ys (Library.replaceFirst n new t) (Library.replaceFirst n new t') := by
  unfold Library.replaceFirst
  rcases h.cut hn hy with ⟨h₁, h₂⟩ | ⟨a, b, a', b', h₁, h₂, ha, hb⟩
  · rw [h₁, h₂]
    exact h
  · rw [h₁, h₂]
    exact (ha.append (.refl new)).append hb

/-- Both the text and its replacement are joined from the same pieces. -/
theorem pieces_joined {x : Text} (hx : x ≠ []) (t : Text) :
    (pieces x 0 t).1 ++ (pieces x 0 t).2.flatMap (x ++ ·) = t := by
  induction hl : t.length using Nat.strong_induction_on generalizing t with
  | _ k ih =>
    cases h : Library.cut x t with
    | none => rw [pieces_none h, List.flatMap_nil, List.append_nil]
    | some m =>
      obtain ⟨a, b⟩ := m
      have hshort : b.length < k := hl ▸ cut_shorter hx h
      rw [pieces_some hx h, List.flatMap_cons, List.append_assoc, ih b.length hshort b rfl,
        ← List.append_assoc, ← cut_eq h]

theorem replaceAll_swapped {x : Text} (hx : x ≠ []) (y t : Text) :
    Swapped [x, y] t (replaceAll x y t) := by
  have hjoin : ∀ ps : List Text,
      Swapped [x, y] (ps.flatMap (x ++ ·)) (ps.flatMap (y ++ ·)) := by
    intro ps
    induction ps with
    | nil => exact .nil
    | cons p ps ih =>
      rw [List.flatMap_cons, List.flatMap_cons, List.append_assoc, List.append_assoc]
      exact .swap (by simp) (by simp) ((Swapped.refl p).append ih)
  have h := (Swapped.refl (pieces x 0 t).1).append (hjoin (pieces x 0 t).2)
  rwa [pieces_joined hx t] at h

theorem replaceAll_none {n t : Text} (h : cut n t = none) (new : Text) :
    replaceAll n new t = t := by
  rw [replaceAll, pieces_none h]
  simp

theorem replaceAll_some {n t a b : Text} (hn : n ≠ []) (h : cut n t = some (a, b)) (new : Text) :
    replaceAll n new t = a ++ new ++ replaceAll n new b := by
  rw [replaceAll, pieces_some hn h, replaceAll]
  simp

/-- What stands before the first occurrence has none in it. -/
theorem cut_front {n t a b : Text} (hn : n ≠ []) (h : cut n t = some (a, b)) : cut n a = none := by
  cases ha : cut n a with
  | none => rfl
  | some m =>
    obtain ⟨p, q⟩ := m
    have hagain := cut_append_right ha (n ++ b)
    rw [← List.append_assoc, ← cut_eq h, h, Option.some.injEq, Prod.mk.injEq] at hagain
    obtain ⟨rfl, -⟩ := hagain
    have hlen := congrArg List.length (cut_eq ha)
    have hpos := List.length_pos_iff.mpr hn
    simp only [List.length_append] at hlen
    omega

/-- What is replaced by a text apart from it is all gone. -/
theorem replaceAll_gone {n new : Text} (h : Apart n new) (t : Text) :
    cut n (replaceAll n new t) = none := by
  induction hl : t.length using Nat.strong_induction_on generalizing t with
  | _ k ih =>
    cases hc : cut n t with
    | none => rw [replaceAll_none hc, hc]
    | some m =>
      obtain ⟨a, b⟩ := m
      have hrest := ih b.length (hl ▸ cut_shorter h.ne_nil hc) b rfl
      rw [replaceAll_some h.ne_nil hc, List.append_assoc,
        h.cut_between (cut_front h.ne_nil hc), hrest]
      rfl

theorem replaceAll_clean {n new : Text} {c : Char} (hn : n ≠ []) (hc : c ∉ new) {t : Text}
    (ht : c ∉ t) : c ∉ replaceAll n new t := by
  induction hl : t.length using Nat.strong_induction_on generalizing t with
  | _ k ih =>
    cases hcut : cut n t with
    | none => rwa [replaceAll_none hcut]
    | some m =>
      obtain ⟨a, b⟩ := m
      rw [cut_eq hcut] at ht
      simp only [List.mem_append, not_or] at ht
      have hrest := ih b.length (hl ▸ cut_shorter hn hcut) ht.2 rfl
      rw [replaceAll_some hn hcut]
      simp only [List.mem_append, not_or]
      exact ⟨⟨ht.1.1, hc⟩, hrest⟩

/-- Swapped stretches without brackets do not move the closing one. -/
theorem closing_append {o c : Char} {x : Text} (ho : o ∉ x) (hc : c ∉ x) (depth : Nat) (t : Text) :
    closing o c depth (x ++ t) = (closing o c depth t).map (fun (a, b) => (x ++ a, b)) := by
  induction x with
  | nil => simp
  | cons d x ih =>
    have hod : d ≠ o := fun h => ho (h ▸ List.mem_cons_self)
    have hcd : d ≠ c := fun h => hc (h ▸ List.mem_cons_self)
    rw [List.cons_append, closing, if_neg hod, if_neg hcd,
      ih (fun h => ho (List.mem_cons_of_mem _ h)) (fun h => hc (List.mem_cons_of_mem _ h)),
      Option.map_map]
    rfl

theorem Swapped.closing {o c : Char} {t t' : Text} (h : Swapped ys t t')
    (hy : ∀ y ∈ ys, o ∉ y ∧ c ∉ y) (depth : Nat) :
    (closing o c depth t = none ∧ closing o c depth t' = none) ∨
    ∃ a b a' b', closing o c depth t = some (a, b) ∧ closing o c depth t' = some (a', b') ∧
      Swapped ys b b' := by
  induction h generalizing depth with
  | nil => exact .inl ⟨rfl, rfl⟩
  | @char t t' d h ih =>
    have onward (k : Nat) :
        ((Library.closing o c k t).map (fun (a, b) => (d :: a, b)) = none ∧
          (Library.closing o c k t').map (fun (a, b) => (d :: a, b)) = none) ∨
        ∃ a b a' b', (Library.closing o c k t).map (fun (a, b) => (d :: a, b)) = some (a, b) ∧
          (Library.closing o c k t').map (fun (a, b) => (d :: a, b)) = some (a', b') ∧
          Swapped ys b b' := by
      rcases ih k with ⟨h₁, h₂⟩ | ⟨a, b, a', b', h₁, h₂, hb⟩
      · exact .inl ⟨by rw [h₁, Option.map_none], by rw [h₂, Option.map_none]⟩
      · exact .inr ⟨d :: a, b, d :: a', b', by rw [h₁, Option.map_some],
          by rw [h₂, Option.map_some], hb⟩
    simp only [Library.closing]
    split
    · exact onward (depth + 1)
    · split
      · split
        · exact .inr ⟨[d], t, [d], t', rfl, rfl, h⟩
        · exact onward (depth - 1)
      · exact onward depth
  | @swap t t' x y hx hy' h ih =>
    rw [closing_append (hy x hx).1 (hy x hx).2, closing_append (hy y hy').1 (hy y hy').2]
    rcases ih depth with ⟨h₁, h₂⟩ | ⟨a, b, a', b', h₁, h₂, hb⟩
    · exact .inl ⟨by rw [h₁, Option.map_none], by rw [h₂, Option.map_none]⟩
    · exact .inr ⟨x ++ a, b, y ++ a', b', by rw [h₁, Option.map_some],
        by rw [h₂, Option.map_some], hb⟩

end SwitchLdnZt.Library
