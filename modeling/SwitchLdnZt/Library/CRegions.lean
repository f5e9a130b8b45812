import SwitchLdnZt.Library.CTokens
import SwitchLdnZt.Library.Splice

namespace SwitchLdnZt.Library.CRegions
open CTokens (isWord)

/-- Where a reader of C++ is: in code, with the word read last; behind a slash that
may begin a comment; or within a comment or a literal. -/
inductive Region
  | code (word : Text)
  | slash
  | lineComment (backslash : Bool)
  | blockComment (star : Bool)
  | quoted (q : Char)
  | escaped (q : Char)
  | rawHead (delimiter : Text)
  | raw (delimiter sofar : Text)
  deriving DecidableEq

def Region.inCode : Region → Bool
  | .code _ | .slash => true
  | _ => false

def rawPrefixes : List Text := [text "R", text "LR", text "uR", text "UR", text "u8R"]

/-- One character on in code. A quote within a number separates its digits. -/
def afterWord (w : Text) (c : Char) : Region :=
  if c = '"' then if rawPrefixes.contains w then .rawHead [] else .quoted c
  else if c = '\'' then if w.head?.any Char.isDigit then .code (w ++ [c]) else .quoted c
  else if c = '/' then .slash
  else if isWord c then .code (w ++ [c])
  else .code []

def Region.step : Region → Char → Region
  | .code w, c => afterWord w c
  | .slash, c =>
    if c = '/' then .lineComment false
    else if c = '*' then .blockComment false
    else afterWord [] c
  | .lineComment backslash, c =>
    if c = '\n' && !backslash then .code [] else .lineComment (c = '\\')
  | .blockComment star, c =>
    if star && c = '/' then .code [] else .blockComment (c = '*')
  | .quoted q, c =>
    if c = '\\' then .escaped q else if c = q ∨ c = '\n' then .code [] else .quoted q
  | .escaped q, _ => .quoted q
  | .rawHead d, c => if c = '(' then .raw d [] else .rawHead (d ++ [c])
  | .raw d sofar, c =>
    if c = '"' && (')' :: d).isSuffixOf sofar then .code [] else .raw d (sofar ++ [c])

/-- Where the text begins. -/
def start : Region := .code []

def read (r : Region) (x : Text) : Region := x.foldl Region.step r

theorem start_inCode : start.inCode = true := rfl

/-- A character is code, unless a comment or a literal is open before or behind it;
the line end behind a comment is. -/
def Region.shows (r : Region) (c : Char) : Bool := (r.inCode || c = '\n') && (r.step c).inCode

/-- The characters of a text that are code. -/
def shown : Region → Text → Text
  | _, [] => []
  | r, c :: x => if r.shows c then c :: shown (r.step c) x else shown (r.step c) x

/-- The characters of its comments and literals. -/
def hidden : Region → Text → Text
  | _, [] => []
  | r, c :: x => if r.shows c then hidden (r.step c) x else c :: hidden (r.step c) x

/-- How many brackets more a text opens than it closes. -/
def net (o c : Char) (x : Text) : Int := x.count o - x.count c

/-- It closes what it opens, and nothing else. -/
structure Nested (o c : Char) (x : Text) : Prop where
  inside : ∀ p, p <+: x → 0 ≤ net o c p
  whole : net o c x = 0

instance (o c : Char) (x : Text) : Decidable (Nested o c x) :=
  decidable_of_iff ((∀ p ∈ x.inits, 0 ≤ net o c p) ∧ net o c x = 0)
    ⟨fun h => ⟨fun p hp => h.1 p ((List.mem_inits p x).mpr hp), h.2⟩,
      fun h => ⟨fun p hp => h.inside p ((List.mem_inits p x).mp hp), h.whole⟩⟩

theorem read_append (r : Region) (x y : Text) : read r (x ++ y) = read (read r x) y :=
  List.foldl_append

theorem shown_append (r : Region) (x y : Text) :
    shown r (x ++ y) = shown r x ++ shown (read r x) y := by
  induction x generalizing r with
  | nil => rfl
  | cons c x ih =>
    rw [List.cons_append, shown, shown, read, List.foldl_cons]
    split
    · rw [ih, List.cons_append, read]
    · rw [ih, read]

theorem shown_subset (r : Region) (x : Text) {c : Char} (h : c ∈ shown r x) : c ∈ x := by
  induction x generalizing r with
  | nil => exact h
  | cons d x ih =>
    rw [shown] at h
    split at h
    · rcases List.mem_cons.mp h with rfl | h
      · exact List.mem_cons_self
      · exact List.mem_cons_of_mem _ (ih _ h)
    · exact List.mem_cons_of_mem _ (ih _ h)

theorem shown_prefix {r : Region} {p x : Text} (h : p <+: x) : shown r p <+: shown r x := by
  obtain ⟨t, rfl⟩ := h
  rw [shown_append]
  exact List.prefix_append _ _

/-- A bracket is code where no comment or literal is open. -/
theorem shows_bracket {r : Region} (h : r.inCode = true) {c : Char}
    (hc : c ∈ ['(', ')', '\x7b', '\x7d', ';']) : r.shows c = true := by
  have hcode (w : Text) : (afterWord w c).inCode = true := by
    simp only [List.mem_cons, List.not_mem_nil, or_false] at hc
    rcases hc with rfl | rfl | rfl | rfl | rfl <;> rfl
  unfold Region.shows
  rw [h, Bool.true_or, Bool.true_and]
  cases r with
  | code w => exact hcode w
  | slash =>
    have hslash : c ≠ '/' := by
      rintro rfl
      exact absurd hc (by decide)
    have hstar : c ≠ '*' := by
      rintro rfl
      exact absurd hc (by decide)
    simp only [Region.step, if_neg hslash, if_neg hstar]
    exact hcode []
  | _ => cases h

section
variable {o c : Char}

@[simp] theorem net_nil : net o c [] = 0 := rfl

theorem net_append (x y : Text) : net o c (x ++ y) = net o c x + net o c y := by
  simp only [net, List.count_append]
  omega

theorem net_cons (d : Char) (x : Text) : net o c (d :: x) = net o c [d] + net o c x :=
  net_append [d] x

/-- What a text opens is opened by its code or within its comments and literals. -/
theorem net_eq (r : Region) (x : Text) :
    net o c x = net o c (shown r x) + net o c (hidden r x) := by
  induction x generalizing r with
  | nil => rfl
  | cons d x ih =>
    rw [net_cons, ih (r.step d), shown, hidden]
    split
    · rw [net_cons d (shown _ x)]
      omega
    · rw [net_cons d (hidden _ x)]
      omega

theorem net_of_none {x : Text} (ho : o ∉ x) (hc : c ∉ x) : net o c x = 0 := by
  rw [net, List.count_eq_zero.mpr ho, List.count_eq_zero.mpr hc]
  rfl

theorem prefix_cases {p x y : Text} (h : p <+: x ++ y) :
    p <+: x ∨ ∃ q, p = x ++ q ∧ q <+: y := by
  rcases List.prefix_or_prefix_of_prefix h (List.prefix_append x y) with hp | ⟨q, rfl⟩
  · exact .inl hp
  · exact .inr ⟨q, rfl, (List.prefix_append_right_inj x).mp h⟩

theorem Nested.of_none {x : Text} (ho : o ∉ x) (hc : c ∉ x) : Nested o c x := by
  refine ⟨fun p hp => ?_, net_of_none ho hc⟩
  have hzero : net o c p = 0 :=
    net_of_none (fun h => ho (hp.subset h)) (fun h => hc (hp.subset h))
  omega

theorem Nested.append {x y : Text} (hx : Nested o c x) (hy : Nested o c y) :
    Nested o c (x ++ y) := by
  refine ⟨fun p hp => ?_, by rw [net_append, hx.whole, hy.whole]; rfl⟩
  rcases prefix_cases hp with h | ⟨q, rfl, hq⟩
  · exact hx.inside p h
  · rw [net_append, hx.whole]
    have := hy.inside q hq
    omega

/-- Brackets around what is nested. -/
theorem Nested.bracket {x : Text} (hne : o ≠ c) (hx : Nested o c x) :
    Nested o c (o :: (x ++ [c])) := by
  have hopen : net o c [o] = 1 := by simp [net, hne]
  have hclose : net o c [c] = -1 := by simp [net, Ne.symm hne]
  refine ⟨fun p hp => ?_, by rw [net_cons, net_append, hx.whole, hopen, hclose]; rfl⟩
  rcases List.prefix_cons_iff.mp hp with rfl | ⟨q, rfl, hq⟩
  · exact Int.le_refl 0
  · rw [net_cons, hopen]
    rcases prefix_cases hq with h | ⟨t, rfl, ht⟩
    · have := hx.inside q h
      omega
    · rw [net_append, hx.whole]
      rcases List.prefix_cons_iff.mp ht with rfl | ⟨u, rfl, hu⟩
      · simp
      · rw [List.prefix_nil.mp hu, hclose]
        omega

/-- The scan for a closing bracket ends where what is open first comes to nothing. -/
theorem closing_iff (hne : o ≠ c) {d : Nat} (hd : 1 ≤ d) {s a b : Text} :
    closing o c d s = some (a, b) ↔
      s = a ++ b ∧ d + net o c a = 0 ∧ ∀ p t, a = p ++ t → t ≠ [] → 0 < d + net o c p := by
  induction s generalizing d a with
  | nil =>
    constructor
    · intro h
      cases h
    · rintro ⟨hs, hnet, -⟩
      obtain ⟨rfl, -⟩ := List.append_eq_nil_iff.mp hs.symm
      rw [net_nil] at hnet
      omega
  | cons e s ih =>
    have onward {k : Nat} (hk : 1 ≤ k) (he : (k : Int) = d + net o c [e]) :
        (closing o c k s).map (fun m => (e :: m.1, m.2)) = some (a, b) ↔
          e :: s = a ++ b ∧ d + net o c a = 0 ∧
            ∀ p t, a = p ++ t → t ≠ [] → 0 < d + net o c p := by
      rw [Option.map_eq_some_iff]
      constructor
      · rintro ⟨⟨a', b'⟩, hs, heq⟩
        cases heq
        dsimp only
        obtain ⟨rfl, hnet, hopen⟩ := (ih hk).mp hs
        refine ⟨rfl, by rw [net_cons]; omega, ?_⟩
        intro p t hp ht
        rcases List.cons_eq_append_iff.mp hp with ⟨rfl, -⟩ | ⟨p', rfl, hp'⟩
        · rw [net_nil]
          omega
        · have := hopen p' t hp' ht
          rw [net_cons]
          omega
      · rintro ⟨hs, hnet, hopen⟩
        rcases List.cons_eq_append_iff.mp hs with ⟨rfl, -⟩ | ⟨a', rfl, hs'⟩
        · rw [net_nil] at hnet
          omega
        · refine ⟨(a', b), (ih hk).mpr ⟨hs', ?_, ?_⟩, rfl⟩
          · rw [net_cons] at hnet
            omega
          · intro p t hp ht
            have := hopen (e :: p) t (by rw [hp]; rfl) ht
            rw [net_cons] at this
            omega
    rw [closing]
    split
    next ho =>
      subst ho
      have hone : net e c [e] = 1 := by simp [net, hne]
      exact onward (by omega) (by omega)
    next ho =>
      split
      next hc =>
        subst hc
        have hone : net o e [e] = -1 := by simp [net, ho]
        split
        next hlast =>
          rw [Option.some.injEq, Prod.mk.injEq]
          constructor
          · rintro ⟨rfl, rfl⟩
            refine ⟨rfl, by omega, ?_⟩
            intro p t hp ht
            rcases List.cons_eq_append_iff.mp hp with ⟨rfl, -⟩ | ⟨p', -, hp'⟩
            · rw [net_nil]
              omega
            · exact absurd (List.append_eq_nil_iff.mp hp'.symm).2 ht
          · rintro ⟨hs, hnet, hopen⟩
            rcases List.cons_eq_append_iff.mp hs with ⟨rfl, -⟩ | ⟨a', rfl, rfl⟩
            · rw [net_nil] at hnet
              omega
            · -- behind the last bracket nothing is open
              cases a' with
              | nil => exact ⟨rfl, rfl⟩
              | cons f a' =>
                have := hopen [e] (f :: a') rfl (List.cons_ne_nil _ _)
                omega
        next hmore => exact onward (by omega) (by omega)
      next hc =>
        have hnone : net o c [e] = 0 :=
          net_of_none (by simp [Ne.symm ho]) (by simp [Ne.symm hc])
        exact onward hd (by omega)

end

end SwitchLdnZt.Library.CRegions
