import SwitchLdnZt.Library.CRegions

namespace SwitchLdnZt.Library.CRegions
open CTokens (isWord)

/-- No word runs from one piece of a text into the next. -/
def parted (x y : Text) : Bool := !(x.getLast?.any isWord && y.head?.any isWord)

/-- A definition of the function that this signature declares: behind it, but for
blanks, comments and the like, there is a body. -/
structure Definition (sig s : Text) where
  before : Text
  gap : Text
  body : Text
  after : Text
  text : s = before ++ (sig ++ (gap ++ '\x7b' :: (body ++ '\x7d' :: after)))
  starts : (read start before).inCode = true
  parted : parted before sig = true ∧ parted sig (gap ++ ['\x7b']) = true
  signature : Nested '\x7b' '\x7d' (shown (read start before) sig)
  clear : ∀ c ∈ [';', '\x7b', '\x7d'], c ∉ shown (read start (before ++ sig)) gap
  rounded : Nested '(' ')' (shown (read start (before ++ sig)) gap)
  opens : (read start (before ++ (sig ++ gap))).inCode = true
  nested : Nested '\x7b' '\x7d' (shown (read start (before ++ (sig ++ (gap ++ ['\x7b'])))) body)
  closes : (read (read start (before ++ (sig ++ (gap ++ ['\x7b'])))) body).inCode = true

variable {sig s : Text}

/-- All of the definition, its closing brace included. -/
def Definition.whole (d : Definition sig s) : Text :=
  sig ++ (d.gap ++ '\x7b' :: (d.body ++ ['\x7d']))

/-- The text up to its body, and what a reader has open there. -/
def Definition.opening (d : Definition sig s) : Text := d.before ++ (sig ++ (d.gap ++ ['\x7b']))
def Definition.inside (d : Definition sig s) : Region := read start d.opening

theorem Definition.text_whole (d : Definition sig s) : s = d.before ++ (d.whole ++ d.after) := by
  have := d.text
  simpa [Definition.whole] using this

theorem Definition.text_opening (d : Definition sig s) :
    s = d.opening ++ (d.body ++ '\x7d' :: d.after) := by
  have := d.text
  simpa [Definition.opening] using this

theorem shown_bracket {r : Region} (h : r.inCode = true) {c : Char}
    (hc : c ∈ ['(', ')', '\x7b', '\x7d', ';']) (x : Text) :
    shown r (c :: x) = c :: shown (r.step c) x := by
  rw [shown, if_pos (shows_bracket h hc)]

theorem read_snoc (r : Region) (x : Text) (c : Char) : read r (x ++ [c]) = (read r x).step c :=
  read_append r x [c]

/-- In its code a definition closes every brace that it opens. -/
theorem Definition.nested_whole (d : Definition sig s) :
    Nested '\x7b' '\x7d' (shown (read start d.before) d.whole) := by
  have hgap : Nested '\x7b' '\x7d' (shown (read start (d.before ++ sig)) d.gap) :=
    .of_none (d.clear _ (by decide)) (d.clear _ (by decide))
  have hbody := d.nested
  have hopens := d.opens
  have hcloses := d.closes
  rw [← List.append_assoc sig, ← List.append_assoc d.before, read_snoc] at hbody
  rw [← List.append_assoc sig, ← List.append_assoc d.before, read_snoc] at hcloses
  rw [Definition.whole, shown_append, ← read_append, shown_append, ← read_append,
    List.append_assoc]
  refine d.signature.append (hgap.append ?_)
  rw [shown_bracket hopens (by decide), shown_append,
    shown_bracket (r := read _ d.body) hcloses (by decide)]
  exact hbody.bracket (by decide)

/-- What stands behind the brace that closes the first one opened, where every brace
of the text counts. -/
def scanned (x : Text) : Option Text :=
  match cut ['\x7b'] x with
  | none => none
  | some (_, inside) => (closing '\x7b' '\x7d' 1 inside).map (·.2)

def front (x : Text) : Text := x.takeWhile (· ≠ '\x7b')
def fromBrace (x : Text) : Text := x.dropWhile (· ≠ '\x7b')

/-- The braces in comments and literals never close what the code has open, and
come to nothing in the end. -/
structure Steady (r : Region) (y : Text) : Prop where
  inside : ∀ p, p <+: y → p ≠ [] → p ≠ y →
    -net '\x7b' '\x7d' (hidden r p) < net '\x7b' '\x7d' (shown r p)
  whole : net '\x7b' '\x7d' (hidden r y) = 0

instance (r : Region) (y : Text) : Decidable (Steady r y) :=
  decidable_of_iff ((∀ p ∈ y.inits, p ≠ [] → p ≠ y →
      -net '\x7b' '\x7d' (hidden r p) < net '\x7b' '\x7d' (shown r p)) ∧
      net '\x7b' '\x7d' (hidden r y) = 0)
    ⟨fun h => ⟨fun p hp => h.1 p ((List.mem_inits p y).mpr hp), h.2⟩,
      fun h => ⟨fun p hp => h.inside p ((List.mem_inits p y).mp hp), h.whole⟩⟩

/-- From its first brace on, code or not. -/
def Definition.Steady (d : Definition sig s) : Prop :=
  CRegions.Steady (read start (d.before ++ front d.whole)) (fromBrace d.whole)

theorem Definition.braces (d : Definition sig s) : ∃ u v, d.whole = u ++ '\x7b' :: v ∧
    '\x7b' ∉ u ∧ front d.whole = u ∧ fromBrace d.whole = '\x7b' :: v := by
  have hmem : '\x7b' ∈ d.whole := by simp [Definition.whole]
  obtain ⟨u, v, huv, hu⟩ := List.eq_append_cons_of_mem hmem
  have hfront : front d.whole = u := by
    rw [front, huv]
    simpa using takeWhile_front hu v
  refine ⟨u, v, huv, hu, hfront, ?_⟩
  have hsplit : front d.whole ++ fromBrace d.whole = d.whole := List.takeWhile_append_dropWhile
  rw [hfront] at hsplit
  exact List.append_cancel_left (hsplit.trans huv)

/-- A scan that counts every brace ends where the definition does exactly where the
braces in its comments and literals make no difference. -/
theorem Definition.scanned_iff (d : Definition sig s) :
    scanned (d.whole ++ d.after) = some d.after ↔ d.Steady := by
  obtain ⟨u, v, huv, hu, hfront, hfrom⟩ := d.braces
  have hcut : cut ['\x7b'] (d.whole ++ d.after) = some (u, v ++ d.after) := by
    rw [huv, List.append_assoc, List.cons_append]
    exact cut_char hu _
  have hone : net '\x7b' '\x7d' ['\x7b'] = 1 := by decide
  -- the code in front of the first brace has none of either kind
  have hzero : net '\x7b' '\x7d' (shown (read start (d.before ++ u)) ('\x7b' :: v)) = 0 := by
    have hwhole := d.nested_whole.whole
    have hprefix : shown (read start d.before) u <+: shown (read start d.before) d.whole :=
      shown_prefix ⟨'\x7b' :: v, huv.symm⟩
    have hlow := d.nested_whole.inside _ hprefix
    have hnone : (shown (read start d.before) u).count '\x7b' = 0 :=
      List.count_eq_zero.mpr (fun h => hu (shown_subset _ _ h))
    have hhigh : net '\x7b' '\x7d' (shown (read start d.before) u) ≤ 0 := by
      rw [net, hnone]
      omega
    rw [huv, shown_append, net_append, ← read_append] at hwhole
    omega
  have hcount (p : Text) := net_eq (o := '\x7b') (c := '\x7d') (read start (d.before ++ u)) p
  have hscan : scanned (d.whole ++ d.after) = some d.after ↔
      closing '\x7b' '\x7d' 1 (v ++ d.after) = some (v, d.after) := by
    rw [scanned, hcut]
    constructor
    · intro h
      obtain ⟨⟨a, b⟩, hclosing, rfl⟩ := Option.map_eq_some_iff.mp h
      have htext := ((closing_iff (by decide) (Nat.le_refl 1)).mp hclosing).1
      rw [hclosing, List.append_cancel_right htext]
    · intro h
      simp only [h, Option.map_some]
  rw [hscan, closing_iff (by decide) (Nat.le_refl 1), Definition.Steady, hfront, hfrom]
  constructor
  · rintro ⟨-, hnet, hopen⟩
    refine ⟨fun p hp hne hall => ?_, ?_⟩
    · obtain ⟨t, hpt⟩ := hp
      rcases List.append_eq_cons_iff.mp hpt with ⟨rfl, -⟩ | ⟨p', rfl, hp'⟩
      · exact absurd rfl hne
      · have ht : t ≠ [] := by
          rintro rfl
          exact hall (by simpa using hpt)
        have hpos := hopen p' t hp' ht
        have := hcount ('\x7b' :: p')
        rw [net_cons, hone] at this
        omega
    · have := hcount ('\x7b' :: v)
      rw [net_cons, hone] at this
      omega
  · intro h
    refine ⟨rfl, ?_, ?_⟩
    · have := hcount ('\x7b' :: v)
      rw [net_cons, hone, h.whole] at this
      omega
    · rintro p t rfl ht
      have hpos := h.inside ('\x7b' :: p) ⟨t, rfl⟩ (List.cons_ne_nil _ _) (by simpa using ht)
      have := hcount ('\x7b' :: p)
      rw [net_cons, hone] at this
      omega

/-- Two places of a character in a text are one, or one is before the other. -/
theorem places {c : Char} {u v x y : Text} (h : u ++ c :: x = v ++ c :: y) :
    u = v ∧ x = y ∨ (∃ t, v = u ++ c :: t) ∨ ∃ t, u = v ++ c :: t := by
  rcases List.append_eq_append_iff.mp h with ⟨t, rfl, ht⟩ | ⟨t, rfl, ht⟩
  · rcases List.cons_eq_append_iff.mp ht with ⟨rfl, hx⟩ | ⟨t, rfl, -⟩
    · exact .inl ⟨by simp, by simpa using hx.symm⟩
    · exact .inr (.inl ⟨t, rfl⟩)
  · rcases List.cons_eq_append_iff.mp ht with ⟨rfl, hx⟩ | ⟨t, rfl, -⟩
    · exact .inl ⟨by simp, by simpa using hx⟩
    · exact .inr (.inr ⟨t, rfl⟩)

theorem Definition.not_ahead {d d' : Definition sig s} (h : d.before = d'.before) (t : Text) :
    d'.gap ≠ d.gap ++ '\x7b' :: t := by
  intro hgap
  apply d'.clear '\x7b' (by decide)
  have hopens := d.opens
  rw [← List.append_assoc, read_append] at hopens
  rw [hgap, ← h, shown_append, shown_bracket hopens (by decide)]
  simp

theorem Definition.not_inside {d d' : Definition sig s} (h : d.before = d'.before)
    (hgap : d.gap = d'.gap) (t : Text) : d'.body ≠ d.body ++ '\x7d' :: t := by
  intro hbody
  have hclose : net '\x7b' '\x7d' ['\x7d'] = -1 := by decide
  have hnested := d'.nested
  rw [hbody, ← h, ← hgap, shown_append, shown_bracket d.closes (by decide)] at hnested
  rw [List.append_cons] at hnested
  have hlow := hnested.inside _ (List.prefix_append _ _)
  rw [net_append, d.nested.whole, hclose] at hlow
  omega

/-- A function defined at one place is defined there once. -/
theorem Definition.eq_of_before {d d' : Definition sig s} (h : d.before = d'.before) : d = d' := by
  have htext := d.text.symm.trans d'.text
  rw [h] at htext
  have hrest := List.append_cancel_left (List.append_cancel_left htext)
  rcases places hrest with ⟨hgap, hrest⟩ | ⟨t, ht⟩ | ⟨t, ht⟩
  · rcases places hrest with ⟨hbody, hafter⟩ | ⟨t, ht⟩ | ⟨t, ht⟩
    · cases d
      cases d'
      simp only at h hgap hbody hafter
      subst h hgap hbody hafter
      rfl
    · exact absurd ht (d.not_inside h hgap t)
    · exact absurd ht (d'.not_inside h.symm hgap.symm t)
  · exact absurd ht (d.not_ahead h t)
  · exact absurd ht (d'.not_ahead h.symm t)

end SwitchLdnZt.Library.CRegions
