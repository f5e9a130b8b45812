import SwitchLdnZt.Proofs.ThreadCall

namespace SwitchLdnZt.Proofs.HelperSite
open Library Preprocess Scripts LwipThread FunctionSpan ThreadCall

def introHead : Text := text "static struct sys_thread *\nintroduce_thread(pthread_t id)\n\x7b"

def introBody : Text :=
  '\n' :: (rows (ifdef switch :: (introSwitch ++ text "#else" :: (introOther ++
    [text "#endif"]))) ++ text "\x7d")

theorem intro_parts : intro = introHead ++ introBody := by decide +kernel

theorem introHead_hit : Hits introducePattern introHead := hits_of_search (by decide)

theorem introduce_counted : Counted 's' introducePattern := by
  constructor
  · intro m hm
    obtain ⟨w, hw, z, rfl⟩ := introduce_begins.hit hm
    obtain rfl := List.mem_singleton.mp hw
    rfl
  · have hone : ∀ m, Hits introducePattern m → m.count 's' = 4 := by
      intro m hm
      obtain ⟨is, his, segs, hf, rfl⟩ := hm
      obtain rfl := List.mem_singleton.mp his
      rw [hf.count (by decide)]
      decide
    intro m m' hm hm'
    rw [hone m hm, hone m' hm']

/-- With the helper's head behind it, a text has that head first there. -/
def Ahead (a : Text) : Prop := First introducePattern (a ++ introHead) a introHead []

theorem ahead_of_site {p : Path} {s a b : Text} (h : introSite p s = .ok (a, b)) : Ahead a := by
  obtain ⟨m, r, hfirst, -⟩ := introSite_ok.mp h
  have hhead := hfirst.instead introduce_ends introduce_counted introHead_hit []
  rwa [List.append_nil] at hhead

/-- What follows the head of a helper, up to the brace that ends it. -/
def IsBody (y : Text) : Prop := closing '\x7b' '\x7d' 1 y = some (y, [])

theorem Ahead.site {a y : Text} (h : Ahead a) (hy : IsBody y) (b : Text) (p : Path) :
    introSite p (a ++ (introHead ++ y) ++ b) = .ok (a, b) := by
  have hfirst := h.behind introduce_ends (y ++ b)
  have hhead : introHead = introHead.dropLast ++ ['\x7b'] := by decide
  have htext : a ++ (introHead ++ y) ++ b = a ++ introHead ++ (y ++ b) := by simp
  rw [htext]
  refine introSite_ok.mpr ⟨introHead, y ++ b, hfirst, ?_⟩
  rw [hhead, List.append_assoc, List.singleton_append, scanned_closed (by decide),
    closing_behind hy b]
  rfl

/-- Something in the text around the helper. -/
def has (l a b : Text) : Bool := occurs l a || occurs l b

/-- A place in the text above the helper or in the text below it, between `p` and `q`. -/
inductive Place
  | above (p q below : Text)
  | below (above p q : Text)

namespace Place

def p : Place → Text
  | above p _ _ | below _ p _ => p

def q : Place → Text
  | above _ q _ | below _ _ q => q

/-- The text above the helper with `x` at this place, if the place is there. -/
def top (x : Text) : Place → Text
  | above p q _ => p ++ x ++ q
  | below a _ _ => a

def bottom (x : Text) : Place → Text
  | above _ _ b => b
  | below _ p q => p ++ x ++ q

/-- What comes before the place in the whole text, with `z` for the helper. -/
def front (z : Text) : Place → Text
  | above p _ _ => p
  | below a p _ => a ++ z ++ p

def back (z : Text) : Place → Text
  | above _ q b => q ++ z ++ b
  | below _ _ q => q

theorem text (l : Place) (x z : Text) :
    l.top x ++ z ++ l.bottom x = l.front z ++ x ++ l.back z := by
  cases l <;> simp [top, bottom, front, back]

theorem p_suffix (l : Place) (z : Text) : l.p <:+ l.front z := by
  cases l with
  | above => exact List.suffix_rfl
  | below => exact List.suffix_append _ _

theorem q_prefix (l : Place) (z : Text) : l.q <+: l.back z := by
  cases l with
  | above p q b => exact ⟨z ++ b, by simp [Place.q, back]⟩
  | below => exact List.prefix_rfl

end Place

/-- A place that the script goes by: behind a brace or a semicolon, where a line
begins, or before the call of `introduce_thread`. -/
def Lands (p q : Text) : Prop :=
  Ended p ∨ introduceCall <+: q ∨ p = [] ∨ p.getLast? = some '\n'

/-- A word that no such place is within. -/
structure Firm (l : Text) : Prop where
  brace : '\x7b' ∉ l
  semi : ';' ∉ l
  line : '\n' ∉ l
  call : apart l introduceCall = true

theorem Firm.whole {l p q : Text} (hl : Firm l) (h : Lands p q) : Whole l p q := by
  rcases h with (hp | hp) | hq | rfl | hp
  · exact .of_last hp hl.brace q
  · exact .of_last hp hl.semi q
  · exact .of_ahead hq (.of_apart hl.call)
  · exact .of_start l q
  · exact .of_last hp hl.line q

section
variable {l w x : Text} {site : Place}

theorem Place.keeps (site : Place) (hw : Whole w site.p site.q)
    (h : has w (site.top []) (site.bottom []) = true) (x : Text) :
    has w (site.top x) (site.bottom x) = true := by
  rw [has, Bool.or_eq_true] at h ⊢
  cases site with
  | above p q b =>
    rcases h with ha | hb
    · exact .inl (hw.occurs (by simpa [top, Place.p, Place.q] using ha) x)
    · exact .inr hb
  | below a p q =>
    rcases h with ha | hb
    · exact .inl ha
    · exact .inr (hw.occurs (by simpa [bottom, Place.p, Place.q] using hb) x)

theorem Place.lacks (site : Place) (hw : Apart w x)
    (h : has w (site.top []) (site.bottom []) = false) :
    has w (site.top x) (site.bottom x) = false := by
  rw [has, Bool.or_eq_false_iff] at h ⊢
  cases site with
  | above p q b => exact ⟨hw.absent (by simpa [top] using h.1), h.2⟩
  | below a p q => exact ⟨h.1, hw.absent (by simpa [bottom] using h.2)⟩

theorem Place.top_lacks (site : Place) (hw : Apart w x) (h : occurs w (site.top []) = false) :
    occurs w (site.top x) = false := by
  cases site with
  | above p q b => exact hw.absent (by simpa [top] using h)
  | below a p q => exact h

theorem Place.gets (site : Place) (h : occurs w x = true) :
    has w (site.top x) (site.bottom x) = true := by
  rw [has, Bool.or_eq_true]
  cases site with
  | above p q b => exact .inl (occurs_append h p q)
  | below a p q => exact .inr (occurs_append h p q)

theorem Place.ahead (site : Place) (hx : Opaque introducePattern x) (h : Ahead (site.top [])) :
    Ahead (site.top x) := by
  cases site with
  | below a p q => exact h
  | above p q b =>
    have hfirst : First introducePattern (p ++ (q ++ introHead)) (p ++ q) introHead [] := by
      simpa [Ahead, top] using h
    obtain ⟨t, ht, -, hmoved⟩ := hfirst.insert_before hx introduce_ends (by simp)
    obtain rfl := List.append_cancel_left ht
    simpa [Ahead, top] using hmoved

end

theorem occurs_around {l z : Text} (h : apart l z = true) (a b : Text) :
    occurs l (a ++ z ++ b) = has l a b := (Apart.of_apart h).occurs_between a b

theorem IsBody.last {y : Text} (h : IsBody y) : y.getLast? = some '\x7d' := by
  obtain ⟨y₀, rfl⟩ := closing_last h
  exact List.getLast?_concat

/-- What begins with a word that is not in the helper, and not with the helper's first
letter, does not end in it. -/
theorem hit_outside {word a z b u m r : Text} (htext : a ++ z ++ b = u ++ m ++ r)
    (hpre : word <+: m) (hno : 's' ∉ m) (hword : Apart word z) (hhead : introHead <+: z) :
    (u ++ m).length ≤ a.length ∨ (a ++ z).length ≤ (u ++ m).length := by
  by_contra hout
  rw [not_or, Nat.not_le, Nat.not_le] at hout
  obtain ⟨hleft, hright⟩ := hout
  rw [List.append_assoc] at htext
  obtain ⟨h₁, hum, hrest⟩ := append_split htext.symm (Nat.le_of_lt hleft)
  rw [hum] at hleft hright
  obtain ⟨h₂, hsplit, -⟩ := append_split hrest
    (by simp only [List.length_append] at hright; omega)
  have hlen := congrArg List.length hum
  simp only [List.length_append] at hlen hleft
  rcases Nat.le_total m.length h₁.length with hle | hle
  · obtain ⟨t, rfl, ht⟩ := append_split hum (by omega)
    refine absurd (hpre.isInfix.trans ?_) hword.notIn
    rw [hsplit, ht]
    exact ⟨t, h₂, by simp⟩
  · -- it would have the first letter of the helper's
    obtain ⟨t, -, ht⟩ := append_split hum.symm (by omega)
    obtain ⟨c, h₀, rfl⟩ := List.exists_cons_of_ne_nil (behind_ne (a := a) (by simpa using hleft))
    have hc : c = 's' := by
      obtain ⟨y, rfl⟩ := hhead
      have hfirst := congrArg List.head? hsplit
      rw [List.cons_append, List.head?_append_of_ne_nil _ (by decide)] at hfirst
      exact (Option.some.inj hfirst).symm
    apply hno
    rw [ht, hc]
    simp

/-- A place outside the helper. -/
theorem place_of {a b z p q : Text} (htext : a ++ z ++ b = p ++ q)
    (hout : p.length ≤ a.length ∨ (a ++ z).length ≤ p.length) :
    ∃ site : Place, site.top [] = a ∧ site.bottom [] = b ∧ site.front z = p ∧ site.back z = q := by
  rcases hout with habove | hbelow
  · rw [List.append_assoc] at htext
    obtain ⟨v, rfl, rfl⟩ := append_split htext habove
    exact ⟨.above p v b, by simp [Place.top], rfl, rfl, by simp [Place.back]⟩
  · obtain ⟨u, rfl, rfl⟩ := append_split htext.symm hbelow
    exact ⟨.below a u q, rfl, by simp [Place.bottom], rfl, rfl⟩

theorem Place.last {y : Text} (hy : IsBody y) (site : Place) {c : Char} (hc : c ≠ '\x7d')
    (h : (site.front (introHead ++ y)).getLast? = some c) : site.p.getLast? = some c := by
  cases site with
  | above p q b => exact h
  | below a p q =>
    cases p using List.reverseRecOn with
    | nil =>
      rw [front, List.append_nil, ← List.append_assoc, List.getLast?_append, hy.last,
        Option.some_or, Option.some.injEq] at h
      exact absurd h.symm hc
    | append_singleton p d =>
      rw [front, ← List.append_assoc, List.getLast?_concat] at h
      rw [Place.p, List.getLast?_concat, h]

/-- What the script goes by in the whole text is there in the one around the helper. -/
theorem Place.ended {y : Text} (hy : IsBody y) (site : Place)
    (h : Ended (site.front (introHead ++ y))) : Ended site.p := by
  rcases h with h | h
  · exact .inl (site.last hy (by decide) h)
  · exact .inr (site.last hy (by decide) h)

theorem Place.calls {y : Text} (site : Place)
    (h : introduceCall <+: site.back (introHead ++ y)) : introduceCall <+: site.q := by
  cases site with
  | below a p q => exact h
  | above p q b =>
    rw [back, List.append_assoc] at h
    rcases List.prefix_or_prefix_of_prefix h (List.prefix_append q _) with hv | ⟨t, ht⟩
    · exact hv
    · rcases List.eq_nil_or_concat t with rfl | ⟨t', c, hc⟩
      · rw [List.append_nil] at ht
        rw [← ht]
        exact List.prefix_rfl
      · have happart : Apart introduceCall introHead := .of_apart (by decide)
        have hrest : t <+: introHead ++ (y ++ b) := by
          rw [← ht] at h
          simpa using h
        exact absurd hrest (happart.no_rest (by simp [hc]) ⟨q, ht⟩)

theorem Place.starts {y : Text} (hy : IsBody y) (site : Place)
    (h : site.front (introHead ++ y) = [] ∨ (site.front (introHead ++ y)).getLast? = some '\n') :
    site.p = [] ∨ site.p.getLast? = some '\n' := by
  rcases h with h | h
  · left
    exact List.suffix_nil.mp (h ▸ site.p_suffix (introHead ++ y))
  · exact .inr (site.last hy (by decide) h)

end SwitchLdnZt.Proofs.HelperSite
