import SwitchLdnZt.Library.PyRegex
import SwitchLdnZt.Library.Swapped

namespace SwitchLdnZt.Library

/-- A piece that takes characters for what they are, wherever they stand. -/
def Item.plain : Item → Bool
  | .one _ | .many _ => true
  | _ => false

/-- A piece that is this character and nothing else. -/
def Item.is (c : Char) : Item → Bool
  | .one (.lit d) => d == c
  | _ => false

def Plainly (pat : Pattern) : Prop := ∀ is ∈ pat, ∀ i ∈ is, Item.plain i = true

/-- A text that an alternative of the pattern matches as a whole. -/
def Hits (pat : Pattern) (m : Text) : Prop := ∃ is ∈ pat, ∃ segs, Fits is segs ∧ segs.flatten = m

/-- The leftmost hit in a text, and what stands before and behind it. -/
structure First (pat : Pattern) (s b m a : Text) : Prop where
  text : s = b ++ m ++ a
  hit : Hits pat m
  least : ∀ b' m' a', s = b' ++ m' ++ a' → Hits pat m' → b.length ≤ b'.length

/-- Every hit ends with this character, which is nowhere else in it. -/
def Closed (c : Char) (pat : Pattern) : Prop :=
  ∀ is ∈ pat, ∃ init, is = init ++ [.one (.lit c)] ∧ ∀ i ∈ init, Item.takes i c = false

theorem Closed.of_all {c : Char} {pat : Pattern}
    (h : ∀ is ∈ pat, is.getLast?.any (Item.is c) = true ∧
      ∀ i ∈ is.dropLast, Item.takes i c = false) : Closed c pat := by
  intro is his
  obtain ⟨hlast, hinit⟩ := h is his
  obtain ⟨i, hi, hic⟩ := (Option.any_eq_true _ _).mp hlast
  refine ⟨is.dropLast, ?_, hinit⟩
  have hone : i = .one (.lit c) := by
    unfold Item.is at hic
    split at hic
    · rw [eq_of_beq hic]
    · cases hic
  rw [← hone]
  exact (List.dropLast_append_getLast? i hi).symm

/-- Every hit begins with one of these words. -/
def Begins (words : List Text) (pat : Pattern) : Prop :=
  ∀ is ∈ pat, ∃ w ∈ words, ∃ rest, is = w.map (fun c => .one (.lit c)) ++ rest

/-- No hit can share a character with this text, wherever it is put. -/
def Opaque (pat : Pattern) (x : Text) : Prop :=
  ∀ u v b m a, u ++ x ++ v = b ++ m ++ a → Hits pat m →
    b.length + m.length ≤ u.length ∨ u.length + x.length ≤ b.length

variable {pat : Pattern}

theorem matchHere_hit {is : List Item} (hp : ∀ i ∈ is, Item.plain i = true) {segs : List Text}
    (h : Fits is segs) (rest : Text) (prev : Option Char) :
    (matchHere is prev (segs.flatten ++ rest)).isSome = true := by
  induction h generalizing prev with
  | nil => rfl
  | @cons i seg is segs hi _ ih =>
    obtain ⟨hplain, htail⟩ := List.forall_mem_cons.mp hp
    rw [List.flatten_cons, List.append_assoc]
    cases i with
    | one cls =>
      obtain ⟨c, rfl, hc⟩ := hi
      rw [List.singleton_append, matchHere, if_pos hc, Option.isSome_map]
      exact ih htail (some c)
    | many cls => exact matchHere_many_isSome hi (ih htail) prev
    | few cls => cases hplain
    | lineStart => cases hplain
    | lineEnd => cases hplain
    | wordEnd word => cases hplain

theorem matchAny_hit (hp : Plainly pat) {m : Text} (h : Hits pat m) (rest : Text)
    (prev : Option Char) : (matchAny pat prev (m ++ rest)).isSome = true := by
  obtain ⟨is, his, segs, hf, rfl⟩ := h
  rw [matchAny, List.findSome?_isSome_iff]
  exact ⟨is, his, matchHere_hit (hp is his) hf rest prev⟩

/-- A search finds something wherever there is a hit. -/
theorem search_isSome (hp : Plainly pat) {b m : Text} (h : Hits pat m) (a : Text) :
    (search pat (b ++ m ++ a)).isSome = true := by
  rw [search, List.append_assoc]
  exact searchFrom_isSome b (matchAny_hit hp h a) none

theorem searchFrom_least (hp : Plainly pat) {prev : Option Char} {s b rest : Text}
    {segs : List Text} (h : searchFrom pat prev s = some (b, segs, rest)) {b' m' a' : Text}
    (hs : s = b' ++ m' ++ a') (hm : Hits pat m') : b.length ≤ b'.length := by
  induction s generalizing prev b b' with
  | nil =>
    obtain ⟨m, -, he⟩ := Option.map_eq_some_iff.mp h
    cases he
    exact Nat.zero_le _
  | cons c cs ih =>
    unfold searchFrom at h
    split at h
    next =>
      cases h
      exact Nat.zero_le _
    next hnone =>
      obtain ⟨⟨b₀, m⟩, hcs, he⟩ := Option.map_eq_some_iff.mp h
      cases he
      cases b' with
      | nil =>
        have hsome := matchAny_hit hp hm a' prev
        rw [List.nil_append] at hs
        rw [← hs, hnone] at hsome
        cases hsome
      | cons d b' =>
        rw [List.cons_append, List.cons_append, List.cons.injEq] at hs
        exact Nat.succ_le_succ (ih hcs hs.2)

theorem search_first (hp : Plainly pat) {s b rest : Text} {segs : List Text}
    (h : search pat s = some (b, segs, rest)) : First pat s b segs.flatten rest := by
  obtain ⟨hs, is, his, hf⟩ := searchFrom_spec h
  exact ⟨hs, ⟨is, his, segs, hf, rfl⟩, fun _ _ _ hs' hm => searchFrom_least hp h hs' hm⟩

/-- A text is a hit if the search takes all of it. -/
theorem hits_of_search {m : Text}
    (h : (search pat m).map (fun r => (r.1, r.2.2)) = some ([], [])) : Hits pat m := by
  obtain ⟨⟨b, segs, rest⟩, hs, he⟩ := Option.map_eq_some_iff.mp h
  cases he
  obtain ⟨hm, is, his, hf⟩ := searchFrom_spec hs
  exact ⟨is, his, segs, hf, by simpa using hm.symm⟩

theorem Fits.append {is js : List Item} {segs : List Text} (h : Fits (is ++ js) segs) :
    ∃ us vs, segs = us ++ vs ∧ Fits is us ∧ Fits js vs := by
  induction is generalizing segs with
  | nil => exact ⟨[], segs, rfl, .nil, h⟩
  | cons i is ih =>
    cases h with
    | cons hi h =>
      obtain ⟨us, vs, rfl, hu, hv⟩ := ih h
      exact ⟨_ :: us, vs, rfl, .cons hi hu, hv⟩

theorem Fits.lits {w : Text} {segs : List Text} (h : Fits (w.map (fun c => .one (.lit c))) segs) :
    segs.flatten = w := by
  induction w generalizing segs with
  | nil =>
    cases h
    rfl
  | cons c w ih =>
    cases h with
    | cons hi h =>
      obtain ⟨d, rfl, hd⟩ := hi
      have hcd : d = c := by simpa [Cls.has] using hd
      rw [List.flatten_cons, ih h, hcd]
      rfl

theorem Closed.hit {c : Char} (hc : Closed c pat) {m : Text} (h : Hits pat m) :
    ∃ m₀, m = m₀ ++ [c] ∧ c ∉ m₀ := by
  obtain ⟨is, his, segs, hf, rfl⟩ := h
  obtain ⟨init, rfl, hno⟩ := hc is his
  obtain ⟨us, vs, rfl, hu, hv⟩ := hf.append
  refine ⟨us.flatten, ?_, hu.not_mem hno⟩
  have hlast : vs.flatten = [c] := Fits.lits (w := [c]) hv
  rw [List.flatten_append, hlast]

theorem Begins.hit {words : List Text} (hb : Begins words pat) {m : Text} (h : Hits pat m) :
    ∃ w ∈ words, w <+: m := by
  obtain ⟨is, his, segs, hf, rfl⟩ := h
  obtain ⟨w, hw, rest, rfl⟩ := hb is his
  obtain ⟨us, vs, rfl, hu, -⟩ := hf.append
  refine ⟨w, hw, ?_⟩
  rw [List.flatten_append, hu.lits]
  exact List.prefix_append w _

theorem not_mem_hit {c : Char} (hc : ∀ is ∈ pat, ∀ i ∈ is, Item.takes i c = false) {m : Text}
    (h : Hits pat m) : c ∉ m := by
  obtain ⟨is, his, segs, hf, rfl⟩ := h
  exact hf.not_mem (hc is his)

theorem takeWhile_front {c : Char} {u : Text} (hu : c ∉ u) (v : Text) :
    (u ++ [c] ++ v).takeWhile (· ≠ c) = u := by
  have hall : ∀ d ∈ u, decide (d ≠ c) = true := by
    intro d hd
    have hne : d ≠ c := fun h => hu (h ▸ hd)
    simpa using hne
  rw [List.append_assoc, List.takeWhile_append_of_pos hall]
  simp

/-- Where a text goes up to its first `c`. -/
theorem closed_unique {c : Char} {u v a b : Text} (hu : c ∉ u) (hv : c ∉ v)
    (he : u ++ [c] ++ a = v ++ [c] ++ b) : u = v ∧ a = b := by
  have htake := congrArg (List.takeWhile (· ≠ c)) he
  rw [takeWhile_front hu, takeWhile_front hv] at htake
  subst htake
  exact ⟨rfl, List.append_cancel_left he⟩

/-- From one place on there is at most one hit. -/
theorem Closed.unique {c : Char} (hc : Closed c pat) {m m' a a' : Text} (h : Hits pat m)
    (h' : Hits pat m') (he : m ++ a = m' ++ a') : m = m' ∧ a = a' := by
  obtain ⟨m₀, rfl, hm⟩ := hc.hit h
  obtain ⟨m₁, rfl, hm'⟩ := hc.hit h'
  obtain ⟨rfl, ha⟩ := closed_unique hm hm' he
  exact ⟨rfl, ha⟩

theorem First.search (hp : Plainly pat) {c : Char} (hc : Closed c pat) {s b m a : Text}
    (h : First pat s b m a) :
    ∃ segs, Library.search pat s = some (b, segs, a) ∧ segs.flatten = m := by
  have hsome := search_isSome hp (b := b) h.hit a
  rw [← h.text] at hsome
  obtain ⟨⟨b', segs, a'⟩, hs⟩ := Option.isSome_iff_exists.mp hsome
  have h' := search_first hp hs
  have hb : b.length = b'.length :=
    Nat.le_antisymm (h.least b' _ a' h'.text h'.hit) (h'.least b m a h.text h.hit)
  have htext := h.text.symm.trans h'.text
  rw [List.append_assoc, List.append_assoc] at htext
  obtain ⟨rfl, hrest⟩ := List.append_inj htext hb
  obtain ⟨rfl, rfl⟩ := hc.unique h.hit h'.hit hrest
  exact ⟨segs, hs, rfl⟩

theorem First.unique {c : Char} (hc : Closed c pat) {s b m a b' m' a' : Text}
    (h : First pat s b m a) (h' : First pat s b' m' a') : b = b' ∧ m = m' ∧ a = a' := by
  have hlen := Nat.le_antisymm (h.least _ _ _ h'.text h'.hit) (h'.least _ _ _ h.text h.hit)
  have htext := h.text.symm.trans h'.text
  rw [List.append_assoc, List.append_assoc] at htext
  obtain ⟨rfl, hrest⟩ := List.append_inj htext hlen
  exact ⟨rfl, hc.unique h.hit h'.hit hrest⟩

/-- Of two ways to cut a text, the one further left leaves the rest of the other. -/
theorem append_split {u v b r : Text} (h : u ++ v = b ++ r) (hl : b.length ≤ u.length) :
    ∃ t, u = b ++ t ∧ r = t ++ v := by
  rcases List.append_eq_append_iff.mp h with ⟨t, rfl, rfl⟩ | ⟨t, rfl, rfl⟩
  · have ht : t = [] := List.length_eq_zero_iff.mp (by simp only [List.length_append] at hl; omega)
    exact ⟨[], by simp [ht], by simp [ht]⟩
  · exact ⟨t, rfl, rfl⟩

/-- Each alternative of the pattern has the word in it. -/
def Has (w : Text) (pat : Pattern) : Prop :=
  ∀ is ∈ pat, ∃ front rest, is = front ++ w.map (fun c => .one (.lit c)) ++ rest

theorem Has.hit {w : Text} (hw : Has w pat) {m : Text} (h : Hits pat m) : occurs w m = true := by
  obtain ⟨is, his, segs, hf, rfl⟩ := h
  obtain ⟨front, rest, rfl⟩ := hw is his
  obtain ⟨us, vs, rfl, hu, hv⟩ := hf.append
  obtain ⟨ps, qs, rfl, hp, hq⟩ := hu.append
  rw [List.flatten_append, List.flatten_append, hq.lits]
  exact occurs_iff.mpr ⟨_, _, rfl⟩

theorem found_iff (hp : Plainly pat) {s : Text} :
    (search pat s).isSome = true ↔ ∃ b m a, s = b ++ m ++ a ∧ Hits pat m := by
  constructor
  · intro h
    obtain ⟨⟨b, segs, a⟩, hs⟩ := Option.isSome_iff_exists.mp h
    have hfirst := search_first hp hs
    exact ⟨b, segs.flatten, a, hfirst.text, hfirst.hit⟩
  · rintro ⟨b, m, a, rfl, hm⟩
    exact search_isSome hp hm a

theorem found_append (hp : Plainly pat) {s : Text} (h : (search pat s).isSome = true)
    (u v : Text) : (search pat (u ++ s ++ v)).isSome = true := by
  obtain ⟨b, m, a, rfl, hm⟩ := (found_iff hp).mp h
  exact (found_iff hp).mpr ⟨u ++ b, m, a ++ v, by simp, hm⟩

/-- Neither behind the character that ends the hits nor behind one that is in none is
a place within a hit. -/
theorem Closed.not_within {c : Char} (hc : Closed c pat) {m₁ m₂ : Text} (h : Hits pat (m₁ ++ m₂))
    (h₁ : m₁ ≠ []) (h₂ : m₂ ≠ []) (b : Text) {d : Char} (hlast : (b ++ m₁).getLast? = some d) :
    d ≠ c ∧ ¬ ∀ is ∈ pat, ∀ i ∈ is, Item.takes i d = false := by
  rw [List.getLast?_append_of_ne_nil _ h₁] at hlast
  have hd := List.mem_of_getLast? hlast
  obtain ⟨m₀, hm₀, hno⟩ := hc.hit h
  constructor
  · rintro rfl
    rcases List.eq_nil_or_concat m₂ with rfl | ⟨m₃, e, rfl⟩
    · exact h₂ rfl
    rw [List.concat_eq_append, ← List.append_assoc] at hm₀
    obtain ⟨rfl, -⟩ := List.append_inj' hm₀ rfl
    exact hno (List.mem_append_left _ hd)
  · intro hnone
    exact not_mem_hit hnone h (List.mem_append_left _ hd)

/-- So what goes in there leaves a pattern that is found found. -/
theorem Closed.found {c : Char} (hc : Closed c pat) (hp : Plainly pat) {p q : Text} {d : Char}
    (hlast : p.getLast? = some d)
    (hd : d = c ∨ ∀ is ∈ pat, ∀ i ∈ is, Item.takes i d = false)
    (h : (search pat (p ++ q)).isSome = true) (x : Text) :
    (search pat (p ++ x ++ q)).isSome = true := by
  obtain ⟨b, m, a, htext, hm⟩ := (found_iff hp).mp h
  rw [List.append_assoc] at htext
  rcases Nat.le_total p.length b.length with hle | hle
  · obtain ⟨t, rfl, rfl⟩ := append_split htext.symm hle
    exact (found_iff hp).mpr ⟨p ++ x ++ t, m, a, by simp, hm⟩
  obtain ⟨m₁, rfl, hrest⟩ := append_split htext hle
  rcases Nat.le_total m.length m₁.length with hin | hin
  · obtain ⟨t, rfl, rfl⟩ := append_split hrest.symm hin
    exact (found_iff hp).mpr ⟨b, m, t ++ x ++ q, by simp, hm⟩
  · obtain ⟨m₂, rfl, rfl⟩ := append_split hrest hin
    by_cases h₁ : m₁ = []
    · exact (found_iff hp).mpr ⟨b ++ x, m₂, a, by simp [h₁], by simpa [h₁] using hm⟩
    by_cases h₂ : m₂ = []
    · exact (found_iff hp).mpr ⟨b, m₁, x ++ a, by simp [h₂], by simpa [h₂] using hm⟩
    obtain ⟨hne, htaken⟩ := hc.not_within hm h₁ h₂ b hlast
    rcases hd with rfl | hd
    · exact absurd rfl hne
    · exact absurd hd htaken

/-- A text that no hit begins in, and that has a character no hit takes before any that
one could end with. -/
theorem Opaque.of {c : Char} (hc : Closed c pat) {words : List Text} (hb : Begins words pat)
    {x : Text} (hw : ∀ w ∈ words, Apart w x) {e z : Text} {d : Char} (hx : x = e ++ d :: z)
    (he : c ∉ e) (hd : ∀ is ∈ pat, ∀ i ∈ is, Item.takes i d = false) : Opaque pat x := by
  intro u v b m a htext hm
  rw [List.append_assoc, List.append_assoc] at htext
  by_cases hout : u.length + x.length ≤ b.length
  · exact .inr hout
  left
  by_contra hlong
  rcases Nat.lt_or_ge b.length u.length with hbu | hub
  · -- a hit from before goes on into the text over `d`, or ends in it before
    obtain ⟨t, rfl, hm'⟩ := append_split htext (Nat.le_of_lt hbu)
    rw [List.length_append] at hlong
    obtain ⟨t', rfl, hx'⟩ := append_split (u := m) hm' (by omega)
    obtain ⟨m₀, hm₀, -⟩ := hc.hit hm
    have hne : t' ≠ [] := by
      intro h
      simp [h] at hlong
    have hlast : c ∈ t' := by
      have hget := congrArg List.getLast? hm₀
      rw [List.getLast?_append_of_ne_nil _ hne, List.getLast?_concat] at hget
      exact List.mem_of_getLast? hget
    have hed : e ++ [d] <+: x ++ v := ⟨z ++ v, by simp [hx]⟩
    have htv : t' <+: x ++ v := ⟨a, hx'.symm⟩
    rcases List.prefix_or_prefix_of_prefix hed htv with hover | hin
    · apply not_mem_hit hd hm
      exact List.mem_append_right t (hover.subset (by simp))
    · rcases List.prefix_concat_iff.mp hin with rfl | hin
      · apply not_mem_hit hd hm
        simp
      · exact he (hin.subset hlast)
  · -- a hit that begins in the text begins with a word
    obtain ⟨t, rfl, hm'⟩ := append_split htext.symm hub
    rw [List.length_append] at hout
    obtain ⟨x', hx', hm'⟩ := append_split hm' (by omega)
    obtain ⟨w, hwords, hpre⟩ := hb.hit hm
    have hne : x' ≠ [] := by
      intro h
      simp [hx', h] at hout
    have hsuffix : x' <:+ x := ⟨t, hx'.symm⟩
    have hprefix : w <+: x' ++ v := by
      rw [← hm']
      exact hpre.trans (List.prefix_append m a)
    rcases List.prefix_or_prefix_of_prefix hprefix (List.prefix_append x' v) with hwx | hxw
    · exact (hw w hwords).notIn (hwx.isInfix.trans hsuffix.isInfix)
    · exact (hw w hwords).notBehind x' hne hsuffix hxw

/-- The same, by the characters up to the first `d`. -/
theorem Opaque.of_until {c : Char} (hc : Closed c pat) {words : List Text} (hb : Begins words pat)
    {x : Text} (hw : ∀ w ∈ words, apart w x = true) {d : Char} (hx : d ∈ x)
    (he : c ∉ x.takeWhile (· ≠ d)) (hd : ∀ is ∈ pat, ∀ i ∈ is, Item.takes i d = false) :
    Opaque pat x := by
  obtain ⟨e, z, rfl, hde⟩ := List.eq_append_cons_of_mem hx
  have htake := takeWhile_front hde z
  rw [List.append_assoc, List.singleton_append] at htake
  rw [htake] at he
  exact .of hc hb (fun w h => .of_apart (hw w h)) rfl he hd

theorem Closed.ne_nil {c : Char} (hc : Closed c pat) {m : Text} (h : Hits pat m) : m ≠ [] := by
  obtain ⟨m₀, rfl, -⟩ := hc.hit h
  simp

section
variable {x u v b m a : Text} (hx : Opaque pat x) (h : First pat (u ++ v) b m a)
include hx h

/-- One put in before it moves it. -/
theorem First.insert_before {c : Char} (hc : Closed c pat) (hl : u.length ≤ b.length) : ∃ t,
    b = u ++ t ∧ v = t ++ m ++ a ∧ First pat (u ++ x ++ v) (u ++ x ++ t) m a := by
  have htext := h.text
  rw [List.append_assoc] at htext
  obtain ⟨t, rfl, hv⟩ := append_split htext.symm hl
  refine ⟨t, rfl, by simp [hv], by simp [hv], h.hit, ?_⟩
  intro b' m' a' htext' hm'
  rcases hx _ _ _ _ _ htext' hm' with hleft | hright
  · rw [List.append_assoc _ x v] at htext'
    obtain ⟨r, hr, -⟩ := append_split htext' (by simpa using hleft)
    have hle := h.least b' m' (r ++ v) (by rw [hr]; simp) hm'
    have hpos := List.length_pos_iff.mpr (hc.ne_nil hm')
    simp only [List.length_append] at hle
    omega
  · rw [List.append_assoc b'] at htext'
    obtain ⟨r, rfl, hr⟩ := append_split htext'.symm (by simpa using hright)
    have hle := h.least (u ++ r) m' a' (by rw [hr]; simp) hm'
    simp only [List.length_append] at hle ⊢
    omega

/-- With a hit of its own behind it, it has the leftmost there. -/
theorem First.put_before {c : Char} (hc : Closed c pat) (hl : u.length ≤ b.length) {m' : Text}
    (hm' : Hits pat m') (a' : Text) : First pat (u ++ x ++ m' ++ a') (u ++ x) m' a' := by
  refine ⟨rfl, hm', ?_⟩
  intro b₁ n a₁ htext hn
  rw [List.append_assoc] at htext
  rcases hx _ _ _ _ _ htext hn with hleft | hright
  · rw [List.append_assoc u] at htext
    obtain ⟨t, rfl, -⟩ := append_split htext (by simpa using hleft)
    have hle := h.least b₁ n (t ++ v) (by simp) hn
    have hpos := List.length_pos_iff.mpr (hc.ne_nil hn)
    simp only [List.length_append] at hl
    omega
  · simpa using hright

end

/-- What follows a closed hit makes no difference for its being the leftmost. -/
theorem First.behind {c : Char} (hc : Closed c pat) {s b m a : Text} (h : First pat s b m a)
    (a' : Text) : First pat (b ++ m ++ a') b m a' := by
  refine ⟨rfl, h.hit, ?_⟩
  intro b₁ m₁ a₁ htext hm₁
  by_contra hlt
  obtain ⟨m₀, rfl, -⟩ := hc.hit h.hit
  obtain ⟨n₀, rfl, hn⟩ := hc.hit hm₁
  -- the other hit ends no later, or has this one's end within it
  rcases Nat.lt_or_ge (b ++ (m₀ ++ [c])).length (b₁ ++ (n₀ ++ [c])).length with hover | hin
  · obtain ⟨r, hr, -⟩ := append_split htext.symm (Nat.le_of_lt hover)
    rw [List.append_assoc] at hr
    obtain ⟨t, rfl, hm⟩ := append_split hr.symm (Nat.le_of_not_le hlt)
    apply hn
    have hlen := congrArg List.length hm
    simp only [List.length_append, List.length_singleton] at hlen hover
    have hshort : (t ++ (m₀ ++ [c])).length ≤ n₀.length := by
      simp only [List.length_append, List.length_singleton]
      omega
    obtain ⟨q, rfl, -⟩ := append_split (r := r) (by rw [hm]; simp) hshort
    simp
  · obtain ⟨r, hr, -⟩ := append_split htext hin
    have hle := h.least b₁ (n₀ ++ [c]) (r ++ a) (by rw [h.text, hr]; simp) hm₁
    exact hlt hle

theorem Fits.count {is : List Item} {segs : List Text} (h : Fits is segs) {c : Char}
    (hc : ∀ i ∈ is, Item.takes i c = Item.is c i) :
    segs.flatten.count c = is.countP (Item.is c) := by
  induction h with
  | nil => rfl
  | @cons i seg is segs hi _ ih =>
    obtain ⟨hhead, htail⟩ := List.forall_mem_cons.mp hc
    rw [List.flatten_cons, List.count_append, ih htail, List.countP_cons, Nat.add_comm]
    congr 1
    cases hic : Item.is c i with
    | true =>
      cases i with
      | one cls =>
        cases cls with
        | lit d =>
          obtain ⟨e, rfl, he⟩ := hi
          have hed : e = d := by simpa [Cls.has] using he
          have hdc : d = c := by simpa [Item.is] using hic
          simp [hed, hdc]
        | _ => cases hic
      | _ => cases hic
    | false =>
      rw [hic] at hhead
      have hno : c ∉ seg := by
        intro hm
        have := hi.takes c hm
        rw [hhead] at this
        cases this
      rw [List.count_eq_zero.mpr hno]
      rfl

/-- Every hit begins with this character and has it equally often. -/
structure Counted (c : Char) (pat : Pattern) : Prop where
  head : ∀ m, Hits pat m → m.head? = some c
  count : ∀ m m', Hits pat m → Hits pat m' → m.count c = m'.count c

/-- One hit put for the leftmost is the leftmost. -/
theorem First.instead {c d : Char} (hc : Closed c pat) (hd : Counted d pat) {s b m a : Text}
    (h : First pat s b m a) {m' : Text} (hm' : Hits pat m') (a' : Text) :
    First pat (b ++ m' ++ a') b m' a' := by
  refine ⟨rfl, hm', ?_⟩
  intro b₁ n a₁ htext hn
  by_contra hlt
  rw [List.append_assoc, List.append_assoc] at htext
  obtain ⟨t, rfl, hna⟩ := append_split htext (Nat.le_of_not_le hlt)
  have ht : t ≠ [] := by
    intro ht
    simp [ht] at hlt
  rcases Nat.lt_or_ge t.length n.length with hover | hin
  · -- it would end with the new hit and begin with one more of `d`
    obtain ⟨n', rfl, hna'⟩ := append_split hna (Nat.le_of_lt hover)
    obtain ⟨n₀, hn₀, hno⟩ := hc.hit hn
    obtain ⟨m₀, rfl, hmo⟩ := hc.hit hm'
    rcases List.eq_nil_or_concat n' with rfl | ⟨n₁, e, rfl⟩
    · simp at hover
    rw [List.concat_eq_append] at hn hn₀ hna'
    rw [← List.append_assoc] at hn₀
    obtain ⟨rfl, he⟩ := List.append_inj' hn₀ rfl
    cases he
    obtain ⟨rfl, -⟩ := closed_unique hmo (fun h => hno (List.mem_append_right _ h)) hna'
    have hcount := hd.count _ _ hn hm'
    have hhead := hd.head _ hn
    rw [List.head?_append_of_ne_nil _ ht] at hhead
    rw [List.count_append] at hcount
    have hzero : t.count d = 0 := by omega
    exact List.count_eq_zero.mp hzero (List.mem_of_head? hhead)
  · obtain ⟨r, rfl, -⟩ := append_split hna.symm hin
    have hle := h.least b₁ n (r ++ m ++ a) (by rw [h.text]; simp) hn
    exact hlt hle

end SwitchLdnZt.Library
