import SwitchLdnZt.Library.PyText

namespace SwitchLdnZt.Library

/-- `str.isspace()` -/
def isSpace (c : Char) : Bool :=
  [9, 10, 11, 12, 13, 28, 29, 30, 31, 32, 0x85, 0xa0, 0x1680, 0x2028, 0x2029, 0x202f, 0x205f,
    0x3000].contains c.toNat || (0x2000 ≤ c.toNat && c.toNat ≤ 0x200a)

/-- The character classes of the patterns. -/
inductive Cls
  | lit (c : Char)
  | space
  | any
  | inline
  | oneOf (cs : List Char)
  | noneOf (cs : List Char)

def Cls.has : Cls → Char → Bool
  | .lit d, c => c == d
  | .space, c => isSpace c
  | .any, _ => true
  | .inline, c => c != '\n'
  | .oneOf cs, c => cs.contains c
  | .noneOf cs, c => !cs.contains c

/-- One piece of a pattern: a class once, any number of times (greedy, or as few
times as will do), or an assertion. -/
inductive Item
  | one (cls : Cls)
  | many (cls : Cls)
  | few (cls : Cls)
  | lineStart
  | lineEnd
  | wordEnd (word : Char → Bool)

/-- What each piece matched, and the text behind the match. -/
abbrev Match := List Text × Text

section
variable (cls : Cls) (next : Option Char → Text → Option Match)

/-- The character before tells `next` whether a line starts there. -/
def takeMany : Option Char → Text → Option (Text × Match)
  | prev, [] => (next prev []).map (fun m => ([], m))
  | prev, c :: cs =>
    if cls.has c then
      match takeMany (some c) cs with
      | some (seg, m) => some (c :: seg, m)
      | none => (next prev (c :: cs)).map (fun m => ([], m))
    else (next prev (c :: cs)).map (fun m => ([], m))

def takeFew : Option Char → Text → Option (Text × Match)
  | prev, [] => (next prev []).map (fun m => ([], m))
  | prev, c :: cs =>
    match next prev (c :: cs) with
    | some m => some ([], m)
    | none =>
      if cls.has c then (takeFew (some c) cs).map (fun (seg, m) => (c :: seg, m)) else none

end

def Match.push (seg : Text) (m : Match) : Match := (seg :: m.1, m.2)

def matchHere : List Item → Option Char → Text → Option Match
  | [], _, s => some ([], s)
  | .one _ :: _, _, [] => none
  | .one cls :: is, _, c :: cs =>
    if cls.has c then (matchHere is (some c) cs).map (Match.push [c]) else none
  | .many cls :: is, prev, s =>
    (takeMany cls (matchHere is) prev s).map (fun (seg, m) => m.push seg)
  | .few cls :: is, prev, s => (takeFew cls (matchHere is) prev s).map (fun (seg, m) => m.push seg)
  | .lineStart :: is, prev, s =>
    if prev = none ∨ prev = some '\n' then (matchHere is prev s).map (Match.push []) else none
  | .lineEnd :: is, prev, s =>
    if s = [] ∨ s.head? = some '\n' then (matchHere is prev s).map (Match.push []) else none
  | .wordEnd word :: is, prev, s =>
    if (prev.map word).getD false ≠ (s.head?.map word).getD false then
      (matchHere is prev s).map (Match.push [])
    else none

/-- The alternatives of a pattern, in the order they are tried. -/
abbrev Pattern := List (List Item)

def matchAny (pat : Pattern) (prev : Option Char) (s : Text) : Option Match :=
  pat.findSome? (fun is => matchHere is prev s)

/-- `re.search`: the text before the leftmost match, and the match. -/
def searchFrom (pat : Pattern) : Option Char → Text → Option (Text × Match)
  | prev, [] => (matchAny pat prev []).map (fun m => ([], m))
  | prev, c :: cs =>
    match matchAny pat prev (c :: cs) with
    | some m => some ([], m)
    | none => (searchFrom pat (some c) cs).map (fun (b, m) => (c :: b, m))

def search (pat : Pattern) (s : Text) : Option (Text × Match) := searchFrom pat none s

/-- `re.subn(pat, repl, s, count=1)`; `repl` sees what the pieces matched. -/
def subFirst (pat : Pattern) (repl : List Text → Text) (s : Text) : Text × Nat :=
  match search pat s with
  | some (b, segs, rest) => (b ++ repl segs ++ rest, 1)
  | none => (s, 0)

/-- A stretch of a pattern that stands for itself. -/
def lits (s : String) : List Item := (text s).map (fun c => .one (.lit c))

/-- `\s*`, `\s+` and `.*?` with the dot matching line ends -/
def ws : List Item := [.many .space]
def ws1 : List Item := [.one .space, .many .space]
def anyFew : List Item := [.few .any]

/-- The characters a piece can match. -/
def Item.takes : Item → Char → Bool
  | .one cls | .many cls | .few cls => cls.has
  | .lineStart | .lineEnd | .wordEnd _ => fun _ => false

/-- What a piece can match. -/
def Item.Fits : Item → Text → Prop
  | .one cls, seg => ∃ c, seg = [c] ∧ cls.has c = true
  | .many cls, seg | .few cls, seg => ∀ c ∈ seg, cls.has c = true
  | .lineStart, seg | .lineEnd, seg | .wordEnd _, seg => seg = []

def Fits (is : List Item) (segs : List Text) : Prop := List.Forall₂ Item.Fits is segs

theorem Item.Fits.takes {i : Item} {seg : Text} (h : i.Fits seg) :
    ∀ c ∈ seg, i.takes c = true := by
  cases i with
  | one cls =>
    obtain ⟨d, rfl, hd⟩ := h
    intro c hc
    rwa [List.mem_singleton.mp hc]
  | many cls => exact h
  | few cls => exact h
  | lineStart => exact fun c hc => by rw [h] at hc; cases hc
  | lineEnd => exact fun c hc => by rw [h] at hc; cases hc
  | wordEnd word => exact fun c hc => by rw [h] at hc; cases hc

theorem takeMany_spec {cls : Cls} {next : Option Char → Text → Option Match} {prev : Option Char}
    {s seg : Text} {m : Match} (h : takeMany cls next prev s = some (seg, m)) :
    (∀ c ∈ seg, cls.has c = true) ∧
      ∃ prev' s', next prev' s' = some m ∧ s = seg ++ s' := by
  induction s generalizing prev seg with
  | nil =>
    obtain ⟨m', hm, he⟩ := Option.map_eq_some_iff.mp h
    cases he
    exact ⟨by simp, prev, [], hm, rfl⟩
  | cons c cs ih =>
    have stopped (hm : (next prev (c :: cs)).map (fun m => (([] : Text), m)) = some (seg, m)) :
        (∀ d ∈ seg, cls.has d = true) ∧
          ∃ prev' s', next prev' s' = some m ∧ c :: cs = seg ++ s' := by
      obtain ⟨m', hm, he⟩ := Option.map_eq_some_iff.mp hm
      cases he
      exact ⟨by simp, prev, c :: cs, hm, rfl⟩
    unfold takeMany at h
    split at h
    next hc =>
      split at h
      next seg' m' hl =>
        cases h
        obtain ⟨ha, prev', s', hn, rfl⟩ := ih hl
        refine ⟨?_, prev', s', hn, rfl⟩
        intro d hd
        rcases List.mem_cons.mp hd with rfl | hd
        · exact hc
        · exact ha d hd
      next => exact stopped h
    next => exact stopped h

theorem takeFew_spec {cls : Cls} {next : Option Char → Text → Option Match} {prev : Option Char}
    {s seg : Text} {m : Match} (h : takeFew cls next prev s = some (seg, m)) :
    (∀ c ∈ seg, cls.has c = true) ∧
      ∃ prev' s', next prev' s' = some m ∧ s = seg ++ s' := by
  induction s generalizing prev seg with
  | nil =>
    obtain ⟨m', hm, he⟩ := Option.map_eq_some_iff.mp h
    cases he
    exact ⟨by simp, prev, [], hm, rfl⟩
  | cons c cs ih =>
    unfold takeFew at h
    split at h
    next m' hm =>
      cases h
      exact ⟨by simp, prev, c :: cs, hm, rfl⟩
    next =>
      split at h
      next hc =>
        obtain ⟨⟨seg', m'⟩, hl, he⟩ := Option.map_eq_some_iff.mp h
        cases he
        obtain ⟨ha, prev', s', hn, rfl⟩ := ih hl
        refine ⟨?_, prev', s', hn, rfl⟩
        intro d hd
        rcases List.mem_cons.mp hd with rfl | hd
        · exact hc
        · exact ha d hd
      next => cases h

/-- A match is a stretch of the text, cut into what its pieces matched. -/
theorem matchHere_spec {is : List Item} {prev : Option Char} {s rest : Text} {segs : List Text}
    (h : matchHere is prev s = some (segs, rest)) : s = segs.flatten ++ rest ∧ Fits is segs := by
  induction is generalizing prev s segs with
  | nil =>
    cases h
    exact ⟨rfl, .nil⟩
  | cons i is ih =>
    have assertion (hm : (matchHere is prev s).map (Match.push []) = some (segs, rest)) :
        s = segs.flatten ++ rest ∧ ∃ segs', segs = [] :: segs' ∧ Fits is segs' := by
      obtain ⟨⟨segs', rest'⟩, hm', he⟩ := Option.map_eq_some_iff.mp hm
      cases he
      obtain ⟨rfl, hf⟩ := ih hm'
      exact ⟨rfl, segs', rfl, hf⟩
    cases i with
    | one cls =>
      cases s with
      | nil => cases h
      | cons c cs =>
        unfold matchHere at h
        split at h
        next hc =>
          obtain ⟨⟨segs', rest'⟩, hm, he⟩ := Option.map_eq_some_iff.mp h
          cases he
          obtain ⟨rfl, hf⟩ := ih hm
          exact ⟨rfl, .cons ⟨c, rfl, hc⟩ hf⟩
        next => cases h
    | many cls =>
      obtain ⟨⟨seg, segs', rest'⟩, hm, he⟩ := Option.map_eq_some_iff.mp h
      cases he
      obtain ⟨ha, prev', s', hn, rfl⟩ := takeMany_spec hm
      obtain ⟨rfl, hf⟩ := ih hn
      exact ⟨by simp, .cons ha hf⟩
    | few cls =>
      obtain ⟨⟨seg, segs', rest'⟩, hm, he⟩ := Option.map_eq_some_iff.mp h
      cases he
      obtain ⟨ha, prev', s', hn, rfl⟩ := takeFew_spec hm
      obtain ⟨rfl, hf⟩ := ih hn
      exact ⟨by simp, .cons ha hf⟩
    | lineStart =>
      unfold matchHere at h
      split at h
      · obtain ⟨hs, segs', rfl, hf⟩ := assertion h
        exact ⟨hs, .cons rfl hf⟩
      · cases h
    | lineEnd =>
      unfold matchHere at h
      split at h
      · obtain ⟨hs, segs', rfl, hf⟩ := assertion h
        exact ⟨hs, .cons rfl hf⟩
      · cases h
    | wordEnd word =>
      unfold matchHere at h
      split at h
      · obtain ⟨hs, segs', rfl, hf⟩ := assertion h
        exact ⟨hs, .cons rfl hf⟩
      · cases h

theorem searchFrom_spec {pat : Pattern} {prev : Option Char} {s b rest : Text} {segs : List Text}
    (h : searchFrom pat prev s = some (b, segs, rest)) :
    s = b ++ segs.flatten ++ rest ∧ ∃ is ∈ pat, Fits is segs := by
  have here {prev : Option Char} {s : Text} (hm : matchAny pat prev s = some (segs, rest)) :
      s = segs.flatten ++ rest ∧ ∃ is ∈ pat, Fits is segs := by
    obtain ⟨is, his, hm⟩ := List.exists_of_findSome?_eq_some hm
    obtain ⟨hs, hf⟩ := matchHere_spec hm
    exact ⟨hs, is, his, hf⟩
  induction s generalizing prev b with
  | nil =>
    obtain ⟨m, hm, he⟩ := Option.map_eq_some_iff.mp h
    cases he
    exact here hm
  | cons c cs ih =>
    unfold searchFrom at h
    split at h
    next m hm =>
      cases h
      exact here hm
    next =>
      obtain ⟨⟨b', m⟩, hm, he⟩ := Option.map_eq_some_iff.mp h
      cases he
      obtain ⟨rfl, hf⟩ := ih hm
      exact ⟨rfl, hf⟩

/-- What a text does not have, its parts around a hit do not have. -/
theorem search_clean {pat : Pattern} {c : Char} {s b a : Text} {segs : List Text}
    (h : search pat s = some (b, segs, a)) (hs : c ∉ s) : c ∉ b ∧ c ∉ a := by
  rw [(searchFrom_spec h).1] at hs
  simp only [List.mem_append, not_or] at hs
  exact ⟨hs.1.1, hs.2⟩

/-- The search misses no position. -/
theorem searchFrom_isSome {pat : Pattern} (a : Text) {s : Text}
    (h : ∀ prev, (matchAny pat prev s).isSome = true) (prev : Option Char) :
    (searchFrom pat prev (a ++ s)).isSome = true := by
  induction a generalizing prev with
  | nil =>
    obtain ⟨m, hm⟩ := Option.isSome_iff_exists.mp (h prev)
    cases s with
    | nil => simp [searchFrom, hm]
    | cons c cs => simp [searchFrom, hm]
  | cons c a ih =>
    rw [List.cons_append, searchFrom]
    split
    · rfl
    · simpa using ih (some c)

theorem takeMany_isSome {cls : Cls} {next : Option Char → Text → Option Match} {seg s : Text}
    (hseg : ∀ c ∈ seg, cls.has c = true) (h : ∀ prev, (next prev s).isSome = true)
    (prev : Option Char) : (takeMany cls next prev (seg ++ s)).isSome = true := by
  induction seg generalizing prev with
  | nil =>
    rw [List.nil_append]
    cases s with
    | nil => simpa [takeMany] using h prev
    | cons c cs =>
      unfold takeMany
      split
      · split
        · rfl
        · simpa using h prev
      · simpa using h prev
  | cons c seg ih =>
    have hrest := ih (fun d hd => hseg d (List.mem_cons_of_mem _ hd)) (some c)
    obtain ⟨m, hm⟩ := Option.isSome_iff_exists.mp hrest
    rw [List.cons_append, takeMany, if_pos (hseg c List.mem_cons_self), hm]
    rfl

theorem matchHere_many_isSome {cls : Cls} {is : List Item} {seg s : Text}
    (hseg : ∀ c ∈ seg, cls.has c = true) (h : ∀ prev, (matchHere is prev s).isSome = true)
    (prev : Option Char) : (matchHere (.many cls :: is) prev (seg ++ s)).isSome = true := by
  rw [matchHere, Option.isSome_map]
  exact takeMany_isSome hseg h prev

theorem matchHere_lits_isSome (w : Text) {is : List Item} {s : Text}
    (h : ∀ prev, (matchHere is prev s).isSome = true) (prev : Option Char) :
    (matchHere (w.map (fun c => .one (.lit c)) ++ is) prev (w ++ s)).isSome = true := by
  induction w generalizing prev with
  | nil => exact h prev
  | cons c w ih =>
    rw [List.map_cons, List.cons_append, List.cons_append, matchHere,
      if_pos (by simp [Cls.has]), Option.isSome_map]
    exact ih (some c)

/-- Nothing of the match is a character that no piece of the pattern takes. -/
theorem Fits.not_mem {is : List Item} {segs : List Text} (h : Fits is segs) {c : Char}
    (hc : ∀ i ∈ is, Item.takes i c = false) : c ∉ segs.flatten := by
  induction h with
  | nil => simp
  | @cons i seg is segs hi _ ih =>
    intro hm
    rw [List.flatten_cons, List.mem_append] at hm
    rcases hm with hm | hm
    · have := hi.takes c hm
      rw [hc i List.mem_cons_self] at this
      cases this
    · exact ih (fun j hj => hc j (List.mem_cons_of_mem _ hj)) hm

/-- A character that a pattern asks for is in the match. -/
theorem Fits.lit_mem {is : List Item} {segs : List Text} (h : Fits is segs) {c : Char}
    (hc : .one (.lit c) ∈ is) : c ∈ segs.flatten := by
  induction h with
  | nil => cases hc
  | @cons i seg is segs hi _ ih =>
    rw [List.flatten_cons, List.mem_append]
    rcases List.mem_cons.mp hc with rfl | hc
    · obtain ⟨d, rfl, hd⟩ := hi
      have hcd : d = c := by simpa [Cls.has] using hd
      exact .inl (by rw [hcd]; exact List.mem_cons_self)
    · exact .inr (ih hc)

theorem subFirst_count (pat : Pattern) (repl : List Text → Text) (s : Text) :
    (subFirst pat repl s).2 = if (search pat s).isSome then 1 else 0 := by
  unfold subFirst
  cases search pat s <;> rfl

/-- What a substitution does to the number of such a character. -/
theorem count_subFirst {pat : Pattern} {c : Char}
    (hc : ∀ is ∈ pat, ∀ i ∈ is, Item.takes i c = false) (new s : Text) :
    (subFirst pat (fun _ => new) s).1.count c =
      s.count c + (subFirst pat (fun _ => new) s).2 * new.count c := by
  unfold subFirst
  cases h : search pat s with
  | none => simp
  | some m =>
    obtain ⟨b, segs, rest⟩ := m
    obtain ⟨rfl, is, his, hf⟩ := searchFrom_spec h
    have hz : segs.flatten.count c = 0 := List.count_eq_zero.mpr (hf.not_mem (hc is his))
    simp only [List.count_append, hz]
    omega

end SwitchLdnZt.Library
