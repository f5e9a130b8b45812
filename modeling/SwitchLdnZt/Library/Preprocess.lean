import SwitchLdnZt.Library.CTokens

namespace SwitchLdnZt.Library.Preprocess
open CTokens

/-- A line that ends in a backslash goes on in the next one. -/
def unsplice : Text → Text
  | [] => []
  | '\\' :: '\n' :: cs => unsplice cs
  | c :: cs => c :: unsplice cs

/-- What `#ifdef` or `#if` asks. -/
inductive Cond
  | defined (name : Text)
  | holds (e : List Text)
  deriving DecidableEq

/-- The directives that open, turn and close a conditional group. -/
inductive Conditional
  | opens (wanted : Bool) (cond : Cond)
  | elif (cond : Cond)
  | els
  | endif
  deriving DecidableEq

/-- A directive's name and what follows it on the line. -/
def directive (l : Text) : Option (Text × Text) :=
  match l.dropWhile isBlank with
  | '#' :: rest =>
    let rest := rest.dropWhile isBlank
    some (rest.takeWhile isWord, rest.dropWhile isWord)
  | _ => none

/-- Anything behind `#else` or `#endif` on its line is discarded. -/
def conditional (l : Text) : Option Conditional :=
  match directive l with
  | none => none
  | some (name, rest) =>
    if name = text "ifdef" then some (.opens true (.defined ((tokens rest).headD [])))
    else if name = text "ifndef" then some (.opens false (.defined ((tokens rest).headD [])))
    else if name = text "if" then some (.opens true (.holds (tokens rest)))
    else if name = text "elif" then some (.elif (.holds (tokens rest)))
    else if name = text "else" then some .els
    else if name = text "endif" then some .endif
    else none

/-- A group is read, waits for a branch to be taken, or is done with that. -/
inductive Branch
  | live
  | waiting
  | done
  deriving DecidableEq

/-- What the macros say, by the tokens read so far; `name` is not defined at any time. -/
structure Macros (name : Text) where
  answer : List Text → Cond → Bool
  undefined : ∀ seen, answer seen (.defined name) = false

/-- The groups that are open, the inner ones first, and the lines kept. -/
structure Scan where
  branches : List Branch
  kept : Text

def Scan.active (st : Scan) : Bool := st.branches.all (· = .live)

variable {name : Text} (m : Macros name)

def Scan.turn (st : Scan) (cond : Option Cond) : Scan :=
  match st.branches with
  | [] => st
  | .waiting :: outer =>
    let taken := cond.all (fun cond => m.answer (tokens st.kept) cond)
    { st with branches := (if taken then .live else .waiting) :: outer }
  | _ :: outer => { st with branches := .done :: outer }

def Scan.line (st : Scan) (l : Text) : Scan :=
  match conditional l with
  | some (.opens wanted cond) =>
    let branch :=
      if st.active then (if m.answer (tokens st.kept) cond = wanted then .live else .waiting)
      else .done
    { st with branches := branch :: st.branches }
  | some (.elif cond) => st.turn m (some cond)
  | some .els => st.turn m none
  | some .endif => { st with branches := st.branches.tail }
  | none => if st.active then { st with kept := st.kept ++ (l ++ ['\n']) } else st

def scan (st : Scan) (s : Text) : Scan := (s.splitOn '\n').foldl (Scan.line m) st

/-- The tokens of a text without spliced lines. -/
def meaning (s : Text) : List Text := tokens (scan m ⟨[], []⟩ s).kept

/-- The tokens left of a file when its conditional directives are processed. -/
def process (s : Text) : List Text := meaning m (unsplice s)

/-- Whole lines, each with its line end. -/
def rows (ls : List Text) : Text := ls.flatMap (· ++ ['\n'])

/-- What is left when the rest of the line is dropped. -/
def dropRest (t : Text) : Text := t.dropWhile (· ≠ '\n')

def ifdef (name : Text) : Text := text "#ifdef " ++ name

/-- Lines that are read only where `name` is defined. -/
def guarded (name : Text) (body : List Text) : Text := rows (ifdef name :: body) ++ text "#endif"

/-- How many groups are open behind the lines; none when they turn or close one
that they did not open. -/
def depths : Nat → List Text → Option Nat
  | d, [] => some d
  | d, l :: ls =>
    match conditional l with
    | some (.opens _ _) => depths (d + 1) ls
    | some (.elif _) | some .els => if d = 0 then none else depths d ls
    | some .endif => if d = 0 then none else depths (d - 1) ls
    | none => depths d ls

/-- The lines close the groups that they open, and no other. -/
def SelfContained (ls : List Text) : Prop := depths 0 ls = some 0

instance (ls : List Text) : Decidable (SelfContained ls) := inferInstanceAs (Decidable (_ = _))

theorem unsplice_append {a b : Text} (h : a.getLast? ≠ some '\\' ∨ b.head? ≠ some '\n') :
    unsplice (a ++ b) = unsplice a ++ unsplice b := by
  induction a using unsplice.induct with
  | case1 => rfl
  | case2 cs ih =>
    rw [List.cons_append, List.cons_append, unsplice, unsplice]
    apply ih
    apply h.imp_left
    intro hl
    cases cs with
    | nil => simp
    | cons d ds => simpa [List.getLast?_cons_cons] using hl
  | case3 c cs hno ih =>
    have hcs : unsplice (cs ++ b) = unsplice cs ++ unsplice b := by
      cases cs with
      | nil => rfl
      | cons d ds =>
        apply ih
        apply h.imp_left
        intro hl
        rwa [List.getLast?_cons_cons] at hl
    rw [List.cons_append, unsplice, unsplice, hcs, List.cons_append]
    · exact hno
    · intro cs' hc hcs'
      subst hc
      cases cs with
      | nil =>
        rcases h with h | h
        · exact h rfl
        · rw [List.nil_append] at hcs'
          exact h (by rw [hcs', List.head?_cons])
      | cons d ds =>
        rw [List.cons_append, List.cons.injEq] at hcs'
        exact hno ds rfl (by rw [hcs'.1])

theorem scan_newline (st : Scan) (a b : Text) :
    scan m st (a ++ '\n' :: b) = scan m (scan m st a) b := by
  rw [scan, List.splitOn_append_cons_self, List.foldl_append]
  rfl

theorem scan_line {l : Text} (h : '\n' ∉ l) (st : Scan) : scan m st l = st.line m l := by
  rw [scan, List.splitOn_eq_singleton h]
  rfl

theorem scan_rows {ls : List Text} (h : ∀ l ∈ ls, '\n' ∉ l) (st : Scan) (t : Text) :
    scan m st (rows ls ++ t) = scan m (ls.foldl (Scan.line m) st) t := by
  induction ls generalizing st with
  | nil => rfl
  | cons l ls ih =>
    obtain ⟨hl, hls⟩ := List.forall_mem_cons.mp h
    have hsplit : rows (l :: ls) ++ t = l ++ '\n' :: (rows ls ++ t) := by simp [rows]
    rw [hsplit, scan_newline, scan_line m hl, ih hls, List.foldl_cons]

/-- Outside the branches taken, lines that turn nothing do nothing. -/
theorem foldl_inactive {ls : List Text} (h : ∀ l ∈ ls, conditional l = none) {st : Scan}
    (hst : st.active = false) : ls.foldl (Scan.line m) st = st := by
  induction ls with
  | nil => rfl
  | cons l ls ih =>
    obtain ⟨hl, hls⟩ := List.forall_mem_cons.mp h
    have hline : st.line m l = st := by simp [Scan.line, hl, hst]
    rw [List.foldl_cons, hline, ih hls]

/-- The branch that a group for a macro not defined begins with. -/
def Scan.untaken (st : Scan) : Scan :=
  { st with branches := (if st.active then .waiting else .done) :: st.branches }

theorem untaken_inactive (st : Scan) : st.untaken.active = false := by
  unfold Scan.untaken
  generalize st.active = live
  cases live <;> rfl

section
variable {first close : Text} (hfirst : conditional first = some (.opens true (.defined name)))
  (hclose : conditional close = some .endif)
include hfirst

theorem line_untaken (st : Scan) : st.line m first = st.untaken := by
  simp [Scan.line, Scan.untaken, hfirst, m.undefined]

include hclose

/-- A group for a macro that is not defined leaves no trace. -/
theorem skip_group {body : List Text} (hbody : ∀ l ∈ body, conditional l = none) (st : Scan) :
    (first :: (body ++ [close])).foldl (Scan.line m) st = st := by
  have hend : st.untaken.line m close = st := by simp [Scan.line, Scan.untaken, hclose]
  rw [List.foldl_cons, line_untaken m hfirst, List.foldl_append,
    foldl_inactive m hbody (untaken_inactive st), List.foldl_cons, List.foldl_nil, hend]

end

/-- Two scans that differ by one branch behind the `d` inner groups, which does not
change what is read. -/
structure Within (b : Branch) (outer : List Branch) (d : Nat) (st st' : Scan) : Prop where
  kept : st'.kept = st.kept
  groups : ∃ inner : List Branch, inner.length = d ∧ st.branches = inner ++ outer ∧
    st'.branches = inner ++ b :: outer

section
variable {b : Branch} {outer : List Branch} (hb : b = .live ∨ outer.all (· = .live) = false)
include hb

theorem Within.active {d : Nat} {st st' : Scan} (h : Within b outer d st st') :
    st'.active = st.active := by
  obtain ⟨inner, -, hg, hg'⟩ := h.groups
  rw [Scan.active, Scan.active, hg, hg', List.all_append, List.all_append, List.all_cons]
  rcases hb with rfl | hb
  · simp
  · rw [hb, Bool.and_false]

omit hb in
theorem Within.turn {d : Nat} {st st' : Scan} (h : Within b outer (d + 1) st st')
    (cond : Option Cond) : Within b outer (d + 1) (st.turn m cond) (st'.turn m cond) := by
  obtain ⟨inner, hd, hg, hg'⟩ := h.groups
  obtain ⟨x, inner, rfl⟩ := List.exists_cons_of_length_eq_add_one hd
  rw [List.cons_append] at hg hg'
  have hlen : inner.length = d := by simpa using hd
  cases x with
  | live =>
    exact ⟨by simp [Scan.turn, hg, hg', h.kept], .done :: inner, by simp [hlen],
      by simp [Scan.turn, hg], by simp [Scan.turn, hg']⟩
  | done =>
    exact ⟨by simp [Scan.turn, hg, hg', h.kept], .done :: inner, by simp [hlen],
      by simp [Scan.turn, hg], by simp [Scan.turn, hg']⟩
  | waiting =>
    refine ⟨by simp [Scan.turn, hg, hg', h.kept],
      (if cond.all (fun cond => m.answer (tokens st.kept) cond) then .live else .waiting) :: inner,
      by simp [hlen], by simp [Scan.turn, hg], by simp [Scan.turn, hg', h.kept]⟩

/-- Lines that keep to their own groups do the same within one group more. -/
theorem Within.foldl {ls : List Text} {d k : Nat} {st st' : Scan} (h : Within b outer d st st')
    (hd : depths d ls = some k) :
    Within b outer k (ls.foldl (Scan.line m) st) (ls.foldl (Scan.line m) st') := by
  induction ls generalizing d st st' with
  | nil =>
    cases hd
    exact h
  | cons l ls ih =>
    have hactive := h.active hb
    obtain ⟨inner, hlen, hg, hg'⟩ := h.groups
    unfold depths at hd
    rw [List.foldl_cons, List.foldl_cons]
    split at hd
    next wanted cond hc =>
      refine ih ⟨by simp [Scan.line, hc, h.kept], ?_⟩ hd
      refine ⟨(st.line m l).branches.headD .live :: inner, by simp [hlen], ?_, ?_⟩
      · simp [Scan.line, hc, hg]
      · simp [Scan.line, hc, hg', hactive, h.kept]
    next cond hc =>
      obtain ⟨d, rfl⟩ : ∃ n, d = n + 1 := ⟨d - 1, by
        split at hd
        · cases hd
        · omega⟩
      rw [if_neg (by omega)] at hd
      have hturn := h.turn m (some cond)
      exact ih (by simpa [Scan.line, hc] using hturn) hd
    next hc =>
      obtain ⟨d, rfl⟩ : ∃ n, d = n + 1 := ⟨d - 1, by
        split at hd
        · cases hd
        · omega⟩
      rw [if_neg (by omega)] at hd
      have hturn := h.turn m none
      exact ih (by simpa [Scan.line, hc] using hturn) hd
    next hc =>
      split at hd
      · cases hd
      next hne =>
        have hpos : 0 < inner.length := by omega
        obtain ⟨x, inner, rfl⟩ := List.exists_cons_of_ne_nil (List.ne_nil_of_length_pos hpos)
        refine ih ⟨by simp [Scan.line, hc, h.kept], inner, ?_, ?_, ?_⟩ hd
        · simp at hlen
          omega
        · simp [Scan.line, hc, hg]
        · simp [Scan.line, hc, hg']
    next hc =>
      refine ih ⟨?_, inner, hlen, ?_, ?_⟩ hd
      · simp only [Scan.line, hc, hactive]
        split <;> simp [h.kept]
      · simp only [Scan.line, hc]
        split <;> simp [hg]
      · simp only [Scan.line, hc]
        split <;> simp [hg']

end

/-- Where the macro is not defined a group is what stands in its other branch. -/
theorem else_group {first els close : Text}
    (hfirst : conditional first = some (.opens true (.defined name)))
    (hels : conditional els = some .els) (hclose : conditional close = some .endif)
    {body ls : List Text} (hbody : ∀ l ∈ body, conditional l = none) (hls : SelfContained ls)
    (st : Scan) :
    (first :: (body ++ els :: (ls ++ [close]))).foldl (Scan.line m) st =
      ls.foldl (Scan.line m) st := by
  let b : Branch := if st.active then .live else .done
  let st' : Scan := { st with branches := b :: st.branches }
  have hb : b = .live ∨ st.branches.all (· = .live) = false := by
    cases h : st.active with
    | true => exact .inl (by simp [b, h])
    | false => exact .inr h
  have hturn : st.untaken.line m els = st' := by
    cases h : st.active <;> simp [Scan.line, hels, Scan.untaken, Scan.turn, h, st', b]
  have hstart : Within b st.branches 0 st st' := ⟨rfl, [], rfl, rfl, rfl⟩
  obtain ⟨hkept, inner, hlen, hg, hg'⟩ := hstart.foldl m hb hls
  obtain rfl : inner = [] := List.length_eq_zero_iff.mp hlen
  have hend : (ls.foldl (Scan.line m) st').line m close = ls.foldl (Scan.line m) st := by
    rw [Scan.line, hclose]
    simp only [hg', hkept, List.nil_append, List.tail_cons]
    rw [List.nil_append] at hg
    rw [← hg]
  rw [List.foldl_cons, line_untaken m hfirst, List.foldl_append,
    foldl_inactive m hbody (untaken_inactive st), List.foldl_cons, hturn, List.foldl_append,
    List.foldl_cons, List.foldl_nil, hend]

/-- Two scans that differ in the blanks one line kept begins with. -/
structure Alike (st st' : Scan) : Prop where
  branches : st'.branches = st.branches
  kept : ∃ x p q z, WholeLines x ∧ (∀ c ∈ p, isBlank c = true) ∧ (∀ c ∈ q, isBlank c = true) ∧
    st.kept = x ++ p ++ z ∧ st'.kept = x ++ q ++ z

theorem Alike.tokens {st st' : Scan} (h : Alike st st') :
    CTokens.tokens st'.kept = CTokens.tokens st.kept := by
  obtain ⟨x, p, q, z, hx, hp, hq, hk, hk'⟩ := h.kept
  rw [hk, hk']
  exact tokens_indent hx hq hp z

theorem Alike.turn {st st' : Scan} (h : Alike st st') (cond : Option Cond) :
    Alike (st.turn m cond) (st'.turn m cond) := by
  have htokens := h.tokens
  unfold Scan.turn
  rw [h.branches]
  split
  · exact h
  · exact ⟨by simp [htokens], h.kept⟩
  · exact ⟨rfl, h.kept⟩

theorem Alike.line {st st' : Scan} (h : Alike st st') (l : Text) :
    Alike (st.line m l) (st'.line m l) := by
  have htokens := h.tokens
  have hactive : st'.active = st.active := by rw [Scan.active, Scan.active, h.branches]
  unfold Scan.line
  split
  · exact ⟨by simp [htokens, hactive, h.branches], h.kept⟩
  · exact h.turn m _
  · exact h.turn m _
  · exact ⟨by simp [h.branches], h.kept⟩
  · rw [hactive]
    split
    · obtain ⟨x, p, q, z, hx, hp, hq, hk, hk'⟩ := h.kept
      refine ⟨h.branches, x, p, q, z ++ (l ++ ['\n']), hx, hp, hq, ?_, ?_⟩
      · simp [hk]
      · simp [hk']
    · exact h

theorem Alike.foldl {st st' : Scan} (h : Alike st st') (ls : List Text) :
    Alike (ls.foldl (Scan.line m) st) (ls.foldl (Scan.line m) st') := by
  induction ls generalizing st st' with
  | nil => exact h
  | cons l ls ih => exact ih (h.line m l)

theorem conditional_indent {p : Text} (hp : ∀ c ∈ p, isBlank c = true) (l : Text) :
    conditional (p ++ l) = conditional l := by
  have hdrop : (p ++ l).dropWhile isBlank = l.dropWhile isBlank :=
    List.dropWhile_append_of_pos hp
  rw [conditional, conditional, directive, directive, hdrop]

theorem splitOn_append {p : Text} (hp : '\n' ∉ p) (t : Text) :
    ∃ l ls, t.splitOn '\n' = l :: ls ∧ (p ++ t).splitOn '\n' = (p ++ l) :: ls := by
  induction p with
  | nil =>
    obtain ⟨l, ls, h⟩ := List.exists_cons_of_ne_nil (List.splitOn_ne_nil '\n' t)
    exact ⟨l, ls, h, h⟩
  | cons c p ih =>
    obtain ⟨l, ls, h, h'⟩ := ih (fun hm => hp (List.mem_cons_of_mem _ hm))
    have hc : (c == '\n') = false := by
      rw [beq_eq_false_iff_ne]
      intro he
      cases he
      exact hp List.mem_cons_self
    refine ⟨l, ls, h, ?_⟩
    rw [List.cons_append, List.splitOn_cons_eq_if_modifyHead, hc, h']
    rfl

theorem blank_inline {p : Text} (hp : ∀ c ∈ p, isBlank c = true) : '\n' ∉ p :=
  fun h => absurd (hp _ h) (by decide)

/-- Blanks before a line change nothing that comes of it. -/
theorem scan_indent {st : Scan} (hst : WholeLines st.kept) {p q : Text}
    (hp : ∀ c ∈ p, isBlank c = true) (hq : ∀ c ∈ q, isBlank c = true) (t : Text) :
    tokens (scan m st (p ++ t)).kept = tokens (scan m st (q ++ t)).kept := by
  obtain ⟨l, ls, h, hpt⟩ := splitOn_append (blank_inline hp) t
  obtain ⟨l', ls', h', hqt⟩ := splitOn_append (blank_inline hq) t
  rw [h] at h'
  cases h'
  have hfirst : Alike (st.line m (p ++ l)) (st.line m (q ++ l)) := by
    have hsame : Alike st st := ⟨rfl, st.kept, [], [], [], hst, by simp, by simp, by simp, by simp⟩
    unfold Scan.line
    rw [conditional_indent hp, conditional_indent hq]
    split
    · exact ⟨rfl, hsame.kept⟩
    · exact hsame.turn m _
    · exact hsame.turn m _
    · exact ⟨rfl, hsame.kept⟩
    · split
      · exact ⟨rfl, st.kept, p, q, l ++ ['\n'], hst, hp, hq, by simp, by simp⟩
      · exact hsame
  rw [scan, scan, hpt, hqt, List.foldl_cons, List.foldl_cons]
  exact (hfirst.foldl m ls).tokens.symm

theorem wholeLines_append {s l : Text} : WholeLines (s ++ (l ++ ['\n'])) :=
  .inr ⟨s ++ l, by simp⟩

theorem line_wholeLines {st : Scan} (h : WholeLines st.kept) (l : Text) :
    WholeLines (st.line m l).kept := by
  unfold Scan.line Scan.turn
  split
  · exact h
  · split <;> exact h
  · split <;> exact h
  · exact h
  · split
    · exact wholeLines_append
    · exact h

end SwitchLdnZt.Library.Preprocess
