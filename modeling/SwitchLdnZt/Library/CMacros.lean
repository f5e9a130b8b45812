import SwitchLdnZt.Library.CExpr
import SwitchLdnZt.Library.Insertion

namespace SwitchLdnZt.Library.CMacros
open CTokens CExpr Preprocess

def inBlock : Lexing → Bool
  | .blockComment _ => true
  | _ => false

/-- The lines of tokens that have ended, what the line being read has so far, and
the lexer. -/
structure Reader where
  done : List (List Text)
  line : List Text
  lexing : Lexing

def Reader.step (r : Reader) (c : Char) : Reader :=
  let (l, ts) := r.lexing.step c
  -- a block comment goes on over the end of a line
  if c = '\n' ∧ inBlock r.lexing = false then ⟨r.done ++ [r.line ++ ts], [], l⟩
  else ⟨r.done, r.line ++ ts, l⟩

def Reader.read (r : Reader) (s : Text) : Reader := s.foldl Reader.step r

def Reader.lines (r : Reader) : List (List Text) := r.done ++ [r.line ++ r.lexing.flush]

/-- Nothing but blanks and comments stands on the line so far. -/
def Reader.atStart (r : Reader) : Bool :=
  match r.line, r.lexing with
  | [], .between => true
  | _, _ => false

def Reader.start : Reader := ⟨[], [], .between⟩

/-- The lines of a text as the preprocessor sees them. -/
def tokenLines (s : Text) : List (List Text) := (Reader.start.read (unsplice s)).lines

/-- Behind this text a line begins. -/
def opensLine (s : Text) : Bool := (Reader.start.read (unsplice s)).atStart

/-- What an object-like `#define` of `name` on this line stands for. -/
def bodyOf (name : Text) : List Text → Option (List Text)
  | hash :: define :: n :: body =>
    if hash = ['#'] ∧ define = text "define" ∧ n = name then some body else none
  | _ => none

/-- The definitions of a macro in a text, as token lists. -/
def bodies (name s : Text) : List (List Text) := (tokenLines s).filterMap (bodyOf name)

/-- Object-like macros; the first definition of a name counts. -/
abbrev Table := List (Text × List Text)

def Table.lookup (table : Table) (t : Text) : Option (List Text) :=
  if isName t then (table.find? (fun d => d.1 = t)).map (·.2) else none

def Table.without (table : Table) (t : Text) : Table := table.filter (fun d => d.1 ≠ t)

/-- Replace macros by their definitions; one is not replaced within its own. As each
step down takes a name from the table, the table's length is deep enough. -/
def expand : Nat → Table → List Text → List Text
  | 0, _, ts => ts
  | depth + 1, table, ts => ts.flatMap fun t =>
    match table.lookup t with
    | some body => expand depth (table.without t) body
    | none => [t]

/-- The value of a macro, names that are none by `env`. -/
def worth (env : Text → Option Int) (table : Table) (name : Text) : Option Int :=
  value env (expand table.length table [name])

theorem read_append (r : Reader) (a b : Text) : r.read (a ++ b) = (r.read a).read b :=
  List.foldl_append

/-- A reader with lines and tokens read before. -/
def Reader.under (r : Reader) (before : List (List Text)) (line : List Text) : Reader :=
  match r.done with
  | [] => ⟨before, line ++ r.line, r.lexing⟩
  | l :: ls => ⟨before ++ (line ++ l) :: ls, r.line, r.lexing⟩

theorem step_under (r : Reader) (before : List (List Text)) (line : List Text) (c : Char) :
    (r.under before line).step c = (r.step c).under before line := by
  obtain ⟨done, l, lexing⟩ := r
  cases done with
  | nil =>
    simp only [Reader.under, Reader.step]
    split
    next h => simp [h]
    next h => simp [h]
  | cons d ds =>
    simp only [Reader.under, Reader.step]
    split
    next h => simp [h]
    next h => simp [h]

/-- What is read does not depend on what was read before. -/
theorem read_under (r : Reader) (before : List (List Text)) (line : List Text) (s : Text) :
    (r.under before line).read s = (r.read s).under before line := by
  induction s generalizing r with
  | nil => rfl
  | cons c s ih =>
    rw [Reader.read, List.foldl_cons, step_under]
    exact ih (r.step c)

theorem lines_under (r : Reader) :
    ∃ l ls, ∀ before line, (r.under before line).lines = before ++ (line ++ l) :: ls := by
  obtain ⟨done, line, lexing⟩ := r
  cases done with
  | nil =>
    refine ⟨line ++ lexing.flush, [], ?_⟩
    intro before line
    simp [Reader.under, Reader.lines]
  | cons d ds =>
    refine ⟨d, ds ++ [line ++ lexing.flush], ?_⟩
    intro before line
    simp [Reader.under, Reader.lines]

/-- A reader is one that begins, with what it has read before. -/
theorem read_eq (r : Reader) (s : Text) :
    r.read s = ((Reader.mk [] [] r.lexing).read s).under r.done r.line := by
  rw [← read_under]
  simp [Reader.under]

/-- Behind a token on its line, the tokens there make no difference for what begins later. -/
theorem under_atStart (r : Reader) {line line' : List Text} (h : line ≠ []) (h' : line' ≠ [])
    (before before' : List (List Text)) :
    (r.under before line).atStart = (r.under before' line').atStart := by
  obtain ⟨done, l, m⟩ := r
  cases done with
  | nil =>
    obtain ⟨t, ts, rfl⟩ := List.exists_cons_of_ne_nil h
    obtain ⟨t', ts', rfl⟩ := List.exists_cons_of_ne_nil h'
    rfl
  | cons _ _ => rfl

theorem under_under (r : Reader) (before : List (List Text)) (line line' : List Text) :
    (r.under [] line').under before line = r.under before (line ++ line') := by
  obtain ⟨done, l, m⟩ := r
  cases done with
  | nil => simp [Reader.under]
  | cons _ _ => simp [Reader.under]

/-- Two lexers within tokens that begin differently and go on alike. -/
inductive Held (w w' : Text) : Lexing → Lexing → Prop
  | number : w.getLastD ' ' = w'.getLastD ' ' → Held w w' (.number w) (.number w')
  | quoted (q : Char) : Held w w' (.quoted q w) (.quoted q w')
  | escaped (q : Char) : Held w w' (.escaped q w) (.escaped q w')

section
variable {w w' : Text} {l l' : Lexing}

theorem Held.flush (h : Held w w' l l') : l.flush = [w] ∧ l'.flush = [w'] := by
  cases h with
  | number _ => exact ⟨rfl, rfl⟩
  | quoted q => exact ⟨rfl, rfl⟩
  | escaped q => exact ⟨rfl, rfl⟩

theorem Held.inBlock (h : Held w w' l l') : inBlock l = false ∧ CMacros.inBlock l' = false := by
  cases h with
  | number _ => exact ⟨rfl, rfl⟩
  | quoted q => exact ⟨rfl, rfl⟩
  | escaped q => exact ⟨rfl, rfl⟩

theorem Held.atStart (h : Held w w' l l') (done : List (List Text)) (line : List Text) :
    (Reader.mk done line l).atStart = false ∧ (Reader.mk done line l').atStart = false := by
  cases h with
  | number _ => cases line <;> exact ⟨rfl, rfl⟩
  | quoted q => cases line <;> exact ⟨rfl, rfl⟩
  | escaped q => cases line <;> exact ⟨rfl, rfl⟩

/-- The token goes on in both, or ends in both. -/
theorem Held.step (h : Held w w' l l') (c : Char) : ∃ d,
    (c ≠ '\n' ∧ (l.step c).2 = [] ∧ (l'.step c).2 = [] ∧
      Held (w ++ d) (w' ++ d) (l.step c).1 (l'.step c).1) ∨
    ((l.step c).1 = (l'.step c).1 ∧ (l.step c).2 = [w ++ d] ∧ (l'.step c).2 = [w' ++ d]) := by
  cases h with
  | number hlast =>
    have hin : isWord c || c = '.' → c ≠ '\n' := by
      intro hc he
      subst he
      exact absurd hc (by decide)
    have hsign : (c = '+' || c = '-') = true → c ≠ '\n' := by
      intro hc he
      subst he
      exact absurd hc (by decide)
    simp only [Lexing.step]
    rw [← hlast]
    split
    next hc => exact ⟨[c], .inl ⟨hin hc, rfl, rfl, .number (by simp)⟩⟩
    · split
      next hc =>
        exact ⟨[c], .inl ⟨hsign (Bool.and_eq_true_iff.mp hc).1, rfl, rfl, .number (by simp)⟩⟩
      · exact ⟨[], .inr ⟨rfl, by simp, by simp⟩⟩
  | quoted q =>
    simp only [Lexing.step]
    split
    · exact ⟨[], .inr ⟨rfl, by simp, by simp⟩⟩
    next hc =>
      split
      · exact ⟨[c], .inl ⟨hc, rfl, rfl, .escaped q⟩⟩
      · split
        · exact ⟨[c], .inr ⟨rfl, rfl, rfl⟩⟩
        · exact ⟨[c], .inl ⟨hc, rfl, rfl, .quoted q⟩⟩
  | escaped q =>
    simp only [Lexing.step]
    split
    · exact ⟨[], .inr ⟨rfl, by simp, by simp⟩⟩
    next hc => exact ⟨[c], .inl ⟨hc, rfl, rfl, .quoted q⟩⟩

/-- A token ends, and its line with it or not. -/
theorem step_ended {l m : Lexing} {c : Char} {u : Text} (hb : inBlock l = false)
    (hm : (l.step c).1 = m) (hu : (l.step c).2 = [u]) :
    (Reader.mk [] [] l).step c =
      (if c = '\n' then Reader.mk [[]] [] m else ⟨[], [], m⟩).under [] [u] := by
  simp only [Reader.step, hb, hm, hu, and_true]
  split
  · rfl
  · rfl

/-- Two readers within such tokens: still within them at the end of the text, or
past them, and alike since. -/
theorem Held.read (h : Held w w' l l') (s : Text) : ∃ d,
    (∃ m m', (Reader.mk [] [] l).read s = ⟨[], [], m⟩ ∧ (Reader.mk [] [] l').read s = ⟨[], [], m'⟩ ∧
      Held (w ++ d) (w' ++ d) m m') ∨
    ∃ r : Reader, (Reader.mk [] [] l).read s = r.under [] [w ++ d] ∧
      (Reader.mk [] [] l').read s = r.under [] [w' ++ d] := by
  induction s generalizing w w' l l' with
  | nil => exact ⟨[], .inl ⟨l, l', rfl, rfl, by simpa using h⟩⟩
  | cons c s ih =>
    obtain ⟨hb, hb'⟩ := h.inBlock
    obtain ⟨d, ⟨hc, hout, hout', hheld⟩ | ⟨hl, hout, hout'⟩⟩ := h.step c
    · have hstep : (Reader.mk [] [] l).step c = ⟨[], [], (l.step c).1⟩ := by
        simp [Reader.step, hc, hout]
      have hstep' : (Reader.mk [] [] l').step c = ⟨[], [], (l'.step c).1⟩ := by
        simp [Reader.step, hc, hout']
      obtain ⟨e, h⟩ := ih hheld
      refine ⟨d ++ e, ?_⟩
      rw [Reader.read, List.foldl_cons, hstep, Reader.read, List.foldl_cons, hstep',
        ← List.append_assoc, ← List.append_assoc]
      exact h
    · obtain ⟨r, hstep, hstep'⟩ : ∃ r : Reader, (Reader.mk [] [] l).step c = r.under [] [w ++ d] ∧
          (Reader.mk [] [] l').step c = r.under [] [w' ++ d] :=
        ⟨_, step_ended hb hl hout, step_ended hb' rfl hout'⟩
      refine ⟨d, .inr ⟨r.read s, ?_, ?_⟩⟩
      · rw [← read_under, ← hstep]
        rfl
      · rw [← read_under, ← hstep']
        rfl

theorem Held.lines (h : Held w w' l l') (s : Text) : ∃ d post ls,
    ((Reader.mk [] [] l).read s).lines = ((w ++ d) :: post) :: ls ∧
    ((Reader.mk [] [] l').read s).lines = ((w' ++ d) :: post) :: ls := by
  obtain ⟨d, ⟨m, m', hr, hr', hheld⟩ | ⟨r, hr, hr'⟩⟩ := h.read s
  · obtain ⟨hm, hm'⟩ := hheld.flush
    refine ⟨d, [], [], ?_, ?_⟩
    · rw [hr, Reader.lines, hm]
      rfl
    · rw [hr', Reader.lines, hm']
      rfl
  · obtain ⟨post, ls, hlines⟩ := lines_under r
    refine ⟨d, post, ls, ?_, ?_⟩
    · rw [hr, hlines]
      rfl
    · rw [hr', hlines]
      rfl

/-- A reader within such tokens is at no line's start, and behind them both are. -/
theorem Held.opens (h : Held w w' l l') (s : Text) (done : List (List Text)) (line : List Text) :
    ((Reader.mk done line l).read s).atStart = ((Reader.mk done line l').read s).atStart := by
  obtain ⟨d, ⟨m, m', hr, hr', hheld⟩ | ⟨r, hr, hr'⟩⟩ := h.read s
  · rw [read_eq, read_eq (Reader.mk done line l'), hr, hr']
    obtain ⟨hm, hm'⟩ := hheld.atStart done (line ++ [])
    exact hm.trans hm'.symm
  · rw [read_eq, read_eq (Reader.mk done line l'), hr, hr']
    rw [under_under, under_under]
    exact under_atStart r (by simp) (by simp) _ _

end

/-- A text that neither ends a line, a literal or a comment nor begins one. -/
def Inert (s : Text) : Prop := (∀ c ∈ s, c ∉ ['\n', '\\', '"', '\'', '/']) ∧ s.getLast? ≠ some '*'

instance (s : Text) : Decidable (Inert s) :=
  @instDecidableAnd _ _ (List.decidableBAll _ s) inferInstance

theorem read_lineComment {s : Text} (h : '\n' ∉ s) (done : List (List Text)) (line : List Text) :
    (Reader.mk done line .lineComment).read s = ⟨done, line, .lineComment⟩ := by
  induction s with
  | nil => rfl
  | cons c s ih =>
    obtain ⟨hc, hs⟩ := List.ne_and_not_mem_of_not_mem_cons h
    have hstep : (Reader.mk done line .lineComment).step c = ⟨done, line, .lineComment⟩ := by
      simp [Reader.step, Lexing.step, hc.symm]
    rw [Reader.read, List.foldl_cons, hstep]
    exact ih hs

theorem read_blockComment {s : Text} (h : '/' ∉ s) (hs : s ≠ []) (star : Bool)
    (done : List (List Text)) (line : List Text) :
    (Reader.mk done line (.blockComment star)).read s =
      ⟨done, line, .blockComment (s.getLast? = some '*')⟩ := by
  induction s generalizing star with
  | nil => exact absurd rfl hs
  | cons c s ih =>
    obtain ⟨hc, hrest⟩ := List.ne_and_not_mem_of_not_mem_cons h
    have hstep : (Reader.mk done line (.blockComment star)).step c =
        ⟨done, line, .blockComment (c = '*')⟩ := by
      simp [Reader.step, Lexing.step, Ne.symm hc, inBlock]
    rw [Reader.read, List.foldl_cons, hstep]
    cases s with
    | nil => simp
    | cons d s =>
      rw [List.getLast?_cons_cons]
      exact ih hrest (by simp) _

theorem read_quoted {s : Text} (h : Inert s) {q : Char} (hq : q = '"' ∨ q = '\'') (w : Text)
    (done : List (List Text)) (line : List Text) :
    (Reader.mk done line (.quoted q w)).read s = ⟨done, line, .quoted q (w ++ s)⟩ := by
  obtain ⟨h, -⟩ := h
  induction s generalizing w with
  | nil => simp [Reader.read]
  | cons c s ih =>
    obtain ⟨hc, hs⟩ := List.forall_mem_cons.mp h
    simp only [List.mem_cons, List.not_mem_nil, or_false, not_or] at hc
    obtain ⟨hn, hb, hdouble, hsingle, -⟩ := hc
    have hcq : c ≠ q := by
      rcases hq with rfl | rfl
      · exact hdouble
      · exact hsingle
    have hstep : (Reader.mk done line (.quoted q w)).step c =
        ⟨done, line, .quoted q (w ++ [c])⟩ := by
      simp [Reader.step, Lexing.step, hn, hb, hcq]
    rw [Reader.read, List.foldl_cons, hstep, List.append_cons w c s]
    exact ih (w ++ [c]) hs

/-- Literals are between the two kinds of quotes. -/
def Quotes : Lexing → Prop
  | .quoted q _ | .escaped q _ => q = '"' ∨ q = '\''
  | _ => True

theorem Quotes.begin (c : Char) : Quotes (begin c) := by
  unfold CTokens.begin
  repeat' split
  all_goals first | trivial | skip
  next h =>
    rw [Bool.or_eq_true, decide_eq_true_iff, decide_eq_true_iff] at h
    exact h

theorem Quotes.step {l : Lexing} (h : Quotes l) (c : Char) : Quotes (l.step c).1 := by
  have hbegin := Quotes.begin c
  cases l with
  | between => exact hbegin
  | word w =>
    simp only [Lexing.step]
    split
    · trivial
    · split
      next hq =>
        rw [Bool.and_eq_true, Bool.or_eq_true, decide_eq_true_iff, decide_eq_true_iff] at hq
        exact hq.1
      · exact hbegin
  | number w =>
    simp only [Lexing.step]
    split
    · trivial
    · split
      · trivial
      · exact hbegin
  | operator w =>
    simp only [Lexing.step]
    repeat' split
    all_goals trivial
  | quoted q w =>
    simp only [Lexing.step]
    repeat' split
    all_goals trivial
  | escaped q w =>
    simp only [Lexing.step]
    split
    · trivial
    · exact h
  | lineComment =>
    simp only [Lexing.step]
    split <;> trivial
  | blockComment star =>
    simp only [Lexing.step]
    split <;> trivial

theorem Quotes.read {r : Reader} (h : Quotes r.lexing) (s : Text) : Quotes (r.read s).lexing := by
  induction s generalizing r with
  | nil => exact h
  | cons c s ih =>
    have hstep : (r.step c).lexing = (r.lexing.step c).1 := by
      simp only [Reader.step]
      split <;> rfl
    apply ih
    rw [hstep]
    exact h.step c

/-- Where neither a comment nor a literal is open. -/
def InCode : Lexing → Prop
  | .lineComment | .blockComment _ | .quoted _ _ | .escaped _ _ => False
  | _ => True

/-- What a number sign makes of the line: a token, which is the first only at the start. -/
structure Hash (r : Reader) (pre : List Text) (t : Text) : Prop where
  either : t = ['#'] ∨ t = ['#', '#']
  first : r.atStart = true → r.line = [] ∧ pre = [] ∧ t = ['#']
  later : r.atStart = false → r.line ++ pre ≠ [] ∨ t ≠ ['#']

theorem operators_hash : ∀ w ∈ operators, w.getLast? = some '#' → w = ['#', '#'] := by decide

theorem step_sign {r : Reader} (h : InCode r.lexing) : ∃ pre t, Hash r pre t ∧
    r.step '#' = ⟨r.done, r.line ++ pre, .operator t⟩ := by
  obtain ⟨done, line, l⟩ := r
  cases l with
  | between =>
    refine ⟨[], ['#'], ⟨.inl rfl, ?_, ?_⟩, rfl⟩
    · intro hs
      cases line with
      | nil => exact ⟨rfl, rfl, rfl⟩
      | cons _ _ => cases hs
    · intro hs
      cases line with
      | nil => cases hs
      | cons _ _ => exact .inl (by simp)
  | word w =>
    refine ⟨[w], ['#'], ⟨.inl rfl, ?_, fun _ => .inl (by simp)⟩, rfl⟩
    intro hs
    cases line <;> cases hs
  | number w =>
    refine ⟨[w], ['#'], ⟨.inl rfl, ?_, fun _ => .inl (by simp)⟩, rfl⟩
    intro hs
    cases line <;> cases hs
  | operator w =>
    have hstart : (Reader.mk done line (.operator w)).atStart = false := by cases line <;> rfl
    have hslash : ¬ (w = ['/'] ∧ '#' = '/') := fun h => absurd h.2 (by decide)
    have hstar : ¬ (w = ['/'] ∧ '#' = '*') := fun h => absurd h.2 (by decide)
    have hdot : ¬ (w = ['.'] ∧ '#'.isDigit = true) := fun h => absurd h.2 (by decide)
    by_cases hop : w ++ ['#'] ∈ operators ∨ w ++ ['#'] = ['.', '.']
    · have hw : w ++ ['#'] = ['#', '#'] := by
        rcases hop with hop | hop
        · exact operators_hash _ hop (by simp)
        · have := congrArg List.getLast? hop
          simp at this
      refine ⟨[], ['#', '#'], ⟨.inr rfl, ?_, fun _ => .inr (by simp)⟩, ?_⟩
      · rw [hstart]
        exact fun hs => nomatch hs
      · simp only [Reader.step, Lexing.step, if_neg hslash, if_neg hstar, if_neg hdot, hw]
        rfl
    · refine ⟨(Lexing.operator w).flush, ['#'], ⟨.inl rfl, ?_, fun _ => .inl ?_⟩, ?_⟩
      · rw [hstart]
        exact fun hs => nomatch hs
      · simp only [Lexing.flush]
        split <;> simp
      · simp only [Reader.step, Lexing.step, if_neg hslash, if_neg hstar, if_neg hdot, if_neg hop]
        rfl
  | quoted q w => exact h.elim
  | escaped q w => exact h.elim
  | lineComment => exact h.elim
  | blockComment star => exact h.elim

theorem read_define {r : Reader} (h : InCode r.lexing) : ∃ pre t, Hash r pre t ∧
    r.read (text "#define ") = ⟨r.done, r.line ++ pre ++ [t, text "define"], .between⟩ := by
  obtain ⟨pre, t, ht, hstep⟩ := step_sign h
  refine ⟨pre, t, ht, ?_⟩
  have hread : (Reader.mk [] [] (.operator t)).read (text "define ") =
      ⟨[], [t, text "define"], .between⟩ := by
    rcases ht.either with rfl | rfl
    · rfl
    · rfl
  calc r.read (text "#define ")
    _ = (r.step '#').read (text "define ") := rfl
    _ = _ := by
      rw [hstep, read_eq, hread]
      rfl

/-- Two texts of a definition of `name`, between which `Changed` tells what is
different in its tokens. -/
structure Rewrite (name x x' : Text) (Changed : List Text → List Text → Prop) : Prop where
  inert : Inert (text "#define " ++ x) ∧ Inert (text "#define " ++ x')
  lines : ∀ z, ∃ body body' ls,
    ((Reader.mk [] [] .between).read (x ++ z)).lines = (name :: body) :: ls ∧
    ((Reader.mk [] [] .between).read (x' ++ z)).lines = (name :: body') :: ls ∧ Changed body body'
  opens : ∀ done line z, ((Reader.mk done line .between).read (x ++ z)).atStart =
    ((Reader.mk done line .between).read (x' ++ z)).atStart

/-- The lines of two texts of which one has a number sign within a line or a token
of its own where the other has another. -/
def Buried (done : List (List Text)) (ls ls' : List (List Text)) : Prop :=
  ∃ pre t t' post post' rest, '#' ∈ t ∧ '#' ∈ t' ∧ (pre ≠ [] ∨ t ≠ ['#'] ∧ t' ≠ ['#']) ∧
    ls = done ++ (pre ++ t :: post) :: rest ∧ ls' = done ++ (pre ++ t' :: post') :: rest

theorem lines_eq (r : Reader) (s : Text) {l : List Text} {ls : List (List Text)}
    (h : ((Reader.mk [] [] r.lexing).read s).lines = l :: ls) :
    (r.read s).lines = r.done ++ (r.line ++ l) :: ls := by
  rw [read_eq]
  obtain ⟨m, ms, hlines⟩ := lines_under ((Reader.mk [] [] r.lexing).read s)
  have hself : ((Reader.mk [] [] r.lexing).read s).under [] [] =
      (Reader.mk [] [] r.lexing).read s := by rw [← read_under]; rfl
  have hm := hlines [] []
  rw [hself, h, List.nil_append, List.nil_append, List.cons.injEq] at hm
  obtain ⟨rfl, rfl⟩ := hm
  exact hlines r.done r.line

section
variable {name x x' : Text} {Changed : List Text → List Text → Prop}

/-- How far a reader is where a number sign comes. -/
theorem lexing_cases (l : Lexing) : InCode l ∨ (l = .lineComment ∨ ∃ star, l = .blockComment star) ∨
    ∃ q w, l = .quoted q w ∨ l = .escaped q w := by
  cases l with
  | lineComment => exact .inr (.inl (.inl rfl))
  | blockComment star => exact .inr (.inl (.inr ⟨star, rfl⟩))
  | quoted q w => exact .inr (.inr ⟨q, w, .inl rfl⟩)
  | escaped q w => exact .inr (.inr ⟨q, w, .inr rfl⟩)
  | between => exact .inl trivial
  | word w => exact .inl trivial
  | number w => exact .inl trivial
  | operator w => exact .inl trivial

theorem Inert.not_mem {s : Text} (h : Inert s) {c : Char}
    (hc : c ∈ ['\n', '\\', '"', '\'', '/']) : c ∉ s := fun hs => h.1 c hs hc

/-- A comment goes on alike behind either text. -/
theorem read_comment {s s' : Text} (h : Inert s) (h' : Inert s') (hs : s ≠ []) (hs' : s' ≠ [])
    {l : Lexing} (hl : l = .lineComment ∨ ∃ star, l = .blockComment star)
    (done : List (List Text)) (line : List Text) :
    (Reader.mk done line l).read s = (Reader.mk done line l).read s' := by
  rcases hl with rfl | ⟨star, rfl⟩
  · rw [read_lineComment (h.not_mem (by simp)), read_lineComment (h'.not_mem (by simp))]
  · rw [read_blockComment (h.not_mem (by simp)) hs, read_blockComment (h'.not_mem (by simp)) hs']
    simp [h.2, h'.2]

theorem read_literal {s : Text} (h : Inert ('#' :: s)) {l : Lexing} (hq : Quotes l) {q : Char}
    {w : Text} (hl : l = .quoted q w ∨ l = .escaped q w) (done : List (List Text))
    (line : List Text) :
    (Reader.mk done line l).read ('#' :: s) = ⟨done, line, .quoted q (w ++ '#' :: s)⟩ := by
  rcases hl with rfl | rfl
  · exact read_quoted h hq w done line
  · have hs : Inert s := by
      refine ⟨(List.forall_mem_cons.mp h.1).2, ?_⟩
      cases s with
      | nil => simp
      | cons c s => simpa using h.2
    have hstep : (Reader.mk done line (.escaped q w)).step '#' =
        ⟨done, line ++ [], .quoted q (w ++ ['#'])⟩ := rfl
    rw [Reader.read, List.foldl_cons, hstep, List.append_nil, List.append_cons w '#' s]
    exact read_quoted hs hq (w ++ ['#']) done line

theorem define_cons (s : Text) : text "#define " ++ s = '#' :: (text "define " ++ s) := rfl

theorem Rewrite.lines_code (h : Rewrite name x x' Changed) {r : Reader} (hr : InCode r.lexing)
    (z : Text) : ∃ pre t body body' rest, Hash r pre t ∧ Changed body body' ∧
      (r.read (text "#define " ++ x ++ z)).lines =
        r.done ++ (r.line ++ pre ++ t :: text "define" :: name :: body) :: rest ∧
      (r.read (text "#define " ++ x' ++ z)).lines =
        r.done ++ (r.line ++ pre ++ t :: text "define" :: name :: body') :: rest := by
  obtain ⟨pre, t, ht, hread⟩ := read_define hr
  obtain ⟨body, body', rest, hx, hx', hchanged⟩ := h.lines z
  refine ⟨pre, t, body, body', rest, ht, hchanged, ?_, ?_⟩
  · rw [List.append_assoc, read_append, hread, lines_eq _ _ hx]
    simp
  · rw [List.append_assoc, read_append, hread, lines_eq _ _ hx']
    simp

theorem lines_literal {s s' : Text} (h : Inert ('#' :: s)) (h' : Inert ('#' :: s')) {r : Reader}
    (hq : Quotes r.lexing) {q : Char} {w : Text}
    (hl : r.lexing = .quoted q w ∨ r.lexing = .escaped q w) (hs : 2 ≤ s.length)
    (hs' : 2 ≤ s'.length) (z : Text) :
    Buried r.done (r.read ('#' :: s ++ z)).lines (r.read ('#' :: s' ++ z)).lines := by
  have hr := read_literal h hq hl r.done r.line
  have hr' := read_literal h' hq hl r.done r.line
  have hheld : Held (w ++ '#' :: s) (w ++ '#' :: s') (.quoted q _) (.quoted q _) := .quoted q
  obtain ⟨d, post, rest, hz, hz'⟩ := hheld.lines z
  have hlong {t : Text} (ht : 2 ≤ t.length) : w ++ '#' :: t ++ d ≠ ['#'] := by
    intro he
    have := congrArg List.length he
    simp at this
    omega
  refine ⟨r.line, w ++ '#' :: s ++ d, w ++ '#' :: s' ++ d, post, post, rest, by simp, by simp,
    .inr ⟨hlong hs, hlong hs'⟩, ?_, ?_⟩
  · rw [read_append, hr, lines_eq _ _ hz]
  · rw [read_append, hr', lines_eq _ _ hz']

theorem not_atStart {r : Reader} (h : r.lexing ≠ .between) : r.atStart = false := by
  obtain ⟨done, line, l⟩ := r
  cases l <;> cases line <;> first | rfl | exact absurd rfl h

theorem Rewrite.lines_cases (h : Rewrite name x x' Changed) {r : Reader} (hq : Quotes r.lexing)
    (z : Text) :
    let ls := (r.read (text "#define " ++ x ++ z)).lines
    let ls' := (r.read (text "#define " ++ x' ++ z)).lines
    if r.atStart then ∃ body body' rest, Changed body body' ∧
      ls = r.done ++ (['#'] :: text "define" :: name :: body) :: rest ∧
      ls' = r.done ++ (['#'] :: text "define" :: name :: body') :: rest
    else ls = ls' ∨ Buried r.done ls ls' := by
  intro ls ls'
  obtain ⟨hin, hin'⟩ := h.inert
  rcases lexing_cases r.lexing with hcode | hcomment | ⟨q, w, hl⟩
  · obtain ⟨pre, t, body, body', rest, ht, hchanged, hls, hls'⟩ := h.lines_code hcode z
    split
    next hs =>
      obtain ⟨hline, rfl, rfl⟩ := ht.first hs
      rw [hline] at hls hls'
      exact ⟨body, body', rest, hchanged, hls, hls'⟩
    next hs =>
      have hmem : '#' ∈ t := by rcases ht.either with rfl | rfl <;> simp
      have hlater := ht.later (by simpa using hs)
      exact .inr ⟨_, t, t, _, _, rest, hmem, hmem, hlater.imp_right (fun h => ⟨h, h⟩), hls, hls'⟩
  · have hstart : r.atStart = false := by
      apply not_atStart
      rcases hcomment with hl | ⟨star, hl⟩ <;> rw [hl] <;> exact fun h => nomatch h
    have hsame : r.read (text "#define " ++ x) = r.read (text "#define " ++ x') :=
      read_comment hin hin' (List.cons_ne_nil _ _) (List.cons_ne_nil _ _) hcomment r.done r.line
    rw [if_neg (by simp [hstart])]
    left
    simp only [ls, ls']
    rw [read_append r (text "#define " ++ x), read_append r (text "#define " ++ x'), hsame]
  · have hstart : r.atStart = false := by
      apply not_atStart
      rcases hl with hl | hl <;> rw [hl] <;> exact fun h => nomatch h
    rw [define_cons] at hin hin'
    have hlong (s : Text) : 2 ≤ (text "define " ++ s).length := by
      have hcons : text "define " ++ s = 'd' :: 'e' :: (text "fine " ++ s) := rfl
      simp [hcons]
    rw [if_neg (by simp [hstart])]
    exact .inr (lines_literal hin hin' hq hl (hlong x) (hlong x') z)

/-- Whether a line begins behind the two texts is the same. -/
theorem Rewrite.atStart (h : Rewrite name x x' Changed) {r : Reader} (hq : Quotes r.lexing)
    (z : Text) : (r.read (text "#define " ++ x ++ z)).atStart =
      (r.read (text "#define " ++ x' ++ z)).atStart := by
  obtain ⟨hin, hin'⟩ := h.inert
  rcases lexing_cases r.lexing with hcode | hcomment | ⟨q, w, hl⟩
  · obtain ⟨pre, t, -, hread⟩ := read_define hcode
    rw [List.append_assoc, List.append_assoc, read_append, read_append r, hread]
    exact h.opens _ _ z
  · have hsame : r.read (text "#define " ++ x) = r.read (text "#define " ++ x') :=
      read_comment hin hin' (List.cons_ne_nil _ _) (List.cons_ne_nil _ _) hcomment r.done r.line
    rw [read_append r (text "#define " ++ x), read_append r (text "#define " ++ x'), hsame]
  · rw [define_cons] at hin hin' ⊢
    rw [define_cons, read_append, read_append r, read_literal hin hq hl r.done r.line,
      read_literal hin' hq hl r.done r.line]
    exact (Held.quoted q).opens z r.done r.line

/-- No token of any definition has a number sign in it. -/
def Clean (name : Text) (ls : List (List Text)) : Prop :=
  ∀ body ∈ ls.filterMap (bodyOf name), ∀ t ∈ body, '#' ∉ t

theorem bodyOf_define (n : Text) (body : List Text) :
    bodyOf n (['#'] :: text "define" :: n :: body) = some body := by simp [bodyOf]

theorem bodyOf_hash {n t : Text} (hn : '#' ∉ n) (ht : '#' ∈ t) {pre : List Text}
    (hp : pre ≠ [] ∨ t ≠ ['#']) (post : List Text) :
    bodyOf n (pre ++ t :: post) = (bodyOf n pre).map (· ++ t :: post) := by
  have hdefine : t ≠ text "define" := by
    intro he
    rw [he] at ht
    exact absurd ht (by decide)
  have hname : t ≠ n := by
    intro he
    rw [he] at ht
    exact hn ht
  match pre with
  | [] =>
    have hfirst : t ≠ ['#'] := hp.resolve_left (fun h => h rfl)
    match post with
    | [] => rfl
    | [_] => rfl
    | _ :: _ :: _ => simp [bodyOf, hfirst]
  | [_] =>
    match post with
    | [] => rfl
    | _ :: _ => simp [bodyOf, hdefine]
  | [_, _] => simp [bodyOf, hname]
  | hash :: define :: m :: body =>
    simp only [List.cons_append, bodyOf]
    split <;> rfl

theorem Buried.filterMap {done ls ls' : List (List Text)} (h : Buried done ls ls') {n : Text}
    (hn : '#' ∉ n) (hclean : Clean n ls) :
    ls'.filterMap (bodyOf n) = ls.filterMap (bodyOf n) := by
  obtain ⟨pre, t, t', post, post', rest, ht, ht', hp, rfl, rfl⟩ := h
  have hl := bodyOf_hash hn ht (hp.imp_right (·.1)) post
  have hl' := bodyOf_hash hn ht' (hp.imp_right (·.2)) post'
  cases hpre : bodyOf n pre with
  | none =>
    rw [hpre] at hl hl'
    rw [List.filterMap_append, List.filterMap_append, List.filterMap_cons_none hl,
      List.filterMap_cons_none hl']
  | some body =>
    rw [hpre] at hl
    have hmem : body ++ t :: post ∈
        (done ++ (pre ++ t :: post) :: rest).filterMap (bodyOf n) :=
      List.mem_filterMap.mpr ⟨_, by simp, hl⟩
    exact absurd ht (hclean _ hmem t (by simp))

theorem read_directive (h : Inert (text "#define " ++ x)) (a b : Text) :
    Reader.start.read (unsplice (a ++ (text "#define " ++ x) ++ b)) =
      (Reader.start.read (unsplice a)).read (text "#define " ++ x ++ unsplice b) := by
  have hlast : (text "#define " ++ x).getLast? ≠ some '\\' := by
    intro he
    exact h.not_mem (by simp) (List.mem_of_getLast? he)
  have hhead : ((text "#define " ++ x) ++ b).head? ≠ some '\n' := by
    rw [define_cons, List.cons_append, List.head?_cons]
    decide
  rw [List.append_assoc, unsplice_append (.inr hhead), unsplice_append (.inl hlast),
    unsplice_inline (h.not_mem (by simp)), read_append]

theorem quotes_unsplice (s : Text) : Quotes (Reader.start.read (unsplice s)).lexing :=
  Quotes.read (r := Reader.start) trivial _

theorem Rewrite.opensLine (h : Rewrite name x x' Changed) (a b : Text) :
    opensLine (a ++ (text "#define " ++ x) ++ b) =
      CMacros.opensLine (a ++ (text "#define " ++ x') ++ b) := by
  rw [CMacros.opensLine, CMacros.opensLine, read_directive h.inert.1, read_directive h.inert.2]
  exact h.atStart (quotes_unsplice a) (unsplice b)

/-- The definition rewritten where it stands on a line of its own, and no other. -/
theorem Rewrite.bodies (h : Rewrite name x x' Changed) (a b : Text) {n : Text} (hn : '#' ∉ n)
    (hclean : Clean n (tokenLines (a ++ (text "#define " ++ x) ++ b))) :
    let before := CMacros.bodies n (a ++ (text "#define " ++ x) ++ b)
    let after := CMacros.bodies n (a ++ (text "#define " ++ x') ++ b)
    if CMacros.opensLine a ∧ name = n then ∃ front back body body', Changed body body' ∧
      before = front ++ body :: back ∧ after = front ++ body' :: back
    else after = before := by
  intro before after
  have hcases := h.lines_cases (quotes_unsplice a) (unsplice b)
  rw [tokenLines, read_directive h.inert.1] at hclean
  simp only [before, after, CMacros.bodies, tokenLines]
  rw [read_directive h.inert.1, read_directive h.inert.2]
  split at hcases
  next hopen =>
    obtain ⟨body, body', rest, hchanged, hls, hls'⟩ := hcases
    rw [hls, hls']
    split
    next hat =>
      obtain ⟨-, rfl⟩ := hat
      refine ⟨(Reader.start.read (unsplice a)).done.filterMap (bodyOf name),
        rest.filterMap (bodyOf name), body, body', hchanged, ?_, ?_⟩
      · rw [List.filterMap_append, List.filterMap_cons_some (bodyOf_define name body)]
      · rw [List.filterMap_append, List.filterMap_cons_some (bodyOf_define name body')]
    next hat =>
      have hne : name ≠ n := fun he => hat ⟨hopen, he⟩
      rw [List.filterMap_append, List.filterMap_append,
        List.filterMap_cons_none (by simp [bodyOf, hne]),
        List.filterMap_cons_none (by simp [bodyOf, hne])]
  next hopen =>
    have hat : ¬ (CMacros.opensLine a ∧ name = n) := fun hat => hopen hat.1
    rw [if_neg hat]
    rcases hcases with hsame | hburied
    · rw [hsame]
    · exact hburied.filterMap hn hclean

theorem Rewrite.mono {Weaker : List Text → List Text → Prop} (h : Rewrite name x x' Changed)
    (hw : ∀ body body', Changed body body' → Weaker body body') : Rewrite name x x' Weaker := by
  refine ⟨h.inert, ?_, h.opens⟩
  intro z
  obtain ⟨body, body', ls, hx, hx', hchanged⟩ := h.lines z
  exact ⟨body, body', ls, hx, hx', hw body body' hchanged⟩

end

theorem lookup_without (table : Table) {n t : Text} (h : n ≠ t) :
    (table.without t).lookup n = table.lookup n := by
  have hfind : (table.without t).find? (fun d => d.1 = n) = table.find? (fun d => d.1 = n) := by
    rw [Table.without, List.find?_filter]
    congr 1
    funext d
    by_cases hd : d.1 = n
    · simp [hd, h]
    · simp [hd]
  rw [Table.lookup, Table.lookup, hfind]

theorem lookup_without_self (table : Table) (t : Text) : (table.without t).lookup t = none := by
  have hfind : (table.without t).find? (fun d => d.1 = t) = none := by
    rw [Table.without, List.find?_filter, List.find?_eq_none]
    intro d _
    simp
  rw [Table.lookup, hfind]
  split <;> rfl

theorem lookup_append (front : Table) {n : Text} (h : n ∉ front.map Prod.fst) (table : Table) :
    Table.lookup (front ++ table) n = table.lookup n := by
  have hno : front.find? (fun d => d.1 = n) = none := by
    rw [List.find?_eq_none]
    intro d hd he
    exact h (List.mem_map.mpr ⟨d, hd, of_decide_eq_true he⟩)
  rw [Table.lookup, Table.lookup, List.find?_append, hno, Option.none_or]

theorem length_without {table : Table} {t : Text} {body : List Text}
    (h : table.lookup t = some body) : (table.without t).length < table.length := by
  unfold Table.lookup at h
  split at h
  next =>
    obtain ⟨d, hd, -⟩ := Option.map_eq_some_iff.mp h
    apply List.length_filter_lt_length_iff_exists.mpr
    exact ⟨d, List.mem_of_find?_eq_some hd, by simpa using List.find?_some hd⟩
  next => cases h

theorem lookup_hash (table : Table) {t : Text} (ht : '#' ∈ t) : table.lookup t = none := by
  have hname : ¬ isName t = true := by
    intro hn
    exact isWord_of_all (Bool.and_eq_true_iff.mp hn).1 ht
  rw [Table.lookup, if_neg hname]

theorem expand_append (depth : Nat) (table : Table) (ts us : List Text) :
    expand depth table (ts ++ us) = expand depth table ts ++ expand depth table us := by
  cases depth with
  | zero => rfl
  | succ depth => exact List.flatMap_append

/-- Only names are replaced. -/
theorem expand_plain (depth : Nat) (table : Table) {ts : List Text}
    (h : ∀ t ∈ ts, isName t = false) : expand depth table ts = ts := by
  cases depth with
  | zero => rfl
  | succ depth =>
    have htoken : ∀ t ∈ ts, (match table.lookup t with
        | some body => expand depth (table.without t) body
        | none => [t]) = [t] := by
      intro t ht
      rw [Table.lookup, h t ht]
      rfl
    rw [expand, List.flatMap_congr htoken, List.flatMap_singleton']

theorem expand_name (depth : Nat) (table : Table) {n : Text} {body : List Text}
    (h : table.lookup n = some body) :
    expand (depth + 1) table [n] = expand depth (table.without n) body := by
  simp [expand, h]

theorem expand_hash (depth : Nat) (table : Table) {t : Text} (ht : '#' ∈ t) {ts : List Text}
    (hts : t ∈ ts) : t ∈ expand depth table ts := by
  cases depth with
  | zero => exact hts
  | succ depth =>
    apply List.mem_flatMap.mpr
    refine ⟨t, hts, ?_⟩
    rw [lookup_hash table ht]
    exact List.mem_singleton_self t

/-- A macro with a number sign in its definition has no value. -/
theorem worth_hash {env : Text → Option Int} {table : Table} {n t : Text} {body : List Text}
    (h : table.lookup n = some body) (ht : '#' ∈ t) (hbody : t ∈ body) :
    worth env table n = none := by
  have hlen := length_without h
  obtain ⟨depth, hdepth⟩ : ∃ depth, table.length = depth + 1 := ⟨table.length - 1, by omega⟩
  rw [worth, hdepth, expand_name depth table h]
  exact value_hash ht (expand_hash depth _ ht hbody)

end SwitchLdnZt.Library.CMacros
