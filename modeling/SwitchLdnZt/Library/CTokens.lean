import SwitchLdnZt.Library.PyText

namespace SwitchLdnZt.Library.CTokens

/-- White space within a line. -/
def isBlank (c : Char) : Bool := c = ' ' || c = '\t' || c.toNat = 11 || c.toNat = 12

def isWord (c : Char) : Bool := c.isAlphanum || c = '_' || 127 < c.toNat

/-- Where the lexer is: between tokens, or within one that it has read so far. -/
inductive Lexing
  | between
  | word (sofar : Text)
  | number (sofar : Text)
  | operator (sofar : Text)
  | quoted (q : Char) (sofar : Text)
  | escaped (q : Char) (sofar : Text)
  | lineComment
  | blockComment (star : Bool)

/-- The operators of C and C++ of more than one character. -/
def operators : List Text := [text "...", text "<<=", text ">>=", text "->*", text "<=>",
  text "++", text "--", text "->", text "<<", text ">>", text "<=", text ">=", text "==",
  text "!=", text "&&", text "||", text "+=", text "-=", text "*=", text "/=", text "%=",
  text "&=", text "|=", text "^=", text "##", text "::", text ".*"]

/-- The tokens that end where the text ends or another one begins. -/
def Lexing.flush : Lexing → List Text
  | .between | .lineComment | .blockComment _ => []
  | .word w | .number w | .quoted _ w | .escaped _ w => [w]
  | .operator w => if w = ['.', '.'] then [['.'], ['.']] else [w]

def begin (c : Char) : Lexing :=
  if isBlank c || c = '\n' then .between
  else if c.isDigit then .number [c]
  else if isWord c then .word [c]
  else if c = '"' || c = '\'' then .quoted c [c]
  else .operator [c]

def encodings : List Text := [['L'], ['u'], ['U'], ['u', '8']]

/-- One character on: the tokens that end before it or with it. -/
def Lexing.step : Lexing → Char → Lexing × List Text
  | .between, c => (begin c, [])
  | .word w, c =>
    if isWord c then (.word (w ++ [c]), [])
    else if (c = '"' || c = '\'') && encodings.contains w then (.quoted c (w ++ [c]), [])
    else (begin c, [w])
  | .number w, c =>
    if isWord c || c = '.' then (.number (w ++ [c]), [])
    else if (c = '+' || c = '-') && ['e', 'E', 'p', 'P'].contains (w.getLastD ' ') then
      (.number (w ++ [c]), [])
    else (begin c, [w])
  | .operator w, c =>
    if w = ['/'] ∧ c = '/' then (.lineComment, [])
    else if w = ['/'] ∧ c = '*' then (.blockComment false, [])
    else if w = ['.'] ∧ c.isDigit then (.number ['.', c], [])
    else if w ++ [c] ∈ operators ∨ w ++ [c] = ['.', '.'] then (.operator (w ++ [c]), [])
    else (begin c, (Lexing.operator w).flush)
  | .quoted q w, c =>
    if c = '\n' then (.between, [w])
    else if c = '\\' then (.escaped q (w ++ [c]), [])
    else if c = q then (.between, [w ++ [c]])
    else (.quoted q (w ++ [c]), [])
  | .escaped q w, c => if c = '\n' then (.between, [w]) else (.quoted q (w ++ [c]), [])
  | .lineComment, c => if c = '\n' then (.between, []) else (.lineComment, [])
  | .blockComment star, c =>
    if star ∧ c = '/' then (.between, []) else (.blockComment (c = '*'), [])

def read : Lexing × List Text → Text → Lexing × List Text :=
  List.foldl (fun s c => ((s.1.step c).1, s.2 ++ (s.1.step c).2))

/-- The tokens of a text, by their spelling; comments separate them as blanks do. -/
def tokens (s : Text) : List Text :=
  let (last, out) := read (.between, []) s
  out ++ last.flush

theorem read_append (s : Lexing × List Text) (a b : Text) :
    read s (a ++ b) = read (read s a) b := List.foldl_append

/-- Between two lines there is no token open. -/
def AtLine (l : Lexing) : Prop := l = .between ∨ l = .blockComment false

theorem operators_inline : ∀ w ∈ operators, '\n' ∉ w := by decide

theorem step_newline (l : Lexing) : AtLine (l.step '\n').1 := by
  have hbegin : begin '\n' = .between := rfl
  have hword : isWord '\n' = false := by decide
  cases l with
  | between => exact .inl hbegin
  | word w => exact .inl (by simp [Lexing.step, hword, hbegin])
  | number w => exact .inl (by simp [Lexing.step, hword, hbegin])
  | operator w =>
    have hop : ¬ (w ++ ['\n'] ∈ operators ∨ w ++ ['\n'] = ['.', '.']) := by
      intro h
      rcases h with h | h
      · exact operators_inline _ h (by simp)
      · have := congrArg (fun t => '\n' ∈ t) h
        simp at this
    exact .inl (by simp [Lexing.step, hop, hbegin])
  | quoted q w => exact .inl rfl
  | escaped q w => exact .inl rfl
  | lineComment => exact .inl rfl
  | blockComment star => exact .inr (by simp [Lexing.step])

theorem step_blank {l : Lexing} {c : Char} (hl : AtLine l) (hc : isBlank c = true) :
    l.step c = (l, []) := by
  rcases hl with rfl | rfl
  · simp [Lexing.step, begin, hc]
  · have hstar : c ≠ '*' := by
      intro he
      cases he
      exact absurd hc (by decide)
    simp [Lexing.step, hstar]

theorem read_blanks {s : Lexing × List Text} {p : Text} (hs : AtLine s.1)
    (hp : ∀ c ∈ p, isBlank c = true) : read s p = s := by
  induction p with
  | nil => rfl
  | cons c p ih =>
    obtain ⟨hc, hp⟩ := List.forall_mem_cons.mp hp
    rw [read, List.foldl_cons, step_blank hs hc, List.append_nil]
    exact ih hp

/-- A text of whole lines. -/
def WholeLines (s : Text) : Prop := s = [] ∨ ∃ t, s = t ++ ['\n']

theorem read_wholeLines {x : Text} (hx : WholeLines x) : AtLine (read (.between, []) x).1 := by
  rcases hx with rfl | ⟨t, rfl⟩
  · exact .inl rfl
  · rw [read_append]
    exact step_newline _

/-- What a line begins with makes no token, when it is blank. -/
theorem tokens_indent {x p q : Text} (hx : WholeLines x) (hp : ∀ c ∈ p, isBlank c = true)
    (hq : ∀ c ∈ q, isBlank c = true) (z : Text) :
    tokens (x ++ p ++ z) = tokens (x ++ q ++ z) := by
  have hline := read_wholeLines hx
  simp only [tokens, read_append, read_blanks hline hp, read_blanks hline hq]

end SwitchLdnZt.Library.CTokens
