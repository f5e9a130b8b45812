import SwitchLdnZt.Library.CFunctions

namespace SwitchLdnZt.Library.CStatements
open CRegions
open CTokens (isBlank isWord)

/-- White space, within a line or between two. -/
def isLayout (c : Char) : Bool := isBlank c || c = '\n' || c = '\r'

def bare (y : Text) : Bool := y.all isLayout

def directive (line : Text) : Bool := (line.dropWhile isLayout).head? == some '#'

/-- The code between two statements: none, but for directives on lines of their own. -/
def isGap (y : Text) : Bool :=
  let ls := y.splitOn '\n'
  bare (ls.headD []) && bare (ls.getLastD []) && ls.all (fun l => bare l || directive l)

/-- Behind one of these words and its parentheses. -/
def afterHead (words : List Text) (y : Text) : Option Text :=
  if words.contains (y.takeWhile isWord) then
    match (y.dropWhile isWord).dropWhile isLayout with
    | '(' :: z => (closing '(' ')' 1 z).map (·.2)
    | _ => none
  else none

def isHead (words : List Text) (y : Text) : Bool := (afterHead words y).any bare

def isOnly (word y : Text) : Bool :=
  let z := y.dropWhile isLayout
  z.takeWhile isWord == word && bare (z.dropWhile isWord)

/-- A colon that is not half of a scope operator. -/
def isColon : Text → Bool
  | ':' :: ':' :: _ => false
  | ':' :: _ => true
  | _ => false

def named (y : Text) : Bool :=
  y.takeWhile isWord != [] && isColon ((y.dropWhile isWord).dropWhile isLayout)

def isCase (y : Text) : Bool := y.takeWhile isWord == text "case"

/-- `name:`, `default:` or `case value:` -/
def isLabel (y : Text) : Bool :=
  (named y || isCase y) && isColon (y.reverse.dropWhile isLayout)

def conditional : List Text := [text "if"]
def controls : List Text := [text "if", text "while", text "for", text "switch"]

def reserved : List Text :=
  controls ++ [text "else", text "do", text "case", text "try", text "catch"]

/-- It begins with neither layout nor a comment. -/
def begins (x : Text) : Bool :=
  x.head?.any (fun c => !isLayout c && c != '#' && c != '\x7b') &&
    !(text "//").isPrefixOf x && !(text "/*").isPrefixOf x

/-- What begins in code, in code ends and closes what braces it opens. -/
structure Sound (r : Region) (x : Text) : Prop where
  ends : (read r x).inCode = true
  nested : Nested '\x7b' '\x7d' (shown r x)

instance (r : Region) (x : Text) : Decidable (Sound r x) :=
  decidable_of_iff ((read r x).inCode = true ∧ Nested '\x7b' '\x7d' (shown r x))
    ⟨fun h => ⟨h.1, h.2⟩, fun h => ⟨h.ends, h.nested⟩⟩

/-- An expression, a declaration or a jump up to its semicolon: the first that
neither braces nor parentheses enclose. -/
def isSimple (r : Region) (t : Text) : Bool :=
  let y := shown r t.dropLast
  t.getLast? == some ';' && begins t && decide (Sound r t.dropLast) &&
    decide (Nested '(' ')' y) && !reserved.contains (y.takeWhile isWord) && !named y &&
    y.inits.all (fun p =>
      !(p ++ [';']).isPrefixOf y || decide (0 < net '\x7b' '\x7d' p) || decide (0 < net '(' ')' p))

mutual
/-- A statement with its text, layout and comments included. -/
inductive Stmt
  | simple (t : Text)
  | block (items : Items)
  /-- Behind a label, or an `if`, `while`, `for` or `switch` with its parentheses. -/
  | headed (head : Text) (body : Stmt)
  | orElse (head : Text) (yes : Stmt) (mid : Text) (no : Stmt)
  | doWhile (head : Text) (body : Stmt) (tail : Text)
  | tried (head : Text) (body : Stmt) (handlers : Items)

/-- Statements, and the texts before, between and behind them. -/
inductive Items
  | last (gap : Text)
  | next (gap : Text) (s : Stmt) (rest : Items)
end

mutual
def Stmt.source : Stmt → Text
  | .simple t => t
  | .block items => '\x7b' :: (items.source ++ ['\x7d'])
  | .headed head body => head ++ body.source
  | .orElse head yes mid no => head ++ (yes.source ++ (mid ++ no.source))
  | .doWhile head body tail => head ++ (body.source ++ tail)
  | .tried head body handlers => head ++ (body.source ++ handlers.source)

def Items.source : Items → Text
  | .last gap => gap
  | .next gap s rest => gap ++ (s.source ++ rest.source)
end

/-- An `else` behind it would belong to an `if` in it. -/
def Stmt.openIf : Stmt → Bool
  | .headed head body => conditional.contains (head.takeWhile isWord) || body.openIf
  | .orElse _ _ _ no => no.openIf
  | _ => false

def Stmt.isBlock : Stmt → Bool
  | .block _ => true
  | _ => false

/-- What stands between the statements of a block, or before each handler. -/
inductive Between
  | statements
  | handlers

def Between.allows (b : Between) (r : Region) (gap : Text) : Bool :=
  decide (Sound r gap) &&
    match b with
    | .statements => isGap (shown r gap)
    | .handlers => isHead [text "catch"] ((shown r gap).dropWhile isLayout)

def Between.ends (b : Between) (r : Region) (gap : Text) : Bool :=
  match b with
  | .statements => b.allows r gap
  | .handlers => gap == []

mutual
def Stmt.wf (r : Region) : Stmt → Bool
  | .simple t => isSimple r t
  | .block items =>
    r.inCode && items.wf .statements (r.step '\x7b') &&
      (read (r.step '\x7b') items.source).inCode
  | .headed head body =>
    begins head && decide (Sound r head) &&
      (isHead controls (shown r head) || isLabel (shown r head)) && body.wf (read r head)
  | .orElse head yes mid no =>
    let behind := read (read r head) yes.source
    begins head && decide (Sound r head) && isHead conditional (shown r head) &&
      yes.wf (read r head) && !yes.openIf && decide (Sound behind mid) &&
      isOnly (text "else") (shown behind mid) && no.wf (read behind mid)
  | .doWhile head body tail =>
    let behind := read (read r head) body.source
    begins head && decide (Sound r head) && isOnly (text "do") (shown r head) &&
      body.wf (read r head) && decide (Sound behind tail) && tail.getLast? == some ';' &&
      (afterHead [text "while"] ((shown behind tail).dropWhile isLayout)).any
        (fun z => z.dropWhile isLayout == [';'])
  | .tried head body handlers =>
    begins head && decide (Sound r head) && isOnly (text "try") (shown r head) &&
      body.isBlock && body.wf (read r head) &&
      handlers.wf .handlers (read (read r head) body.source)

def Items.wf (b : Between) (r : Region) : Items → Bool
  | .last gap => b.ends r gap
  | .next gap s rest =>
    b.allows r gap && (b matches .statements || s.isBlock) && s.wf (read r gap) &&
      rest.wf b (read (read r gap) s.source)
end

/-- A statement within another: where it begins, and whether it stands in a list of
statements, behind a label or not, and is not another one's body. -/
structure Node where
  place : Nat
  listed : Bool
  stmt : Stmt

mutual
def Stmt.nodes (listed : Bool) (i : Nat) : Stmt → List Node
  | .simple t => [⟨i, listed, .simple t⟩]
  | .block items => ⟨i, listed, .block items⟩ :: items.nodes true (i + 1)
  | .headed head body =>
    ⟨i, listed, .headed head body⟩ ::
      body.nodes (listed && !controls.contains (head.takeWhile isWord)) (i + head.length)
  | .orElse head yes mid no =>
    ⟨i, listed, .orElse head yes mid no⟩ :: (yes.nodes false (i + head.length) ++
      no.nodes false (i + head.length + yes.source.length + mid.length))
  | .doWhile head body tail =>
    ⟨i, listed, .doWhile head body tail⟩ :: body.nodes false (i + head.length)
  | .tried head body handlers =>
    ⟨i, listed, .tried head body handlers⟩ :: (body.nodes false (i + head.length) ++
      handlers.nodes false (i + head.length + body.source.length))

def Items.nodes (listed : Bool) (i : Nat) : Items → List Node
  | .last _ => []
  | .next gap s rest =>
    s.nodes listed (i + gap.length) ++ rest.nodes listed (i + gap.length + s.source.length)
end

/-- The innermost statement around a place; the nodes around it are within each other. -/
def Items.innermost (items : Items) (k : Nat) : Option Node :=
  ((items.nodes true 0).filter (fun n =>
    n.place ≤ k && k < n.place + n.stmt.source.length)).getLast?

theorem Sound.append {r : Region} {x y : Text} (hx : Sound r x) (hy : Sound (read r x) y) :
    Sound r (x ++ y) := by
  refine ⟨?_, ?_⟩
  · rw [read_append]
    exact hy.ends
  · rw [shown_append]
    exact hx.nested.append hy.nested

theorem Sound.bracket {r : Region} {x : Text} (hr : r.inCode = true)
    (hx : Sound (r.step '\x7b') x) : Sound r ('\x7b' :: (x ++ ['\x7d'])) := by
  have hclose := shows_bracket hx.ends (c := '\x7d') (by decide)
  refine ⟨?_, ?_⟩
  · change (read (r.step '\x7b') (x ++ ['\x7d'])).inCode = true
    rw [read_snoc]
    exact (Bool.and_eq_true _ _ ▸ hclose).2
  · rw [shown_bracket hr (by decide), shown_append, shown_bracket hx.ends (by decide)]
    exact hx.nested.bracket (by decide)

theorem isSimple_sound {r : Region} {t : Text} (h : isSimple r t = true) : Sound r t := by
  simp only [isSimple, Bool.and_eq_true, beq_iff_eq, decide_eq_true_eq] at h
  obtain ⟨⟨⟨⟨⟨⟨hlast, -⟩, hsound⟩, -⟩, -⟩, -⟩, -⟩ := h
  have ht : t.dropLast ++ [';'] = t := List.dropLast_append_getLast? _ hlast
  have hsemi : Sound (read r t.dropLast) [';'] := by
    have hshows := shows_bracket hsound.ends (c := ';') (by decide)
    refine ⟨(Bool.and_eq_true _ _ ▸ hshows).2, ?_⟩
    rw [shown_bracket hsound.ends (by decide), shown]
    exact .of_none (by decide) (by decide)
  rw [← ht]
  exact hsound.append hsemi

theorem Between.allows_sound {b : Between} {r : Region} {gap : Text}
    (h : b.allows r gap = true) : Sound r gap := by
  unfold Between.allows at h
  rw [Bool.and_eq_true, decide_eq_true_eq] at h
  exact h.1

theorem Between.ends_sound {b : Between} {r : Region} {gap : Text} (hr : r.inCode = true)
    (h : b.ends r gap = true) : Sound r gap := by
  cases b with
  | statements => exact allows_sound (b := .statements) h
  | handlers =>
    rw [eq_of_beq h]
    exact ⟨hr, .of_none List.not_mem_nil List.not_mem_nil⟩

mutual
/-- A statement closes the braces it opens. -/
theorem Stmt.sound {r : Region} (hr : r.inCode = true) (s : Stmt) (h : s.wf r = true) :
    Sound r s.source := by
  cases s with
  | simple t => exact isSimple_sound h
  | block items =>
    simp only [Stmt.wf, Bool.and_eq_true] at h
    obtain ⟨⟨-, hitems⟩, -⟩ := h
    have hopen := shows_bracket hr (c := '\x7b') (by decide)
    exact Sound.bracket hr (items.sound (Bool.and_eq_true _ _ ▸ hopen).2 hitems)
  | headed head body =>
    simp only [Stmt.wf, Bool.and_eq_true, decide_eq_true_eq] at h
    obtain ⟨⟨⟨-, hhead⟩, -⟩, hbody⟩ := h
    exact hhead.append (body.sound hhead.ends hbody)
  | orElse head yes mid no =>
    simp only [Stmt.wf, Bool.and_eq_true, decide_eq_true_eq] at h
    obtain ⟨⟨⟨⟨⟨⟨⟨-, hhead⟩, -⟩, hyes⟩, -⟩, hmid⟩, -⟩, hno⟩ := h
    exact hhead.append ((yes.sound hhead.ends hyes).append (hmid.append (no.sound hmid.ends hno)))
  | doWhile head body tail =>
    simp only [Stmt.wf, Bool.and_eq_true, decide_eq_true_eq] at h
    obtain ⟨⟨⟨⟨⟨⟨-, hhead⟩, -⟩, hbody⟩, htail⟩, -⟩, -⟩ := h
    exact hhead.append ((body.sound hhead.ends hbody).append htail)
  | tried head body handlers =>
    simp only [Stmt.wf, Bool.and_eq_true, decide_eq_true_eq] at h
    obtain ⟨⟨⟨⟨⟨-, hhead⟩, -⟩, -⟩, hbody⟩, hhandlers⟩ := h
    have hsound := body.sound hhead.ends hbody
    exact hhead.append (hsound.append (handlers.sound hsound.ends hhandlers))

theorem Items.sound {b : Between} {r : Region} (hr : r.inCode = true) (items : Items)
    (h : items.wf b r = true) : Sound r items.source := by
  cases items with
  | last gap => exact Between.ends_sound hr h
  | next gap s rest =>
    simp only [Items.wf, Bool.and_eq_true] at h
    obtain ⟨⟨⟨hgap, -⟩, hs⟩, hrest⟩ := h
    have hfirst := Between.allows_sound hgap
    have hsound := s.sound hfirst.ends hs
    exact hfirst.append (hsound.append (rest.sound hsound.ends hrest))
end

/-- The statement begins at its place in the text, in code, and is well formed there. -/
def Placed (r : Region) (i : Nat) (x : Text) (n : Node) : Prop :=
  ∃ u v, x = u ++ (n.stmt.source ++ v) ∧ n.place = i + u.length ∧
    (read r u).inCode = true ∧ n.stmt.wf (read r u) = true

theorem Placed.within {r : Region} {i j : Nat} {u x v y : Text} {n : Node}
    (h : Placed (read r u) j x n) (hj : j = i + u.length) (hy : y = u ++ (x ++ v)) :
    Placed r i y n := by
  obtain ⟨a, b, rfl, hn, hcode, hwf⟩ := h
  refine ⟨u ++ a, b ++ v, by simp [hy], ?_, ?_, ?_⟩
  · rw [hn, hj, List.length_append]
    omega
  · rw [read_append]
    exact hcode
  · rw [read_append]
    exact hwf

mutual
theorem Stmt.placed {r : Region} (hr : r.inCode = true) (s : Stmt) (listed : Bool) (i : Nat)
    (h : s.wf r = true) : ∀ n ∈ s.nodes listed i, Placed r i s.source n := by
  intro n hn
  have hself : Placed r i s.source ⟨i, listed, s⟩ := ⟨[], [], by simp, rfl, hr, h⟩
  cases s with
  | simple t =>
    rw [Stmt.nodes, List.mem_singleton] at hn
    rw [hn]
    exact hself
  | block items =>
    simp only [Stmt.wf, Bool.and_eq_true] at h
    obtain ⟨⟨-, hitems⟩, -⟩ := h
    rcases List.mem_cons.mp hn with rfl | hn
    · exact hself
    · have hplaced := items.placed _ (i + 1) hitems n hn
      exact Placed.within (u := ['\x7b']) (v := ['\x7d']) hplaced rfl rfl
  | headed head body =>
    simp only [Stmt.wf, Bool.and_eq_true, decide_eq_true_eq] at h
    obtain ⟨⟨⟨-, hhead⟩, -⟩, hbody⟩ := h
    rcases List.mem_cons.mp hn with rfl | hn
    · exact hself
    · exact (body.placed hhead.ends _ _ hbody n hn).within rfl (v := []) (by simp [Stmt.source])
  | orElse head yes mid no =>
    simp only [Stmt.wf, Bool.and_eq_true, decide_eq_true_eq] at h
    obtain ⟨⟨⟨⟨⟨⟨⟨-, hhead⟩, -⟩, hyes⟩, -⟩, hmid⟩, -⟩, hno⟩ := h
    rcases List.mem_cons.mp hn with rfl | hn
    · exact hself
    · rcases List.mem_append.mp hn with hn | hn
      · exact (yes.placed hhead.ends _ _ hyes n hn).within rfl rfl
      · have hplaced := no.placed hmid.ends _ _ hno n hn
        rw [← read_append, ← read_append] at hplaced
        exact hplaced.within (v := []) (by simp; omega) (by simp [Stmt.source])
  | doWhile head body tail =>
    simp only [Stmt.wf, Bool.and_eq_true, decide_eq_true_eq] at h
    obtain ⟨⟨⟨⟨⟨⟨-, hhead⟩, -⟩, hbody⟩, -⟩, -⟩, -⟩ := h
    rcases List.mem_cons.mp hn with rfl | hn
    · exact hself
    · exact (body.placed hhead.ends _ _ hbody n hn).within rfl rfl
  | tried head body handlers =>
    simp only [Stmt.wf, Bool.and_eq_true, decide_eq_true_eq] at h
    obtain ⟨⟨⟨⟨⟨-, hhead⟩, -⟩, -⟩, hbody⟩, hhandlers⟩ := h
    rcases List.mem_cons.mp hn with rfl | hn
    · exact hself
    · rcases List.mem_append.mp hn with hn | hn
      · exact (body.placed hhead.ends _ _ hbody n hn).within rfl rfl
      · have hplaced := handlers.placed _ _ hhandlers n hn
        rw [← read_append] at hplaced
        exact hplaced.within (v := []) (by simp; omega) (by simp [Stmt.source])

theorem Items.placed {b : Between} {r : Region} (items : Items) (listed : Bool) (i : Nat)
    (h : items.wf b r = true) : ∀ n ∈ items.nodes listed i, Placed r i items.source n := by
  intro n hn
  cases items with
  | last gap => cases hn
  | next gap s rest =>
    simp only [Items.wf, Bool.and_eq_true] at h
    obtain ⟨⟨⟨hgap, -⟩, hs⟩, hrest⟩ := h
    have hfirst := Between.allows_sound hgap
    rcases List.mem_append.mp hn with hn | hn
    · exact (s.placed hfirst.ends _ _ hs n hn).within rfl rfl
    · have hplaced := rest.placed _ _ hrest n hn
      rw [← read_append] at hplaced
      exact hplaced.within (v := []) (by simp; omega) (by simp [Items.source])
end

/-- The innermost statement around a place stands there, well formed. -/
theorem Items.innermost_spec {r : Region} {items : Items} {k : Nat} {n : Node}
    (hwf : items.wf .statements r = true) (h : items.innermost k = some n) :
    Placed r 0 items.source n ∧ n.place ≤ k ∧ k < n.place + n.stmt.source.length := by
  have hmem := List.mem_of_getLast? h
  rw [List.mem_filter, Bool.and_eq_true, decide_eq_true_eq, decide_eq_true_eq] at hmem
  exact ⟨items.placed true 0 hwf n hmem.1, hmem.2⟩

end SwitchLdnZt.Library.CStatements
