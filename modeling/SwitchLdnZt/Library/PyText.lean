import Mathlib.Data.List.Infix

namespace SwitchLdnZt.Library

/-- A Python `str`. -/
abbrev Text := List Char

/-- A literal of the source; all of them are ASCII, where a byte is a character. -/
def text (s : String) : Text := s.toByteArray.data.toList.map (fun b => Char.ofNat b.toNat)

/-- A literal of several lines; a last empty one stands for a final line end. -/
def lines (ls : List String) : Text := ['\n'].intercalate (ls.map text)

/-- `s.partition(old)`: what stands before the first occurrence and behind it. -/
def cut (old : Text) : Text → Option (Text × Text)
  | [] => if old.isPrefixOf [] then some ([], []) else none
  | c :: cs =>
    if old.isPrefixOf (c :: cs) then some ([], (c :: cs).drop old.length)
    else (cut old cs).map (fun (a, b) => (c :: a, b))

/-- `old in s` -/
def occurs (old s : Text) : Bool := (cut old s).isSome

/-- `s.replace(old, new, 1)` -/
def replaceFirst (old new s : Text) : Text :=
  match cut old s with
  | some (a, b) => a ++ new ++ b
  | none => s

/-- The pieces between the non-overlapping occurrences, left to right; `skip`
characters belong to the occurrence just met. -/
def pieces (old : Text) : Nat → Text → Text × List Text
  | _, [] => ([], [])
  | skip + 1, _ :: cs => pieces old skip cs
  | 0, c :: cs =>
    if old.isPrefixOf (c :: cs) then
      let (p, ps) := pieces old (old.length - 1) cs
      ([], p :: ps)
    else
      let (p, ps) := pieces old 0 cs
      (c :: p, ps)

/-- `s.count(old)`, for an `old` that is not empty -/
def occurrences (old s : Text) : Nat := (pieces old 0 s).2.length

/-- `s.replace(old, new)`, for an `old` that is not empty -/
def replaceAll (old new s : Text) : Text :=
  let (p, ps) := pieces old 0 s
  p ++ ps.flatMap (new ++ ·)

/-- The loop over a text behind an opening bracket: up to the one that closes it,
and what follows. `depth` counts the brackets open. -/
def closing (opener closer : Char) : Nat → Text → Option (Text × Text)
  | _, [] => none
  | depth, c :: cs =>
    if c = opener then
      (closing opener closer (depth + 1) cs).map (fun (a, b) => (c :: a, b))
    else if c = closer then
      if depth = 1 then some ([c], cs)
      else (closing opener closer (depth - 1) cs).map (fun (a, b) => (c :: a, b))
    else (closing opener closer depth cs).map (fun (a, b) => (c :: a, b))

/-- `s.find(needle, start)` -/
def find (needle s : Text) (start : Int) : Int :=
  let i := (if start < 0 then start + s.length else start).toNat
  match cut needle (s.drop i) with
  | some (a, _) => i + a.length
  | none => -1

/-- `s[i:j]`, for a `j` that is not negative -/
def slice (s : Text) (i j : Int) : Text := (s.take j.toNat).drop i.toNat

/-- `s.rfind('\n', 0, pos) + 1` -/
def lineStart (s : Text) (pos : Nat) : Nat :=
  (s.take pos).length - ((s.take pos).reverse.takeWhile (· ≠ '\n')).length

def closeLoop (opener closer : Char) : Int → Nat → Text → Option Nat
  | _, _, [] => none
  | depth, i, c :: cs =>
    if c = opener then closeLoop opener closer (depth + 1) (i + 1) cs
    else if c = closer then
      if depth - 1 = 0 then some i else closeLoop opener closer (depth - 1) (i + 1) cs
    else closeLoop opener closer depth (i + 1) cs

/-- The loop over `range(start, len(s))` that counts brackets from zero; from -1 on
it sees the last character first. -/
def closeFrom (opener closer : Char) (s : Text) (start : Int) : Option Nat :=
  if 0 ≤ start then closeLoop opener closer 0 start.toNat (s.drop start.toNat)
  else match s.getLast? with
    | none => none
    | some c =>
      closeLoop opener closer (if c = opener then 1 else if c = closer then -1 else 0) 0 s

/-- What reading a file in text mode makes of its line ends. -/
def universalNewlines : Text → Text
  | [] => []
  | '\r' :: '\n' :: cs => '\n' :: universalNewlines cs
  | '\r' :: cs => '\n' :: universalNewlines cs
  | c :: cs => c :: universalNewlines cs

/-- A script goes on exactly where nothing has stopped it. -/
theorem bind_ok {ε α β : Type} {x : Except ε α} {f : α → Except ε β} {b : β} :
    (x >>= f) = .ok b ↔ ∃ a, x = .ok a ∧ f a = .ok b := by
  cases x with
  | error e => simp [bind, Except.bind]
  | ok a => simp [bind, Except.bind]

theorem isPrefixOf_eq {old s : Text} (h : old.isPrefixOf s = true) :
    s = old ++ s.drop old.length := by
  obtain ⟨t, rfl⟩ := List.isPrefixOf_iff_prefix.mp h
  simp

theorem cut_eq {old s a b : Text} (h : cut old s = some (a, b)) : s = a ++ old ++ b := by
  induction s generalizing a with
  | nil =>
    unfold cut at h
    split at h
    next hp =>
      cases h
      simpa using isPrefixOf_eq hp
    next => cases h
  | cons c cs ih =>
    unfold cut at h
    split at h
    next hp =>
      cases h
      simpa using isPrefixOf_eq hp
    next =>
      obtain ⟨⟨a', b'⟩, hc, he⟩ := Option.map_eq_some_iff.mp h
      cases he
      rw [ih hc]
      rfl

/-- The cut finds an occurrence, and none later than the one given. -/
theorem cut_append (old a b : Text) :
    ∃ a' b', cut old (a ++ old ++ b) = some (a', b') ∧ a'.length ≤ a.length := by
  induction a with
  | nil =>
    have hp : old.isPrefixOf (old ++ b) = true := List.isPrefixOf_iff_prefix.mpr ⟨b, rfl⟩
    refine ⟨[], (old ++ b).drop old.length, ?_, Nat.le_refl _⟩
    rw [List.nil_append]
    revert hp
    cases old ++ b with
    | nil =>
      intro hp
      simp [cut, hp]
    | cons c cs =>
      intro hp
      simp [cut, hp]
  | cons c a ih =>
    obtain ⟨a', b', hc, hl⟩ := ih
    rw [List.cons_append, List.cons_append, cut]
    split
    · exact ⟨[], _, rfl, Nat.zero_le _⟩
    · exact ⟨c :: a', b', by rw [hc, Option.map_some], by simpa using hl⟩

theorem occurs_iff {old s : Text} : occurs old s = true ↔ ∃ a b, s = a ++ old ++ b := by
  constructor
  · intro h
    obtain ⟨⟨a, b⟩, hc⟩ := Option.isSome_iff_exists.mp h
    exact ⟨a, b, cut_eq hc⟩
  · intro h
    rcases h with ⟨a, b, rfl⟩
    obtain ⟨a', b', hc, -⟩ := cut_append old a b
    rw [occurs, hc, Option.isSome_some]

theorem occurs_append {old s : Text} (h : occurs old s = true) (a b : Text) :
    occurs old (a ++ s ++ b) = true := by
  obtain ⟨x, y, rfl⟩ := occurs_iff.mp h
  exact occurs_iff.mpr ⟨a ++ x, y ++ b, by simp⟩

/-- Counting a character that no line end is made of. -/
theorem count_universalNewlines {c : Char} (hr : c ≠ '\r') (hn : c ≠ '\n') (s : Text) :
    (universalNewlines s).count c = s.count c := by
  induction s using universalNewlines.induct with
  | case1 => rfl
  | case2 cs ih => simp [universalNewlines, ih, Ne.symm hr, Ne.symm hn]
  | case3 cs hcs ih => simp [universalNewlines, ih, Ne.symm hr, Ne.symm hn]
  | case4 d cs h₁ h₂ ih =>
    rw [universalNewlines]
    · simp [List.count_cons, ih]
    · exact h₁
    · exact h₂

theorem universalNewlines_clean (s : Text) : '\r' ∉ universalNewlines s := by
  induction s using universalNewlines.induct with
  | case1 => simp [universalNewlines]
  | case2 cs ih => simp [universalNewlines, ih]
  | case3 cs hcs ih => simp [universalNewlines, ih]
  | case4 d cs h₁ h₂ ih =>
    rw [universalNewlines]
    · have hd : '\r' ≠ d := fun he => h₂ he.symm
      simp [hd, ih]
    · exact h₁
    · exact h₂

/-- Without a carriage return a text is read as it is written. -/
theorem universalNewlines_same {s : Text} (h : '\r' ∉ s) : universalNewlines s = s := by
  induction s using universalNewlines.induct with
  | case1 => rfl
  | case2 cs ih => simp at h
  | case3 cs hcs ih => simp at h
  | case4 d cs h₁ h₂ ih =>
    rw [universalNewlines, ih (fun hm => h (List.mem_cons_of_mem d hm))]
    · exact h₁
    · exact h₂

end SwitchLdnZt.Library
