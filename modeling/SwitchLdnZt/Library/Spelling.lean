import SwitchLdnZt.Library.PyRegex

namespace SwitchLdnZt.Library

/-- A character of a text that was read, with how the file spells it; a character
that an edit put in has no spelling of its own. -/
structure Spelled where
  char : Char
  own : Option Text
deriving DecidableEq

/-- A file's characters as text mode reads them. -/
def spell : Text → List Spelled
  | [] => []
  | '\r' :: '\n' :: cs => ⟨'\n', some ['\r', '\n']⟩ :: spell cs
  | '\r' :: cs => ⟨'\n', some ['\r']⟩ :: spell cs
  | c :: cs => ⟨c, some [c]⟩ :: spell cs

def chars (us : List Spelled) : Text := us.map Spelled.char

/-- The text with every character in the file's own spelling. -/
def respelled (us : List Spelled) : Text := us.flatMap (fun u => u.own.getD [u.char])

/-- What the file keeps, in its own spelling. -/
def untouched (us : List Spelled) : Text := us.flatMap (fun u => u.own.getD [])

theorem spell_chars (s : Text) : chars (spell s) = universalNewlines s := by
  induction s using universalNewlines.induct with
  | case1 => rfl
  | case2 cs ih => simpa [spell, universalNewlines, chars] using ih
  | case3 cs hcs ih => simpa [spell, universalNewlines, chars] using ih
  | case4 c cs h1 h2 ih => simpa [spell, universalNewlines, chars] using ih

/-- A spelling is the character itself, or a line end with a carriage return. -/
inductive Spelled.Sound : Spelled → Prop
  | put (c : Char) : Sound ⟨c, none⟩
  | plain (c : Char) : c ≠ '\r' → Sound ⟨c, some [c]⟩
  | crlf : Sound ⟨'\n', some ['\r', '\n']⟩
  | cr : Sound ⟨'\n', some ['\r']⟩

theorem spell_sound (s : Text) : ∀ u ∈ spell s, u.Sound := by
  induction s using universalNewlines.induct with
  | case1 => simp [spell]
  | case2 cs ih =>
    rw [spell, List.forall_mem_cons]
    exact ⟨.crlf, ih⟩
  | case3 cs hcs ih =>
    rw [spell, List.forall_mem_cons]
    · exact ⟨.cr, ih⟩
    · exact hcs
  | case4 c cs h1 h2 ih =>
    rw [spell, List.forall_mem_cons]
    · exact ⟨.plain c h2, ih⟩
    · exact h1
    · exact h2

theorem Spelled.Sound.length {u : Spelled} (h : u.Sound) : 1 ≤ (u.own.getD [u.char]).length := by
  cases h <;> simp

theorem respelled_length {us : List Spelled} (h : ∀ u ∈ us, u.Sound) :
    us.length ≤ (respelled us).length := by
  induction us with
  | nil => simp [respelled]
  | cons u us ih =>
    obtain ⟨hu, hus⟩ := List.forall_mem_cons.mp h
    have h1 := hu.length
    have h2 := ih hus
    simp only [respelled, List.flatMap_cons, List.length_append, List.length_cons] at h2 ⊢
    omega

theorem Spelled.Sound.plain_iff {u : Spelled} (h : u.Sound) :
    u.own.getD [u.char] = [u.char] ↔ '\r' ∉ u.own.getD [] := by
  cases h with
  | put c => simp
  | plain c hc => simpa using Ne.symm hc
  | crlf => decide
  | cr => decide

/-- Writing the characters keeps the spelling just where nothing that is kept is
spelled with a carriage return. -/
theorem chars_eq_respelled {us : List Spelled} (h : ∀ u ∈ us, u.Sound) :
    chars us = respelled us ↔ '\r' ∉ untouched us := by
  induction us with
  | nil => simp [chars, respelled, untouched]
  | cons u us ih =>
    obtain ⟨hu, hus⟩ := List.forall_mem_cons.mp h
    have hsplit : chars (u :: us) = respelled (u :: us) ↔
        u.own.getD [u.char] = [u.char] ∧ chars us = respelled us := by
      simp only [chars, respelled, List.map_cons, List.flatMap_cons]
      constructor
      · intro he
        have hlen := congrArg List.length he
        have h1 := hu.length
        have h2 := respelled_length hus
        simp only [respelled, List.length_cons, List.length_map, List.length_append] at hlen h2
        obtain ⟨c, hc⟩ := List.length_eq_one_iff.mp
          (by omega : (u.own.getD [u.char]).length = 1)
        rw [hc, List.singleton_append] at he
        obtain ⟨rfl, hrest⟩ := List.cons.inj he
        exact ⟨hc, hrest⟩
      · rintro ⟨hc, hrest⟩
        rw [hc, hrest, List.singleton_append]
    rw [hsplit, hu.plain_iff, ih hus]
    simp [untouched]

/-- A replacement of one stretch of a text, where it finds one. -/
structure Replacement where
  find : Text → Option (Text × Text × Text)
  find_eq : ∀ s a m b, find s = some (a, m, b) → s = a ++ m ++ b
  new : Text

/-- `s.replace(old, new, 1)` -/
def Replacement.literal (old new : Text) : Replacement where
  find s := (cut old s).map (fun (a, b) => (a, old, b))
  find_eq s a m b h := by
    obtain ⟨⟨a', b'⟩, hc, he⟩ := Option.map_eq_some_iff.mp h
    cases he
    exact cut_eq hc
  new := new

/-- `re.subn(pat, new, s, count=1)`, for a `new` that names no group -/
def Replacement.regex (pat : Pattern) (new : Text) : Replacement where
  find s := (search pat s).map (fun (a, segs, b) => (a, segs.flatten, b))
  find_eq s a m b h := by
    obtain ⟨⟨a', segs, b'⟩, hs, he⟩ := Option.map_eq_some_iff.mp h
    cases he
    exact (searchFrom_spec hs).1
  new := new

def Replacement.apply (r : Replacement) (s : Text) : Text :=
  match r.find s with
  | some (a, _, b) => a ++ r.new ++ b
  | none => s

/-- The replacement on the file's own characters: what is kept keeps its spelling. -/
def Replacement.applyOn (r : Replacement) (us : List Spelled) : List Spelled :=
  match r.find (chars us) with
  | some (a, m, _) =>
    us.take a.length ++ r.new.map (fun c => ⟨c, none⟩) ++ us.drop (a.length + m.length)
  | none => us

@[simp] theorem Replacement.apply_literal (old new s : Text) :
    (Replacement.literal old new).apply s = replaceFirst old new s := by
  simp only [Replacement.apply, Replacement.literal, replaceFirst]
  cases cut old s <;> rfl

@[simp] theorem Replacement.apply_regex (pat : Pattern) (new s : Text) :
    (Replacement.regex pat new).apply s = (subFirst pat (fun _ => new) s).1 := by
  simp only [Replacement.apply, Replacement.regex, subFirst]
  cases search pat s <;> rfl

theorem Replacement.applyOn_chars (r : Replacement) (us : List Spelled) :
    chars (r.applyOn us) = r.apply (chars us) := by
  unfold Replacement.applyOn Replacement.apply
  split
  next a m b hf =>
    have he := r.find_eq _ _ _ _ hf
    have ha : chars (us.take a.length) = a := by
      simp only [chars, List.map_take] at he ⊢
      rw [he, List.append_assoc, List.take_left]
    have hb : chars (us.drop (a.length + m.length)) = b := by
      simp only [chars, List.map_drop] at he ⊢
      rw [he, ← List.length_append, List.drop_left]
    simp only [chars, List.map_append, List.map_map] at ha hb ⊢
    rw [ha, hb]
    simp [Function.comp_def]
  next hf => rfl

theorem Replacement.applyOn_sound (r : Replacement) {us : List Spelled}
    (h : ∀ u ∈ us, u.Sound) : ∀ u ∈ r.applyOn us, u.Sound := by
  unfold Replacement.applyOn
  split
  · intro u hu
    rcases List.mem_append.mp hu with hu | hu
    · rcases List.mem_append.mp hu with hu | hu
      · exact h u (List.mem_of_mem_take hu)
      · obtain ⟨c, _, rfl⟩ := List.mem_map.mp hu
        exact .put c
    · exact h u (List.mem_of_mem_drop hu)
  · exact h

def applyAll (rs : List Replacement) (s : Text) : Text := rs.foldl (fun s r => r.apply s) s

def applyAllOn (rs : List Replacement) (us : List Spelled) : List Spelled :=
  rs.foldl (fun us r => r.applyOn us) us

theorem applyAllOn_chars (rs : List Replacement) (us : List Spelled) :
    chars (applyAllOn rs us) = applyAll rs (chars us) := by
  induction rs generalizing us with
  | nil => rfl
  | cons r rs ih =>
    rw [applyAllOn, applyAll, List.foldl_cons, List.foldl_cons, ← Replacement.applyOn_chars]
    exact ih _

theorem applyAllOn_sound (rs : List Replacement) {us : List Spelled} (h : ∀ u ∈ us, u.Sound) :
    ∀ u ∈ applyAllOn rs us, u.Sound := by
  induction rs generalizing us with
  | nil => exact h
  | cons r rs ih => exact ih (r.applyOn_sound h)

/-- Edits of a text that was read keep every other byte of the file exactly where
they leave no carriage return of it. -/
theorem edits_keep_iff (rs : List Replacement) (raw : Text) :
    applyAll rs (universalNewlines raw) = respelled (applyAllOn rs (spell raw)) ↔
      '\r' ∉ untouched (applyAllOn rs (spell raw)) := by
  rw [← spell_chars, ← applyAllOn_chars]
  exact chars_eq_respelled (applyAllOn_sound rs (spell_sound raw))

end SwitchLdnZt.Library
