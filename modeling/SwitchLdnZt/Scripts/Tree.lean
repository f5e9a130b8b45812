import Mathlib.Data.List.Infix
import SwitchLdnZt.Library.PyRegex

namespace SwitchLdnZt.Scripts
open Library

/-- A path from the repository's root, by its components. -/
abbrev Path := List String

/-- Files in the order a directory walk meets them; no content is a file that
does not decode as text. -/
abbrev Tree := List (Path × Option Text)

/-- How a script stops early: `SystemExit` with its message, or the exception of
a file operation or of a match that is `None`. -/
inductive Stop
  | systemExit (message : String)
  | noSuchFile
  | notText
  | notDirectory
  | noMatch
  deriving DecidableEq

abbrev Result := Except Stop

def exit {α : Type} (message : String) : Result α := .error (.systemExit message)

def shown (p : Path) : String := "/".intercalate p

def Tree.raw (t : Tree) (p : Path) : Option (Option Text) :=
  (t.find? (fun f => f.1 == p)).map (·.2)

def Tree.readText (t : Tree) (p : Path) : Result Text :=
  match t.raw p with
  | none => .error .noSuchFile
  | some none => .error .notText
  | some (some s) => .ok (universalNewlines s)

def Tree.writeText (p : Path) (s : Text) : Tree → Tree
  | [] => [(p, some s)]
  | f :: fs => if f.1 == p then (p, some s) :: fs else f :: Tree.writeText p s fs

/-- Read, compute, and write back what the computation asks to be written. -/
def edit (p : Path) (f : Text → Result (Option Text)) (t : Tree) : Result Tree := do
  let s ← t.readText p
  match ← f s with
  | some s' => .ok (t.writeText p s')
  | none => .ok t

/-- `p.parent.mkdir(parents=True, exist_ok=True)` and `p.write_text(s)` -/
def create (p : Path) (s : Text) (t : Tree) : Result Tree :=
  if p.dropLast.inits.any (fun d => (t.raw d).isSome) then .error .notDirectory
  else .ok (t.writeText p s)

/-- `Path(root).rglob(name)` -/
def Tree.rglob (t : Tree) (root name : String) : List Path :=
  (t.map (·.1)).filter (fun p => p.head? == some root && p.getLast? == some name)

/-- The first file of that name under `libzt` that reads as a text with all of
`required` in it. -/
def findFile (t : Tree) (name : String) (required : List Text) : Option Path :=
  (t.rglob "libzt" name).find? (fun p =>
    match t.readText p with
    | .ok s => required.all (fun x => occurs x s)
    | .error _ => false)

theorem writeText_raw_self (t : Tree) (p : Path) (s : Text) :
    (t.writeText p s).raw p = some (some s) := by
  induction t with
  | nil => simp [Tree.writeText, Tree.raw]
  | cons f fs ih =>
    unfold Tree.writeText
    split
    · simp [Tree.raw]
    · next hne =>
      simp only [Tree.raw, List.find?_cons, hne] at ih ⊢
      exact ih

theorem writeText_raw_other (t : Tree) {p q : Path} (s : Text) (h : q ≠ p) :
    (t.writeText p s).raw q = t.raw q := by
  have hpq : (p == q) = false := by simpa using Ne.symm h
  induction t with
  | nil => simp [Tree.writeText, Tree.raw, hpq]
  | cons f fs ih =>
    unfold Tree.writeText
    split
    · next he =>
      have hfq : (f.1 == q) = false := by
        rw [beq_iff_eq.mp he]
        exact hpq
      simp only [Tree.raw, List.find?_cons, hpq, hfq]
    · simp only [Tree.raw, List.find?_cons] at ih ⊢
      split
      · rfl
      · exact ih

/-- What a finished edit did. -/
theorem edit_ok {p : Path} {f : Text → Result (Option Text)} {t t' : Tree}
    (h : edit p f t = .ok t') :
    ∃ s, t.raw p = some (some s) ∧ ((f (universalNewlines s) = .ok none ∧ t' = t) ∨
      ∃ s', f (universalNewlines s) = .ok (some s') ∧ t' = t.writeText p s') := by
  obtain ⟨s, hr, h⟩ := bind_ok.mp h
  obtain ⟨o, hf, h⟩ := bind_ok.mp h
  unfold Tree.readText at hr
  split at hr
  · cases hr
  · cases hr
  · next raw hraw =>
    cases hr
    refine ⟨raw, hraw, ?_⟩
    cases o with
    | none =>
      cases h
      exact .inl ⟨hf, rfl⟩
    | some s' =>
      cases h
      exact .inr ⟨s', hf, rfl⟩

/-- An edit leaves every other file alone. -/
theorem edit_frame {p q : Path} {f : Text → Result (Option Text)} {t t' : Tree}
    (h : edit p f t = .ok t') (hq : q ≠ p) : t'.raw q = t.raw q := by
  obtain ⟨s, -, ⟨-, rfl⟩ | ⟨s', -, rfl⟩⟩ := edit_ok h
  · rfl
  · exact writeText_raw_other t s' hq

theorem rglob_last {t : Tree} {root name : String} {q : Path} (h : q ∈ t.rglob root name) :
    q.getLast? = some name := by
  have hq := (List.mem_filter.mp h).2
  simp only [Bool.and_eq_true, beq_iff_eq] at hq
  exact hq.2

/-- A walk for files of a name finds one of that name. -/
theorem rglob_name {t : Tree} {root name : String} {ok : Path → Bool} {p : Path}
    (h : (t.rglob root name).find? ok = some p) : p.getLast? = some name :=
  rglob_last (List.mem_of_find?_eq_some h)

theorem findFile_name {t : Tree} {name : String} {required : List Text} {p : Path}
    (h : findFile t name required = some p) : p.getLast? = some name := rglob_name h

/-- A file with this text is written as it is. -/
theorem writeText_same {t : Tree} {p : Path} {s : Text} (h : t.raw p = some (some s)) :
    t.writeText p s = t := by
  induction t with
  | nil => cases h
  | cons f fs ih =>
    unfold Tree.writeText
    rw [Tree.raw, List.find?_cons] at h
    split at h
    next hf => rw [if_pos hf, ← beq_iff_eq.mp hf, ← Option.some.inj h]
    next hf => rw [if_neg (by simp [hf]), ih h]

theorem writeText_paths {t : Tree} {p : Path} {r : Option Text} (h : t.raw p = some r) (s : Text) :
    (t.writeText p s).map (·.1) = t.map (·.1) := by
  induction t with
  | nil => cases h
  | cons f fs ih =>
    unfold Tree.writeText
    rw [Tree.raw, List.find?_cons] at h
    split at h
    next hf => rw [if_pos hf, List.map_cons, List.map_cons, beq_iff_eq.mp hf]
    next hf => rw [if_neg (by simp [hf]), List.map_cons, List.map_cons, ih h]

section
variable {t t' t'' : Tree} {p q : Path} {name : String} {names : List String}
variable {f : Text → Result (Option Text)}

theorem readText_of_raw {s : Text} (h : t.raw p = some (some s)) :
    t.readText p = .ok (universalNewlines s) := by
  rw [Tree.readText, h]

theorem readText_congr (h : t'.raw p = t.raw p) : t'.readText p = t.readText p := by
  rw [Tree.readText, Tree.readText, h]

/-- An edit that has nothing to write, or what is there already, leaves the tree. -/
theorem edit_idle {s : Text} (hraw : t.raw p = some (some s))
    (h : f (universalNewlines s) = .ok none ∨ '\r' ∉ s ∧ f s = .ok (some s)) :
    edit p f t = .ok t := by
  refine bind_ok.mpr ⟨_, readText_of_raw hraw, ?_⟩
  rcases h with hnone | ⟨hclean, hsome⟩
  · exact bind_ok.mpr ⟨_, hnone, rfl⟩
  · rw [universalNewlines_same hclean]
    refine bind_ok.mpr ⟨_, hsome, ?_⟩
    dsimp only
    rw [writeText_same hraw]

theorem edit_paths (h : edit p f t = .ok t') : t'.map (·.1) = t.map (·.1) := by
  obtain ⟨s, hraw, ⟨-, rfl⟩ | ⟨s', -, rfl⟩⟩ := edit_ok h
  · rfl
  · exact writeText_paths hraw s'

/-- Only files of these names may have changed. -/
structure Only (names : List String) (t t' : Tree) : Prop where
  paths : t'.map (·.1) = t.map (·.1)
  same : ∀ q, (∀ n ∈ names, q.getLast? ≠ some n) → t'.raw q = t.raw q

theorem Only.refl (names : List String) (t : Tree) : Only names t t := ⟨rfl, fun _ _ => rfl⟩

theorem Only.trans {names' : List String} (h : Only names t t') (h' : Only names' t' t'') :
    Only (names ++ names') t t'' := by
  refine ⟨h'.paths.trans h.paths, ?_⟩
  intro q hq
  obtain ⟨hfirst, hsecond⟩ := List.forall_mem_append.mp hq
  rw [h'.same q hsecond, h.same q hfirst]

theorem Only.raw (h : Only names t t') (hp : p.getLast? = some name) (hn : name ∉ names) :
    t'.raw p = t.raw p := by
  apply h.same
  rintro n hmem he
  rw [hp] at he
  cases he
  exact hn hmem

theorem edit_only (h : edit p f t = .ok t') (hp : p.getLast? = some name) : Only [name] t t' := by
  refine ⟨edit_paths h, ?_⟩
  intro q hq
  apply edit_frame h
  rintro rfl
  exact hq name List.mem_cons_self hp

/-- Of the files of this name only this one may have changed. -/
structure AllBut (name : String) (p : Path) (t t' : Tree) : Prop where
  paths : t'.map (·.1) = t.map (·.1)
  same : ∀ q, q.getLast? = some name → q ≠ p → t'.raw q = t.raw q

theorem AllBut.trans (h : AllBut name p t t') (h' : AllBut name p t' t'') :
    AllBut name p t t'' :=
  ⟨h'.paths.trans h.paths, fun q hq hne => (h'.same q hq hne).trans (h.same q hq hne)⟩

theorem edit_allBut (h : edit p f t = .ok t') (name : String) : AllBut name p t t' :=
  ⟨edit_paths h, fun _ _ hne => edit_frame h hne⟩

theorem Only.allBut (h : Only names t t') (hn : name ∉ names) (p : Path) : AllBut name p t t' :=
  ⟨h.paths, fun _ hq _ => h.raw hq hn⟩

theorem rglob_of_paths (h : t'.map (·.1) = t.map (·.1)) (root name : String) :
    t'.rglob root name = t.rglob root name := by
  rw [Tree.rglob, Tree.rglob, h]

end

end SwitchLdnZt.Scripts
