import SwitchLdnZt.Library.Preprocess

namespace SwitchLdnZt.Library.Preprocess
open CTokens

/-- A change of a text that adds lines for `name`: a group behind a place of the text,
a group on lines of its own before it, a group that has a statement as its other
branch, lines that are in such a group already, or none of these. -/
inductive Insertion
  | behind (head : Text) (body : List Text) (tail : Text)
  | before (head : Text) (body : List Text) (pad tail : Text)
  | instead (head : Text) (body : List Text) (stmt tail : Text)
  | within (head : Text) (body : List Text) (last tail : Text)
  | other (old new : Text)

def Insertion.old : Insertion → Text
  | .behind head _ tail | .before head _ _ tail | .within head _ _ tail => head ++ tail
  | .instead head _ stmt tail => head ++ (stmt ++ tail)
  | .other old _ => old

def Insertion.new (name : Text) : Insertion → Text
  | .behind head body tail => head ++ '\n' :: (guarded name body ++ tail)
  | .before head body pad tail => head ++ (guarded name body ++ '\n' :: (pad ++ tail))
  | .instead head body stmt tail =>
    head ++ (rows (ifdef name :: (body ++ [text "#else"])) ++
      (stmt ++ '\n' :: (text "#endif" ++ tail)))
  | .within head body last tail => head ++ '\n' :: (rows body ++ (last ++ tail))
  | .other _ new => new

/-- Lines that are neither directives of a group nor joined with the next. -/
structure Plain (ls : List Text) : Prop where
  conditional : ∀ l ∈ ls, conditional l = none
  inline : ∀ l ∈ ls, '\n' ∉ l
  ends : ∀ l ∈ ls, l.getLast? ≠ some '\\'

def rest (t : Text) : Text := t.takeWhile (· ≠ '\n')

/-- The line that a text breaks off in. -/
def lastLine (u : Text) : Text := (u.splitOn '\n').getLastD []

variable {name : Text} (m : Macros name)

/-- The lines before the one that the text breaks off in. -/
def scanTo (st : Scan) (u : Text) : Scan := (u.splitOn '\n').dropLast.foldl (Scan.line m) st

/-- Nothing would be lost with the rest of the line. -/
def Droppable (head tail : Text) : Prop :=
  (∀ c ∈ (unsplice tail).head?, isWord c = false) ∧
    meaning m (unsplice head ++ dropRest (unsplice tail)) = process m (head ++ tail)

/-- The place is fit for lines of their own. -/
def Insertion.Fit : Insertion → Prop
  | .behind head _ tail => head.getLast? ≠ some '\\' ∧ Droppable m head tail
  | .before head _ _ _ => ∀ c ∈ lastLine (unsplice head), isBlank c = true
  | .instead head _ stmt tail =>
    (∀ c ∈ lastLine (unsplice head), isBlank c = true) ∧ stmt.getLast? ≠ some '\\' ∧
      SelfContained ((unsplice stmt).splitOn '\n') ∧ Droppable m (head ++ stmt) tail
  | .within head _ _ tail =>
    head.getLast? ≠ some '\\' ∧
      (scanTo m ⟨[], []⟩ (unsplice head)).active = false ∧
      conditional (lastLine (unsplice head)) = none ∧
      conditional (lastLine (unsplice head) ++ rest (unsplice tail)) = none
  | .other _ _ => False

theorem lines_cases (u : Text) : '\n' ∉ u ∨ ∃ x p, u = x ++ '\n' :: p ∧ '\n' ∉ p := by
  induction u using List.reverseRecOn with
  | nil => exact .inl (by simp)
  | append_singleton u c ih =>
    by_cases hc : c = '\n'
    · subst hc
      exact .inr ⟨u, [], rfl, by simp⟩
    · rcases ih with h | ⟨x, p, rfl, hp⟩
      · exact .inl (by simp [h, Ne.symm hc])
      · exact .inr ⟨x, p ++ [c], by simp, by simp [hp, Ne.symm hc]⟩

theorem scan_lastLine (st : Scan) (u t : Text) :
    scan m st (u ++ t) = scan m (scanTo m st u) (lastLine u ++ t) := by
  rcases lines_cases u with h | ⟨x, p, rfl, hp⟩
  · rw [scanTo, lastLine, List.splitOn_eq_singleton h]
    rfl
  · have hu : (x ++ '\n' :: p).splitOn '\n' = x.splitOn '\n' ++ [p] := by
      rw [List.splitOn_append_cons_self, List.splitOn_eq_singleton hp]
    rw [scanTo, lastLine, hu, List.dropLast_concat, List.getLastD_concat, List.append_assoc,
      List.cons_append, scan_newline]
    rfl

theorem lastLine_inline (u : Text) : '\n' ∉ lastLine u := by
  rcases lines_cases u with h | ⟨x, p, rfl, hp⟩
  · rwa [lastLine, List.splitOn_eq_singleton h]
  · rwa [lastLine, List.splitOn_append_cons_self, List.splitOn_eq_singleton hp,
      List.getLastD_concat]

theorem rest_inline (t : Text) : '\n' ∉ rest t := by
  intro h
  have hall := List.all_eq_true.mp List.all_takeWhile '\n' h
  simp at hall

theorem rest_dropRest (t : Text) : rest t ++ dropRest t = t := List.takeWhile_append_dropWhile

/-- What a scan makes of the lines behind the first line's rest. -/
def resume (st : Scan) (t : Text) : Scan :=
  match dropRest t with
  | [] => st
  | _ :: t' => scan m st t'

theorem scan_dropRest (st : Scan) (u t : Text) :
    scan m st (u ++ dropRest t) = resume m (scan m st u) t := by
  unfold resume
  cases h : dropRest t with
  | nil => rw [List.append_nil]
  | cons c t' =>
    have hc : c = '\n' := by
      have := List.head?_dropWhile_not (fun c => decide (c ≠ '\n')) t
      rw [← dropRest, h] at this
      simpa using this
    rw [hc, scan_newline]

theorem scan_rest {l : Text} (hl : '\n' ∉ l) (st : Scan) (t : Text) :
    scan m st (l ++ t) = resume m (st.line m (l ++ rest t)) t := by
  have hone : '\n' ∉ l ++ rest t := by simp [hl, rest_inline]
  rw [← scan_line m hone, ← scan_dropRest, List.append_assoc, rest_dropRest]

theorem unsplice_inline {l : Text} (h : '\n' ∉ l) : unsplice l = l := by
  induction l using unsplice.induct with
  | case1 => rfl
  | case2 cs ih => simp at h
  | case3 c cs hno ih =>
    rw [unsplice, ih (fun hm => h (List.mem_cons_of_mem _ hm))]
    exact hno

theorem unsplice_newline (t : Text) : unsplice ('\n' :: t) = '\n' :: unsplice t := by
  rw [unsplice]
  intro cs h
  cases h

theorem unsplice_rows {ls : List Text} (hin : ∀ l ∈ ls, '\n' ∉ l)
    (hend : ∀ l ∈ ls, l.getLast? ≠ some '\\') (t : Text) :
    unsplice (rows ls ++ t) = rows ls ++ unsplice t := by
  induction ls with
  | nil => rfl
  | cons l ls ih =>
    obtain ⟨hl, hls⟩ := List.forall_mem_cons.mp hin
    obtain ⟨hle, hlse⟩ := List.forall_mem_cons.mp hend
    have hrow (t : Text) : rows (l :: ls) ++ t = l ++ '\n' :: (rows ls ++ t) := by simp [rows]
    rw [hrow, hrow, unsplice_append (.inl hle), unsplice_inline hl, unsplice_newline, ih hls hlse]

theorem head_rest {P : Char → Prop} {t : Text} (h : ∀ c ∈ t.head?, P c) :
    ∀ c ∈ (rest t).head?, P c := by
  intro c hc
  apply h c
  cases t with
  | nil => simp [rest] at hc
  | cons d t =>
    unfold rest at hc
    rw [List.takeWhile_cons] at hc
    split at hc
    · exact hc
    · simp at hc

theorem conditional_endif {r : Text} (h : ∀ c ∈ r.head?, isWord c = false) :
    conditional (text "#endif" ++ r) = some .endif := by
  have hname : (text "endif" ++ r).takeWhile isWord = text "endif" := by
    have hword : ∀ c ∈ text "endif", isWord c = true := List.all_eq_true.mp rfl
    rw [List.takeWhile_append_of_pos hword]
    cases r with
    | nil => rfl
    | cons c r => simp [h c rfl]
  have hdir : directive (text "#endif" ++ r) =
      some ((text "endif" ++ r).takeWhile isWord, (text "endif" ++ r).dropWhile isWord) := rfl
  rw [conditional, hdir, hname]
  rfl

/-- What the insertions need of the macro's name and of the lines they bring. -/
structure Guards (name : Text) : Prop where
  opens : conditional (ifdef name) = some (.opens true (.defined name))
  inline : '\n' ∉ ifdef name
  ends : (ifdef name).getLast? ≠ some '\\'

theorem unsplice_guarded (hg : Guards name) {body : List Text} (hb : Plain body) (t : Text) :
    unsplice (guarded name body ++ t) = guarded name body ++ unsplice t := by
  have hend : unsplice (text "#endif" ++ t) = text "#endif" ++ unsplice t := by
    rw [unsplice_append (.inl (by decide)), unsplice_inline (by decide)]
  rw [guarded, List.append_assoc, unsplice_rows, hend, List.append_assoc]
  · exact List.forall_mem_cons.mpr ⟨hg.inline, hb.inline⟩
  · exact List.forall_mem_cons.mpr ⟨hg.ends, hb.ends⟩

/-- Behind the group the scan goes on with the next line. -/
theorem scan_guarded (hg : Guards name) {body : List Text} (hb : Plain body) {p : Text}
    (hp : ∀ c ∈ p, isBlank c = true) {t : Text} (ht : ∀ c ∈ t.head?, isWord c = false)
    (st : Scan) : scan m st (p ++ (guarded name body ++ t)) = resume m st t := by
  have hopen : conditional (p ++ ifdef name) = some (.opens true (.defined name)) := by
    rw [conditional_indent hp, hg.opens]
  have hlines : p ++ (guarded name body ++ t) =
      rows ((p ++ ifdef name) :: body) ++ (text "#endif" ++ t) := by
    simp [guarded, rows]
  have hin : ∀ l ∈ (p ++ ifdef name) :: body, '\n' ∉ l :=
    List.forall_mem_cons.mpr ⟨by simp [blank_inline hp, hg.inline], hb.inline⟩
  have hskip := skip_group m hopen (conditional_endif (head_rest ht)) hb.conditional st
  rw [← List.cons_append, List.foldl_append, List.foldl_cons, List.foldl_nil] at hskip
  rw [hlines, scan_rows m hin, scan_rest m (by decide), hskip]

/-- Where a group goes in behind a place, the rest of that line is lost. -/
theorem process_behind (hg : Guards name) {head tail : Text} {body : List Text}
    (hb : Plain body) (hhead : head.getLast? ≠ some '\\')
    (hword : ∀ c ∈ (unsplice tail).head?, isWord c = false) :
    process m (head ++ '\n' :: (guarded name body ++ tail)) =
      meaning m (unsplice head ++ dropRest (unsplice tail)) := by
  have hscan := scan_guarded m hg hb (p := []) (by simp) hword (scan m ⟨[], []⟩ (unsplice head))
  rw [process, unsplice_append (.inl hhead), unsplice_newline, unsplice_guarded hg hb, meaning,
    meaning, scan_newline, scan_dropRest, ← hscan]
  rfl

/-- A text that breaks off in a blank line does not end in a backslash. -/
theorem ends_of_blank {head : Text} (h : ∀ c ∈ lastLine (unsplice head), isBlank c = true) :
    head.getLast? ≠ some '\\' := by
  intro hlast
  obtain ⟨x, rfl⟩ := List.getLast?_eq_some_iff.mp hlast
  have hx : unsplice (x ++ ['\\']) = unsplice x ++ ['\\'] := unsplice_append (.inr (by simp))
  have hmem : '\\' ∈ lastLine (unsplice x ++ ['\\']) := by
    rcases lines_cases (unsplice x ++ ['\\']) with hu | ⟨y, p, hu, hp⟩
    · rw [lastLine, List.splitOn_eq_singleton hu]
      simp
    · rw [lastLine, hu, List.splitOn_append_cons_self, List.splitOn_eq_singleton hp,
        List.getLastD_concat]
      have hlast := congrArg List.getLast? hu
      cases p with
      | nil => simp at hlast
      | cons c p =>
        rw [List.getLast?_concat, List.getLast?_append, List.getLast?_cons_cons] at hlast
        have : (c :: p).getLast? = some '\\' := by
          cases hl : (c :: p).getLast? with
          | none => simp at hl
          | some d => simpa [hl] using hlast.symm
        exact List.mem_of_getLast? this
  rw [hx] at h
  exact absurd (h _ hmem) (by decide)

theorem scanTo_wholeLines {st : Scan} (h : WholeLines st.kept) (u : Text) :
    WholeLines (scanTo m st u).kept := by
  unfold scanTo
  induction (u.splitOn '\n').dropLast generalizing st with
  | nil => exact h
  | cons l ls ih => exact ih (line_wholeLines m h l)

/-- A group on lines of its own is not seen. -/
theorem process_before (hg : Guards name) {head pad tail : Text} {body : List Text}
    (hb : Plain body) (hpad : ∀ c ∈ pad, isBlank c = true)
    (h : ∀ c ∈ lastLine (unsplice head), isBlank c = true) :
    process m (head ++ (guarded name body ++ '\n' :: (pad ++ tail))) =
      process m (head ++ tail) := by
  have hpad' : unsplice (pad ++ tail) = pad ++ unsplice tail := by
    have hend : pad.getLast? ≠ some '\\' := by
      intro hlast
      exact absurd (hpad _ (List.mem_of_getLast? hlast)) (by decide)
    rw [unsplice_append (.inl hend), unsplice_inline (blank_inline hpad)]
  let st := scanTo m ⟨[], []⟩ (unsplice head)
  have hst : WholeLines st.kept := scanTo_wholeLines m (.inl rfl) _
  have hscan : scan m st (lastLine (unsplice head) ++
      (guarded name body ++ '\n' :: (pad ++ unsplice tail))) =
      scan m st (pad ++ unsplice tail) := by
    rw [scan_guarded m hg hb h (by simp; decide)]
    rfl
  rw [process, process, unsplice_append (.inl (ends_of_blank h)),
    unsplice_append (.inl (ends_of_blank h)), unsplice_guarded hg hb, unsplice_newline, hpad',
    meaning, meaning, scan_lastLine, scan_lastLine m _ _ (unsplice tail), hscan]
  exact scan_indent m hst hpad h _

theorem scan_instead (hg : Guards name) {p : Text} (hp : ∀ c ∈ p, isBlank c = true)
    {body : List Text} (hb : Plain body) {stmt : Text} (hs : SelfContained (stmt.splitOn '\n'))
    {t : Text} (ht : ∀ c ∈ t.head?, isWord c = false) (st : Scan) :
    scan m st (p ++ (rows (ifdef name :: (body ++ [text "#else"])) ++
      (stmt ++ '\n' :: (text "#endif" ++ t)))) = resume m (scan m st stmt) t := by
  have hopen : conditional (p ++ ifdef name) = some (.opens true (.defined name)) := by
    rw [conditional_indent hp, hg.opens]
  have hlines : p ++ (rows (ifdef name :: (body ++ [text "#else"])) ++
      (stmt ++ '\n' :: (text "#endif" ++ t))) =
      rows ((p ++ ifdef name) :: (body ++ [text "#else"])) ++
        (stmt ++ '\n' :: (text "#endif" ++ t)) := by
    simp [rows]
  have hin : ∀ l ∈ (p ++ ifdef name) :: (body ++ [text "#else"]), '\n' ∉ l := by
    refine List.forall_mem_cons.mpr ⟨by simp [blank_inline hp, hg.inline], ?_⟩
    refine List.forall_mem_append.mpr ⟨hb.inline, ?_⟩
    exact List.forall_mem_singleton.mpr (by decide)
  have hels : conditional (text "#else") = some .els := rfl
  have hgroup := else_group m hopen hels (conditional_endif (head_rest ht)) hb.conditional hs st
  have hlist : (p ++ ifdef name) :: (body ++ text "#else" ::
      (stmt.splitOn '\n' ++ [text "#endif" ++ rest t])) =
      (p ++ ifdef name) :: (body ++ [text "#else"]) ++ stmt.splitOn '\n' ++
        [text "#endif" ++ rest t] := by
    simp
  rw [hlist, List.foldl_append, List.foldl_append, List.foldl_cons, List.foldl_nil] at hgroup
  rw [hlines, scan_rows m hin, scan_newline, scan_rest m (by decide)]
  exact congrArg (resume m · t) hgroup

/-- A statement that only moved into the other branch of a group is still there. -/
theorem process_instead (hg : Guards name) {head stmt tail : Text} {body : List Text}
    (hb : Plain body) (h : ∀ c ∈ lastLine (unsplice head), isBlank c = true)
    (hend : stmt.getLast? ≠ some '\\') (hs : SelfContained ((unsplice stmt).splitOn '\n'))
    (hword : ∀ c ∈ (unsplice tail).head?, isWord c = false) :
    process m (head ++ (rows (ifdef name :: (body ++ [text "#else"])) ++
      (stmt ++ '\n' :: (text "#endif" ++ tail)))) =
      meaning m (unsplice head ++ unsplice stmt ++ dropRest (unsplice tail)) := by
  let st := scanTo m ⟨[], []⟩ (unsplice head)
  have hst : WholeLines st.kept := scanTo_wholeLines m (.inl rfl) _
  have hgroup : unsplice (rows (ifdef name :: (body ++ [text "#else"])) ++
      (stmt ++ '\n' :: (text "#endif" ++ tail))) =
      rows (ifdef name :: (body ++ [text "#else"])) ++
        (unsplice stmt ++ '\n' :: (text "#endif" ++ unsplice tail)) := by
    have hclose : unsplice (text "#endif" ++ tail) = text "#endif" ++ unsplice tail := by
      rw [unsplice_append (.inl (by decide)), unsplice_inline (by decide)]
    rw [unsplice_rows, unsplice_append (.inl hend), unsplice_newline, hclose]
    · refine List.forall_mem_cons.mpr ⟨hg.inline, List.forall_mem_append.mpr ⟨hb.inline, ?_⟩⟩
      exact List.forall_mem_singleton.mpr (by decide)
    · refine List.forall_mem_cons.mpr ⟨hg.ends, List.forall_mem_append.mpr ⟨hb.ends, ?_⟩⟩
      exact List.forall_mem_singleton.mpr (by decide)
  have hscan := scan_instead m hg h hb hs hword st
  have hsame := scan_indent m hst (p := []) (by simp) h
    (unsplice stmt ++ dropRest (unsplice tail))
  rw [List.nil_append, scan_dropRest, ← hscan] at hsame
  rw [process, unsplice_append (.inl (ends_of_blank h)), hgroup, meaning, meaning, scan_lastLine,
    List.append_assoc, scan_lastLine m _ _ (unsplice stmt ++ _)]
  exact hsame

/-- Lines in a branch that is not taken are not seen. -/
theorem process_within {head last tail : Text} {body : List Text} (hb : Plain body)
    (hlast : ∀ r, conditional (last ++ r) = none) (hinline : '\n' ∉ last)
    (hends : last.getLast? ≠ some '\\') (hhead : head.getLast? ≠ some '\\')
    (hst : (scanTo m ⟨[], []⟩ (unsplice head)).active = false)
    (hline : conditional (lastLine (unsplice head)) = none)
    (hline' : conditional (lastLine (unsplice head) ++ rest (unsplice tail)) = none) :
    process m (head ++ '\n' :: (rows body ++ (last ++ tail))) = process m (head ++ tail) := by
  let st := scanTo m ⟨[], []⟩ (unsplice head)
  have hno {l : Text} (h : conditional l = none) : st.line m l = st := by
    simp [Scan.line, h, st, hst]
  have hlines : unsplice (rows body ++ (last ++ tail)) =
      rows body ++ (last ++ unsplice tail) := by
    rw [unsplice_rows hb.inline hb.ends, unsplice_append (.inl hends), unsplice_inline hinline]
  rw [process, process, unsplice_append (.inl hhead), unsplice_append (.inl hhead),
    unsplice_newline, hlines, meaning, meaning, scan_lastLine, scan_lastLine m _ _ (unsplice tail),
    scan_newline, scan_line m (lastLine_inline _), hno hline, scan_rows m hb.inline,
    foldl_inactive m hb.conditional hst, scan_rest m hinline, hno (hlast _),
    scan_rest m (lastLine_inline _), hno hline']

/-- What an insertion needs of the lines it brings, wherever it goes. -/
def Insertion.Plain : Insertion → Prop
  | .behind _ body _ | .instead _ body _ _ => Preprocess.Plain body
  | .before _ body pad _ => Preprocess.Plain body ∧ ∀ c ∈ pad, isBlank c = true
  | .within _ body last _ => Preprocess.Plain body ∧
    (∀ r, Preprocess.conditional (last ++ r) = none) ∧ '\n' ∉ last ∧ last.getLast? ≠ some '\\'
  | .other _ _ => True

/-- An insertion in a fit place is not seen where the macro is not defined. -/
theorem Insertion.process_new (hg : Guards name) {i : Insertion} (hp : i.Plain) (h : i.Fit m) :
    process m (i.new name) = process m i.old := by
  cases i with
  | behind head body tail =>
    obtain ⟨hhead, hword, hdrop⟩ := h
    exact (process_behind m hg hp hhead hword).trans hdrop
  | before head body pad tail => exact process_before m hg hp.1 hp.2 h
  | instead head body stmt tail =>
    obtain ⟨hblank, hend, hs, hword, hdrop⟩ := h
    have hnew := process_instead m hg hp hblank hend hs hword
    rw [Insertion.new, hnew, ← unsplice_append (.inl (ends_of_blank hblank)), hdrop,
      Insertion.old, List.append_assoc]
  | within head body last tail =>
    obtain ⟨hb, hlast, hinline, hends⟩ := hp
    obtain ⟨hhead, hst, hline, hline'⟩ := h
    exact process_within m hb hlast hinline hends hhead hst hline hline'
  | other old new => exact h.elim

/-- The character `c` is not in what goes in. -/
def Insertion.Without (c : Char) : Insertion → Prop
  | .behind _ body _ | .instead _ body _ _ => ∀ l ∈ body, c ∉ l
  | .before _ body pad _ => (∀ l ∈ body, c ∉ l) ∧ c ∉ pad
  | .within _ body last _ => (∀ l ∈ body, c ∉ l) ∧ c ∉ last
  | .other old new => c ∉ old → c ∉ new

theorem not_mem_rows {c : Char} {ls : List Text} (hc : c ≠ '\n') (h : ∀ l ∈ ls, c ∉ l) :
    c ∉ rows ls := by
  intro hm
  obtain ⟨l, hl, hm⟩ := List.mem_flatMap.mp hm
  rcases List.mem_append.mp hm with hm | hm
  · exact h l hl hm
  · exact hc (List.mem_singleton.mp hm)

theorem Insertion.without_new {c : Char} (hc : c ≠ '\n')
    (hd : ∀ l ∈ [ifdef name, text "#else", text "#endif"], c ∉ l) {i : Insertion}
    (h : i.Without c) (hold : c ∉ i.old) : c ∉ i.new name := by
  have hdef := hd _ List.mem_cons_self
  have hrows {body : List Text} (hbody : ∀ l ∈ body, c ∉ l) : c ∉ rows (ifdef name :: body) :=
    not_mem_rows hc (List.forall_mem_cons.mpr ⟨hdef, hbody⟩)
  have hgroup {body : List Text} (hbody : ∀ l ∈ body, c ∉ l) : c ∉ guarded name body := by
    simp [guarded, hrows hbody, hd]
  cases i with
  | behind head body tail =>
    simp only [old, List.mem_append, not_or] at hold
    simp [new, hold, hc, hgroup h]
  | before head body pad tail =>
    simp only [old, List.mem_append, not_or] at hold
    simp [new, hold, hc, hgroup h.1, h.2]
  | instead head body stmt tail =>
    simp only [old, List.mem_append, not_or] at hold
    have helse : ∀ l ∈ body ++ [text "#else"], c ∉ l := by
      intro l hl
      rcases List.mem_append.mp hl with hl | hl
      · exact h l hl
      · exact hd l (by simp [List.mem_singleton.mp hl])
    simp [new, hold, hc, hrows helse, hd]
  | within head body last tail =>
    simp only [old, List.mem_append, not_or] at hold
    simp [new, hold, hc, not_mem_rows hc h.1, h.2]
  | other old new => exact h hold

end SwitchLdnZt.Library.Preprocess
