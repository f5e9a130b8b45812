import SwitchLdnZt.Scripts.LwipRun

namespace SwitchLdnZt.Scripts.LwipThread
open Library

variable {t t' u : Tree} {p : Path} {name : String} {names : List String} {wanted : Text → Bool}
variable {f : Text → Result (Option Text)}

theorem findFile_eq (t : Tree) (name : String) (required : List Text) :
    findFile t name required = findText t name (fun s => required.all (fun x => occurs x s)) := rfl

/-- What the walk for a file asks of a path. -/
theorem findText_spec (h : findText t name wanted = some p) :
    p.getLast? = some name ∧ ∃ s, t.readText p = .ok s ∧ wanted s = true := by
  refine ⟨rglob_name h, ?_⟩
  have hok := List.find?_some h
  split at hok
  next s hs => exact ⟨s, hs, hok⟩
  next => cases hok

/-- As long as no file of that name changes the same is found. -/
theorem findText_same (h : Only names t t') (hn : name ∉ names) :
    findText t' name wanted = findText t name wanted := by
  rw [findText, findText, rglob_of_paths h.paths]
  have hread : ∀ q ∈ t.rglob "libzt" name, t'.readText q = t.readText q :=
    fun q hq => readText_congr (h.raw (rglob_last hq) hn)
  generalize t.rglob "libzt" name = l at hread
  induction l with
  | nil => rfl
  | cons q l ih =>
    obtain ⟨hq, hl⟩ := List.forall_mem_cons.mp hread
    rw [List.find?_cons, List.find?_cons, hq, ih hl]

/-- With no other file of that name changed the one found is found again if it is
still wanted. -/
theorem findText_again (h : findText t name wanted = some p) (ho : AllBut name p t t') {s : Text}
    (hs : t'.readText p = .ok s) (hw : wanted s = true) : findText t' name wanted = some p := by
  rw [findText] at h ⊢
  obtain ⟨hp, as, bs, hl, hno⟩ := List.find?_eq_some_iff_append.mp h
  rw [rglob_of_paths ho.paths, hl]
  refine List.find?_eq_some_iff_append.mpr ⟨?_, as, bs, rfl, ?_⟩
  · rw [hs]
    exact hw
  · intro q hq
    have hfalse := hno q hq
    have hmem : q ∈ t.rglob "libzt" name := by
      rw [hl]
      exact List.mem_append_left _ hq
    have hne : q ≠ p := by
      rintro rfl
      rw [hp] at hfalse
      cases hfalse
    rwa [readText_congr (ho.same q (rglob_last hmem) hne)]

theorem located_ok {required : List Text} {tuple : String}
    (h : located t name required tuple = .ok p) : findFile t name required = some p := by
  unfold located at h
  split at h
  next q hq =>
    cases h
    exact hq
  next => cases h

theorem located_of {required : List Text} {tuple : String}
    (h : findFile t name required = some p) : located t name required tuple = .ok p := by
  rw [located, h]

/-- A file's edit that has nothing left to do after it is done. -/
structure Once (f : Text → Result (Option Text)) : Prop where
  clean : ∀ s s', '\r' ∉ s → f s = .ok (some s') → '\r' ∉ s'
  settled : ∀ s s', f s = .ok (some s') → f s' = .ok none

theorem Once.again (hf : Once f) (h : edit p f t = .ok t') (hu : u.raw p = t'.raw p) :
    edit p f u = .ok u := by
  obtain ⟨r, hraw, ⟨hnone, rfl⟩ | ⟨s', hsome, rfl⟩⟩ := edit_ok h
  · exact edit_idle (hu.trans hraw) (.inl hnone)
  · have hclean := hf.clean _ _ (universalNewlines_clean r) hsome
    refine edit_idle (hu.trans (writeText_raw_self t p s')) (.inl ?_)
    rw [universalNewlines_same hclean]
    exact hf.settled _ _ hsome

/-- The edit of a file that is there. -/
def patchFound (name : String) (wanted : Text → Bool) (f : Text → Result (Option Text)) (t : Tree) :
    Result Tree :=
  match findText t name wanted with
  | some p => edit p f t
  | none => .ok t

theorem patchFound_only (h : patchFound name wanted f t = .ok t') : Only [name] t t' := by
  unfold patchFound at h
  split at h
  next p hp => exact edit_only h (findText_spec hp).1
  next =>
    cases h
    exact .refl _ t

theorem patchFound_again (hf : Once f) (hw : ∀ s s', f s = .ok (some s') → wanted s' = true)
    (h : patchFound name wanted f t = .ok t') (ho : Only names t' u) (hn : name ∉ names) :
    patchFound name wanted f u = .ok u := by
  unfold patchFound at h
  split at h
  next p hp =>
    obtain ⟨hname, s, hread, hs⟩ := findText_spec hp
    have hagain : findText u name wanted = some p := by
      rw [findText_same ho hn]
      obtain ⟨r, htraw, ⟨-, rfl⟩ | ⟨s', hsome, rfl⟩⟩ := edit_ok h
      · exact hp
      · have hclean := hf.clean _ _ (universalNewlines_clean r) hsome
        have hread' := readText_of_raw (writeText_raw_self t p s')
        rw [universalNewlines_same hclean] at hread'
        exact findText_again hp (edit_allBut h name) hread' (hw _ _ hsome)
    rw [patchFound, hagain]
    exact hf.again h (ho.raw hname hn)
  next hnone =>
    cases h
    rw [patchFound, findText_same ho hn, hnone]

theorem map_written {r : Result Work} {o : Option Text} (h : r.map written = .ok o) :
    ∃ w, r = .ok w ∧ o = some w.text := by
  cases r with
  | error e => cases h
  | ok w =>
    cases h
    exact ⟨w, rfl, rfl⟩

section
variable {r : Text → Result Work} {words : List Text} {z : Text}

/-- What a finished edit of one of the instrumented files read and wrote. -/
theorem edit_written (h : edit p (fun s => (r s).map written) t = .ok t') :
    ∃ s w, t.readText p = .ok s ∧ '\r' ∉ s ∧ r s = .ok w ∧ t'.raw p = some (some w.text) := by
  obtain ⟨raw, hraw, ⟨hnone, -⟩ | ⟨s', hsome, rfl⟩⟩ := edit_ok h
  · obtain ⟨w, -, ho⟩ := map_written hnone
    cases ho
  · obtain ⟨w, hw, ho⟩ := map_written hsome
    cases ho
    exact ⟨_, w, readText_of_raw hraw, universalNewlines_clean raw, hw,
      writeText_raw_self t p w.text⟩

/-- What a run leaves of a file for the next: its edits have no more to do, and it is
found by the same words. -/
structure Left (r : Text → Result Work) (words : List Text) (z : Text) : Prop where
  clean : '\r' ∉ z
  again : ∃ w, r z = .ok w ∧ w.text = z
  words : ∀ word ∈ words, occurs word z = true

theorem Left.idle (h : Left r words z) (hraw : t.raw p = some (some z)) :
    edit p (fun s => (r s).map written) t = .ok t := by
  obtain ⟨w, hw, hsame⟩ := h.again
  refine edit_idle hraw (.inr ⟨h.clean, ?_⟩)
  rw [hw, ← hsame]
  rfl

theorem Left.found (h : Left r words z) (hp : findFile t name words = some p)
    (ho : AllBut name p t u) (hraw : u.raw p = some (some z)) :
    findFile u name words = some p := by
  have hread := readText_of_raw hraw
  rw [universalNewlines_same h.clean] at hread
  exact findText_again hp ho hread (List.all_eq_true.mpr h.words)

end

end SwitchLdnZt.Scripts.LwipThread
