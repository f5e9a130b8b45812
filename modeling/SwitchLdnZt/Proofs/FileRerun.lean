import SwitchLdnZt.Library.Commute
import SwitchLdnZt.Scripts.LwipFiles

namespace SwitchLdnZt.Proofs.FileRerun
open Library Scripts LwipThread

variable {t t' u : Tree} {p : Path} {name : String} {names : List String} {wanted : Text → Bool}
variable {f : Text → Result (Option Text)}

/-- A file's edit that leaves what it has written as it is. -/
structure Settles (wanted : Text → Bool) (f : Text → Result (Option Text)) : Prop where
  clean : ∀ s s', '\r' ∉ s → f s = .ok (some s') → '\r' ∉ s'
  found : ∀ s s', wanted s = true → f s = .ok (some s') → wanted s' = true
  settled : ∀ s s', wanted s = true → f s = .ok (some s') → f s' = .ok none ∨ f s' = .ok (some s')

/-- After an edit of the first file wanted the same file is found, and left. -/
theorem Settles.again (hf : Settles wanted f) (hp : findText t name wanted = some p)
    (h : edit p f t = .ok t') (ho : Only names t' u) (hn : name ∉ names) :
    findText u name wanted = some p ∧ edit p f u = .ok u := by
  obtain ⟨hname, s, hread, hs⟩ := findText_spec hp
  rw [findText_same ho hn]
  obtain ⟨r, hraw, ⟨hnone, rfl⟩ | ⟨s', hsome, rfl⟩⟩ := edit_ok h
  · exact ⟨hp, edit_idle ((ho.raw hname hn).trans hraw) (.inl hnone)⟩
  · rw [readText_of_raw hraw, Except.ok.injEq] at hread
    rw [← hread] at hs
    have hclean := hf.clean _ _ (universalNewlines_clean r) hsome
    have hraw' := writeText_raw_self t p s'
    have hread' := readText_of_raw hraw'
    rw [universalNewlines_same hclean] at hread'
    refine ⟨findText_again hp (edit_allBut h name) hread' (hf.found _ _ hs hsome), ?_⟩
    refine edit_idle ((ho.raw hname hn).trans hraw') ?_
    rcases hf.settled _ _ hs hsome with hnone | hsame
    · rw [universalNewlines_same hclean]
      exact .inl hnone
    · exact .inr ⟨hclean, hsame⟩

theorem ok_of_isOk {α : Type} {r : Result α} (h : r.isOk = true) : ∃ a, r = .ok a := by
  cases r with
  | error e => cases h
  | ok a => exact ⟨a, rfl⟩

/-- An addition behind a line end keeps every word of one line. -/
theorem word_kept {w anchor : Text} (hend : anchor.getLast? = some '\n') (hw : '\n' ∉ w)
    {a b : Text} (h : occurs w (a ++ anchor ++ b) = true) (x : Text) :
    occurs w (a ++ (anchor ++ x) ++ b) = true := by
  have hlast : (a ++ anchor).getLast? = some '\n' := by
    rw [List.getLast?_append, hend]
    rfl
  have hwhole : Whole w (a ++ anchor) b := .of_last hlast hw b
  have hocc := hwhole.occurs h x
  rwa [List.append_assoc a anchor x] at hocc

theorem replaceFirst_clean {old new s : Text} (hnew : '\r' ∉ new) (h : '\r' ∉ s) :
    '\r' ∉ replaceFirst old new s := by
  unfold replaceFirst
  split
  next a b hcut =>
    rw [cut_eq hcut] at h
    simp only [List.mem_append, not_or] at h ⊢
    exact ⟨⟨h.1.1, hnew⟩, h.2⟩
  next => exact h

/-- Of an edit that replaces a text that occurs just once nothing of it is left. -/
theorem replaced_gone {old new s : Text} (h : Apart old new) (hone : occurrences old s = 1) :
    occurs old (replaceFirst old new s) = false := by
  have hocc : occurs old s = true := (occurs_iff_occurrences h.ne_nil).mpr (by omega)
  obtain ⟨⟨a, b⟩, hcut⟩ := Option.isSome_iff_exists.mp hocc
  rw [replaceFirst_some hcut, h.occurs_between, Bool.or_eq_false_iff]
  have hcount := occurrences_some h.ne_nil hcut
  refine ⟨?_, ?_⟩
  · rw [occurs, cut_front h.ne_nil hcut]
    rfl
  · by_contra hb
    have hpos := (occurs_iff_occurrences h.ne_nil).mp (eq_true_of_ne_false hb)
    omega

end SwitchLdnZt.Proofs.FileRerun
