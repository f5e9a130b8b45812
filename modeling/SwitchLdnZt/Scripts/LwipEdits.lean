import SwitchLdnZt.Scripts.LwipSteps

namespace SwitchLdnZt.Scripts.LwipThread
open Library Preprocess CTokens

/-- What went into the text, edit after edit. -/
inductive Inserted : Work → Work → Prop
  | refl (w : Work) : Inserted w w
  | put {w w' : Work} {i : Insertion} : Inserted w w' → i.old = w'.text → i.Plain →
    i.Without '\r' → Inserted w (w'.put i)

variable {w w' w'' : Work}

theorem Inserted.one {i : Insertion} (hold : i.old = w.text) (hp : i.Plain)
    (hc : i.Without '\r') : Inserted w (w.put i) := .put (.refl w) hold hp hc

theorem Inserted.trans (h : Inserted w w') (h' : Inserted w' w'') : Inserted w w'' := by
  induction h' with
  | refl => exact h
  | put _ hold hp hc ih => exact .put ih hold hp hc

theorem new_clean {i : Insertion} (h : i.Without '\r') (hold : '\r' ∉ i.old) :
    '\r' ∉ i.new switch := Insertion.without_new (by decide) (by decide) h hold

/-- Lines end as they did. -/
theorem Inserted.clean (h : Inserted w w') (hw : '\r' ∉ w.text) : '\r' ∉ w'.text := by
  induction h with
  | refl => exact hw
  | put _ hold _ hc ih =>
    rw [← hold] at ih
    exact new_clean hc ih

/-- A line of code is no directive. -/
theorem conditional_code {p : Text} (hp : ∀ c ∈ p, isBlank c = true) {c : Char}
    (hc : c ≠ '#') (hb : isBlank c = false) (l : Text) : conditional (p ++ c :: l) = none := by
  have hd : directive (c :: l) = none := by
    unfold directive
    rw [List.dropWhile_cons_of_neg (by simp [hb])]
    split
    · next h =>
      cases h
      exact absurd rfl hc
    · rfl
  rw [conditional_indent hp, conditional, hd]

theorem ends_append {l : Text} (p : Text) (hl : l.getLast?.isSome = true) :
    (p ++ l).getLast? = l.getLast? := by
  rw [List.getLast?_append, Option.or_of_isSome hl]

theorem diag_plain {indent : Text} (hi : ∀ c ∈ indent, isBlank c = true) {label : String}
    (hl : '\n' ∉ text label) : Plain (diag indent label) := by
  have hprint : text "printf(\"[SWITCH-DIAG] " = 'p' :: text "rintf(\"[SWITCH-DIAG] " := rfl
  have hupdate : text "consoleUpdate(NULL);" = 'c' :: text "onsoleUpdate(NULL);" := rfl
  have hends : ∀ p : Text, (p ++ text "\\n\");").getLast? ≠ some '\\' := by
    intro p
    rw [ends_append p (by decide)]
    decide
  have hends' : ∀ p : Text, (p ++ text "consoleUpdate(NULL);").getLast? ≠ some '\\' := by
    intro p
    rw [ends_append p (by decide)]
    decide
  constructor
  · refine List.forall_mem_cons.mpr ⟨?_, List.forall_mem_singleton.mpr ?_⟩
    · rw [printDiag, hprint, List.append_assoc, List.append_assoc, List.cons_append]
      exact conditional_code hi (by decide) (by decide) _
    · rw [update, hupdate]
      exact conditional_code hi (by decide) (by decide) _
  · refine List.forall_mem_cons.mpr ⟨?_, List.forall_mem_singleton.mpr ?_⟩
    · have h₁ : '\n' ∉ text "printf(\"[SWITCH-DIAG] " := by decide
      have h₂ : '\n' ∉ text "\\n\");" := by decide
      simp [printDiag, blank_inline hi, hl, h₁, h₂]
    · have h₁ : '\n' ∉ text "consoleUpdate(NULL);" := by decide
      simp [update, blank_inline hi, h₁]
  · exact List.forall_mem_cons.mpr ⟨hends _, List.forall_mem_singleton.mpr (hends' _)⟩

theorem diag_without {indent : Text} {label : String} (hi : '\r' ∉ indent)
    (hl : '\r' ∉ text label) : ∀ l ∈ diag indent label, '\r' ∉ l := by
  have h₁ : '\r' ∉ text "printf(\"[SWITCH-DIAG] " := by decide
  have h₂ : '\r' ∉ text "\\n\");" := by decide
  have h₃ : '\r' ∉ text "consoleUpdate(NULL);" := by decide
  refine List.forall_mem_cons.mpr ⟨?_, List.forall_mem_singleton.mpr ?_⟩
  · simp [printDiag, hi, hl, h₁, h₂]
  · simp [update, hi, h₃]

theorem two_blank : ∀ c ∈ two, isBlank c = true := List.all_eq_true.mp rfl
theorem four_blank : ∀ c ∈ four, isBlank c = true := List.all_eq_true.mp rfl

theorem includes_plain : Plain includes :=
  ⟨List.forall_mem_cons.mpr ⟨rfl, List.forall_mem_singleton.mpr rfl⟩, by decide, by decide⟩

theorem includeSwitch_inserted (marker : Text) (w : Work) :
    Inserted w (includeSwitch marker w) := by
  rcases includeSwitch_cases marker w with ⟨he, -⟩ | ⟨-, a, b, hc, he⟩
  · rw [he]
    exact .refl w
  · rw [he]
    exact .one (cut_eq hc).symm includes_plain
      (show ∀ l ∈ includes, '\r' ∉ l by decide)

theorem enter_inserted {pat : Pattern} {missing : String} {indent : Text} {label : String}
    (hi : ∀ c ∈ indent, isBlank c = true) (hl : '\n' ∉ text label ∧ '\r' ∉ text label)
    (h : enter pat missing indent label w = .ok w') : Inserted w w' := by
  have hblank : '\r' ∉ indent := fun hm => absurd (hi _ hm) (by decide)
  obtain ⟨head, tail, ht, ⟨-, rfl⟩ | ⟨-, rfl⟩⟩ := enter_cases h
  · exact .refl w'
  · exact .one (upTo_eq ht) (diag_plain hi hl.1) (diag_without hblank hl.2)

theorem stackFix_plain : Plain stackFix := by
  constructor <;> decide

theorem fixStack_inserted {pos semi : Int} (h : fixStack w = .ok (w', pos, semi)) :
    Inserted w w' := by
  obtain ⟨fnStart, at₀, end₀, hcall, ⟨-, rfl, -⟩ | ⟨-, rfl, -⟩⟩ := fixStack_cases h
  · exact .refl w'
  · exact .one hcall.split stackFix_plain (show ∀ l ∈ stackFix, '\r' ∉ l by decide)

theorem afterCreate_inserted (semi : Int) (w : Work) : Inserted w (afterCreate semi w) := by
  rcases afterCreate_cases semi w with ⟨-, he⟩ | ⟨-, he⟩
  · rw [he]
    exact .refl w
  · rw [he]
    exact .one (List.take_append_drop _ _) (diag_plain two_blank (by decide))
      (diag_without (by decide) (by decide))

theorem aroundIntroduce_inserted {pos : Int} (h : aroundIntroduce pos w = .ok w') :
    Inserted w w' := by
  rcases aroundIntroduce_cases h with ⟨-, rfl⟩ |
    ⟨-, p, call, close, w₁, -, -, -, -, rfl, -, -, rfl⟩
  · exact .refl w'
  · have hbefore : Inserted w (beforeIntroduce call w) :=
      .one (List.take_append_drop _ _) ⟨diag_plain four_blank (by decide), four_blank⟩
        ⟨diag_without (by decide) (by decide), by decide⟩
    exact .put hbefore (List.take_append_drop _ _) (diag_plain four_blank (by decide))
      (diag_without (by decide) (by decide))

/-- The two lines that no directive of their own keeps from the other branch. -/
theorem slot_plain {a b : Text} :
    (Insertion.within a [printDiag two "INTRO: SLOT_OK"] (update two) b).Plain := by
  have hdiag : Plain (diag two "INTRO: SLOT_OK") := diag_plain two_blank (by decide)
  have hupdate : text "consoleUpdate(NULL);" = 'c' :: text "onsoleUpdate(NULL);" := rfl
  obtain ⟨hcond, hin, hends⟩ := hdiag
  refine ⟨⟨?_, ?_, ?_⟩, ?_, hin _ (by simp [diag]), hends _ (by simp [diag])⟩
  · exact List.forall_mem_singleton.mpr (hcond _ List.mem_cons_self)
  · exact List.forall_mem_singleton.mpr (hin _ List.mem_cons_self)
  · exact List.forall_mem_singleton.mpr (hends _ List.mem_cons_self)
  · intro r
    rw [update, hupdate, List.append_assoc, List.cons_append]
    exact conditional_code two_blank (by decide) (by decide) _

theorem introProbe_inserted (h : introProbe w = .ok w') : Inserted w w' := by
  rcases introProbe_cases h with ⟨-, rfl⟩ | ⟨-, a, b, w₁, hc, rfl, hslot⟩
  · exact .refl w'
  · have henter : Inserted w (introEnter a b w) :=
      .one (cut_eq hc).symm (diag_plain two_blank (by decide))
        (diag_without (by decide) (by decide))
    rcases hslot with ⟨c, d, hc', rfl⟩ | ⟨-, rfl⟩
    · exact .put henter (cut_eq hc').symm slot_plain ⟨by decide, by decide⟩
    · exact henter

theorem indent_blank {indent : Text} (h : ∀ c ∈ indent, c = ' ' ∨ c = '\t') :
    ∀ c ∈ indent, isBlank c = true := by
  intro c hc
  rcases h c hc with rfl | rfl <;> rfl

theorem wrapFirstCall_inserted {fnName : Text} {label : String}
    (hline : '\n' ∉ text ("DRIVER: BEFORE_" ++ label) ∧ '\n' ∉ text ("DRIVER: AFTER_" ++ label))
    (hreturn : '\r' ∉ text ("DRIVER: BEFORE_" ++ label) ∧
      '\r' ∉ text ("DRIVER: AFTER_" ++ label))
    (h : wrapFirstCall fnName label w = .ok w') : Inserted w w' := by
  rcases wrapFirstCall_cases h with ⟨-, rfl⟩ | ⟨-, indent, ls, semi, hb, -, ⟨hle, rfl⟩ | rfl⟩
  · exact .refl w'
  · have hi := indent_blank hb.indent
    have hblank : '\r' ∉ indent := fun hm => absurd (hi _ hm) (by decide)
    refine .put (.one (slice_split _ hle) ⟨diag_plain hi hline.1, by simp⟩
      ⟨diag_without hblank hreturn.1, by simp⟩) ?_ (diag_plain hi hline.2)
      (diag_without hblank hreturn.2)
    simp [Insertion.old, Work.put, Insertion.new]
  · have hi := indent_blank hb.indent
    have hblank : '\r' ∉ indent := fun hm => absurd (hi _ hm) (by decide)
    refine .one rfl trivial ?_
    intro hold
    -- the first block goes in before the statement, the second behind it
    have hfirst := new_clean
      (i := .before (w.text.take ls) _ [] (slice w.text ls (semi + 1)))
      ⟨diag_without hblank hreturn.1, by simp⟩ (by
        simp only [Insertion.old, List.mem_append, not_or]
        exact ⟨fun hm => hold (List.mem_of_mem_take hm),
          fun hm => hold (List.mem_of_mem_take (List.mem_of_mem_drop hm))⟩)
    have hsecond := new_clean (i := .behind _ _ (w.text.drop (semi + 1).toNat))
      (diag_without hblank hreturn.2) (by
        simp only [Insertion.old, List.mem_append, not_or]
        exact ⟨hfirst, fun hm => hold (List.mem_of_mem_drop hm)⟩)
    simpa [bracketed, Insertion.new] using hsecond

theorem beforeDone_inserted (h : beforeDone w = .ok w') : Inserted w w' := by
  rcases beforeDone_cases h with ⟨-, rfl⟩ | ⟨-, p, -, -, rfl⟩
  · exact .refl w'
  · exact .one (List.take_append_drop _ _) ⟨diag_plain four_blank (by decide), four_blank⟩
      ⟨diag_without (by decide) (by decide), by decide⟩

theorem afterDone_inserted (h : afterDone w = .ok w') : Inserted w w' := by
  rcases afterDone_cases h with ⟨-, rfl⟩ | ⟨-, p, semi, -, -, rfl⟩
  · exact .refl w'
  · exact .one (List.take_append_drop _ _) (diag_plain four_blank (by decide))
      (diag_without (by decide) (by decide))

theorem sysArch_inserted {p : Path} {s : Text} (h : sysArch p s = .ok w) :
    ∃ a b, introSite p s = .ok (a, b) ∧ Inserted ⟨a ++ intro ++ b, []⟩ w := by
  unfold sysArch at h
  obtain ⟨⟨a, b⟩, hsite, h⟩ := bind_ok.mp h
  obtain ⟨w₁, h₁, h⟩ := bind_ok.mp h
  obtain ⟨⟨w₂, pos, semi⟩, h₂, h⟩ := bind_ok.mp h
  obtain ⟨w₃, h₃, h⟩ := bind_ok.mp h
  have hentered := (includeSwitch_inserted _ _).trans (enter_inserted two_blank (by decide) h₁)
  have hcreated := (hentered.trans (fixStack_inserted h₂)).trans (afterCreate_inserted semi w₂)
  exact ⟨a, b, hsite, (hcreated.trans (aroundIntroduce_inserted h₃)).trans (introProbe_inserted h)⟩

theorem virtualTap_inserted {s : Text} (h : virtualTap s = .ok w) : Inserted ⟨s, []⟩ w := by
  unfold virtualTap at h
  obtain ⟨w₁, h₁, h⟩ := bind_ok.mp h
  obtain ⟨w₂, h₂, h⟩ := bind_ok.mp h
  obtain ⟨w₃, h₃, h⟩ := bind_ok.mp h
  have hentered := enter_inserted four_blank (by decide) h₁
  have hcreated := hentered.trans
    (wrapFirstCall_inserted ⟨by decide, by decide⟩ ⟨by decide, by decide⟩ h₂)
  have hinited := hcreated.trans
    (wrapFirstCall_inserted ⟨by decide, by decide⟩ ⟨by decide, by decide⟩ h₃)
  exact hinited.trans (wrapFirstCall_inserted ⟨by decide, by decide⟩ ⟨by decide, by decide⟩ h)

theorem tcpip_inserted {p : Path} {s : Text} (h : tcpip p s = .ok w) : Inserted ⟨s, []⟩ w := by
  unfold tcpip at h
  obtain ⟨w₁, h₁, h⟩ := bind_ok.mp h
  obtain ⟨w₂, h₂, h⟩ := bind_ok.mp h
  obtain ⟨w₃, h₃, h⟩ := bind_ok.mp h
  have hthread := (includeSwitch_inserted _ _).trans (enter_inserted two_blank (by decide) h₁)
  have hinit := hthread.trans (enter_inserted two_blank (by decide) h₂)
  exact (hinit.trans (beforeDone_inserted h₃)).trans (afterDone_inserted h)

theorem wrapperProbe_inserted (h : wrapperProbe w = .ok w') : Inserted w w' := by
  rcases wrapperProbe_cases h with ⟨-, rfl⟩ | ⟨-, head, tail, ht, rfl⟩
  · exact .refl w'
  · exact .one (upTo_eq ht) (diag_plain two_blank (by decide))
      (diag_without (by decide) (by decide))

end SwitchLdnZt.Scripts.LwipThread
