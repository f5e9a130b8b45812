import SwitchLdnZt.Library.Splice
import SwitchLdnZt.Scripts.LwipThread

namespace SwitchLdnZt.Scripts.LwipThread
open Library Preprocess

def switchHeader : Text := text "#include <switch.h>"

theorem upTo_eq {pat : Pattern} {s head tail : Text} (h : upTo pat s = some (head, tail)) :
    head ++ tail = s := by
  obtain ⟨⟨b, segs, rest⟩, hs, he⟩ := Option.map_eq_some_iff.mp h
  cases he
  exact (searchFrom_spec hs).1.symm

variable {w w' : Work}

theorem includeSwitch_cases (marker : Text) (w : Work) :
    (includeSwitch marker w = w ∧
      (occurs switchHeader w.text = true ∨ cut marker w.text = none)) ∨
    (occurs switchHeader w.text = false ∧ ∃ a b, cut marker w.text = some (a, b) ∧
      includeSwitch marker w = w.put (.behind (a ++ marker) includes b)) := by
  unfold includeSwitch
  split
  next h => exact .inl ⟨rfl, .inl h⟩
  next h =>
    split
    next a b hc => exact .inr ⟨Bool.eq_false_iff.mpr h, a, b, hc, rfl⟩
    next hc => exact .inl ⟨rfl, .inr hc⟩

theorem enter_cases {pat : Pattern} {missing : String} {indent : Text} {label : String}
    (h : enter pat missing indent label w = .ok w') :
    ∃ head tail, upTo pat w.text = some (head, tail) ∧
      (traced label w.text = true ∧ w' = w ∨
        traced label w.text = false ∧ w' = w.put (.behind head (diag indent label) tail)) := by
  unfold enter at h
  split at h
  · cases h
  next head tail ht =>
    refine ⟨head, tail, ht, ?_⟩
    split at h
    next htr =>
      cases h
      exact .inl ⟨htr, rfl⟩
    next htr =>
      cases h
      exact .inr ⟨Bool.eq_false_iff.mpr htr, rfl⟩

/-- The call that was found has its parenthesis. -/
theorem createPos_paren {s : Text} {fnStart : Nat} (h : ¬ createPos s fnStart < 0) :
    createPos s fnStart ≤ find (text "(") s (createPos s fnStart) := by
  unfold createPos at h ⊢
  cases hs : search createPattern (s.drop fnStart) with
  | none =>
    rw [hs] at h
    exact absurd (show (-1 : Int) < 0 by decide) h
  | some m =>
    obtain ⟨before, segs, after⟩ := m
    obtain ⟨heq, is, his, hfits⟩ := searchFrom_spec hs
    obtain rfl := List.mem_singleton.mp his
    have hparen : '(' ∈ segs.flatten := by
      apply hfits.lit_mem
      have hlits : lits "(" = [.one (.lit '(')] := rfl
      simp [hlits]
    have hdrop : s.drop (fnStart + before.length) = segs.flatten ++ after := by
      rw [← List.drop_drop, heq, List.append_assoc, List.drop_left]
    have hfind : 0 ≤ find (text "(") s ((fnStart + before.length : Nat) : Int) :=
      find_char (by rw [hdrop]; exact List.mem_append_left _ hparen)
    exact find_ge (Int.natCast_nonneg (fnStart + before.length)) hfind

/-- The call of `pthread_create` that the script finds, and the semicolon behind it. -/
structure CallFound (s : Text) (fnStart : Nat) (pos semi : Int) : Prop where
  start : threadNewStart s = .ok fnStart
  create : createPos s fnStart = pos
  found : 0 ≤ pos
  closed : ∃ closeParen, closeFrom '(' ')' s (find (text "(") s pos) = some closeParen ∧
    find (text ";") s closeParen = semi
  ends : pos ≤ semi

/-- What it finds in the text that it has put a call into. -/
structure CallAgain (s : Text) (pos semi : Int) : Prop where
  create : ∃ fnStart, threadNewStart s = .ok fnStart ∧ createPos s fnStart = pos
  closed : find (text ";") s (find (text ")") s (find (text "(") s pos)) = semi

def fixedCall (w : Work) (pos semi : Int) : Work :=
  w.put (.instead (w.text.take (lineStart w.text pos.toNat)) stackFix
    (slice w.text (lineStart w.text pos.toNat) (semi + 1)) (w.text.drop (semi + 1).toNat))

theorem fixStack_cases {pos semi : Int} (h : fixStack w = .ok (w', pos, semi)) :
    ∃ fnStart at₀ end₀, CallFound w.text fnStart at₀ end₀ ∧
      (occurs (text "&switch_attr") (slice w.text at₀ (end₀ + 1)) = true ∧
          w' = w ∧ pos = at₀ ∧ semi = end₀ ∨
        occurs (text "&switch_attr") (slice w.text at₀ (end₀ + 1)) = false ∧
          w' = fixedCall w at₀ end₀ ∧ CallAgain w'.text pos semi) := by
  unfold fixStack at h
  obtain ⟨fnStart, hstart, h⟩ := bind_ok.mp h
  dsimp only at h
  split at h
  · cases h
  next hpos =>
    split at h
    · cases h
    next closeParen hclose =>
      split at h
      · cases h
      next hsemi =>
        have hparen := createPos_paren hpos
        have hclosed := closeFrom_ge (by omega) hclose
        have hended := find_ge (by omega) (Int.not_lt.mp hsemi)
        refine ⟨fnStart, _, _,
          ⟨hstart, rfl, by omega, ⟨closeParen, hclose, rfl⟩, by omega⟩, ?_⟩
        split at h
        next hattr =>
          cases h
          exact .inl ⟨hattr, rfl, rfl, rfl⟩
        next hattr =>
          obtain ⟨fnStart', hstart', h⟩ := bind_ok.mp h
          cases h
          exact .inr ⟨Bool.eq_false_iff.mpr hattr, rfl, ⟨fnStart', hstart', rfl⟩, rfl⟩

theorem CallFound.split {s : Text} {fnStart : Nat} {pos semi : Int}
    (h : CallFound s fnStart pos semi) : s.take (lineStart s pos.toNat) ++
      (slice s (lineStart s pos.toNat) (semi + 1) ++ s.drop (semi + 1).toNat) = s := by
  apply slice_split
  have hline := lineStart_le s pos.toNat
  have hfound := h.found
  have hends := h.ends
  omega

theorem CallFound.front {s : Text} {fnStart : Nat} {pos semi : Int}
    (h : CallFound s fnStart pos semi) : s.take (semi + 1).toNat =
      s.take (lineStart s pos.toNat) ++ slice s (lineStart s pos.toNat) (semi + 1) := by
  have hsplit := h.split
  rw [← List.append_assoc] at hsplit
  exact (List.append_cancel_right (hsplit.trans (List.take_append_drop _ s).symm)).symm

theorem afterCreate_cases (semi : Int) (w : Work) :
    traced "STN: AFTER_PTHREAD_CREATE" w.text = true ∧ afterCreate semi w = w ∨
    traced "STN: AFTER_PTHREAD_CREATE" w.text = false ∧ afterCreate semi w =
      w.put (.behind (w.text.take (semi + 1).toNat) (diag two "STN: AFTER_PTHREAD_CREATE")
        (w.text.drop (semi + 1).toNat)) := by
  unfold afterCreate
  split
  next h => exact .inl ⟨h, rfl⟩
  next h => exact .inr ⟨Bool.eq_false_iff.mpr h, rfl⟩

def beforeIntroduce (call : Int) (w : Work) : Work :=
  w.put (.before (w.text.take call.toNat) (diag four "STN: BEFORE_INTRODUCE") four
    (w.text.drop call.toNat))

def afterIntroduce (close : Int) (w : Work) : Work :=
  w.put (.behind (w.text.take (close + 2).toNat) (diag four "STN: AFTER_INTRODUCE")
    (w.text.drop (close + 2).toNat))

theorem aroundIntroduce_cases {pos : Int} (h : aroundIntroduce pos w = .ok w') :
    traced "STN: BEFORE_INTRODUCE" w.text = true ∧ w' = w ∨
    traced "STN: BEFORE_INTRODUCE" w.text = false ∧
      ∃ p call close w₁, find (text "if (0 == code)") w.text pos = p ∧ 0 ≤ p ∧
        find introduceCall w.text p = call ∧ 0 ≤ call ∧ w₁ = beforeIntroduce call w ∧
        find (text ");") w₁.text (find introduceCall w₁.text p) = close ∧ 0 ≤ close ∧
        w' = afterIntroduce close w₁ := by
  unfold aroundIntroduce at h
  split at h
  next htr =>
    cases h
    exact .inl ⟨htr, rfl⟩
  next htr =>
    refine .inr ⟨Bool.eq_false_iff.mpr htr, ?_⟩
    dsimp only at h
    split at h
    · cases h
    next hp =>
      split at h
      · cases h
      next hcall =>
        split at h
        · cases h
        next hclose =>
          cases h
          exact ⟨_, _, _, _, rfl, Int.not_lt.mp hp, rfl, Int.not_lt.mp hcall, rfl, rfl,
            Int.not_lt.mp hclose, rfl⟩

def introEnter (a b : Text) (w : Work) : Work :=
  w.put (.behind (a ++ introMarker) (diag two "INTRO: ENTER") b)

def slotOk (a b : Text) (w : Work) : Work :=
  w.put (.within (a ++ slotTarget) [printDiag two "INTRO: SLOT_OK"] (update two) b)

theorem introProbe_cases (h : introProbe w = .ok w') :
    traced "INTRO: ENTER" w.text = true ∧ w' = w ∨
    traced "INTRO: ENTER" w.text = false ∧
      ∃ a b w₁, cut introMarker w.text = some (a, b) ∧ w₁ = introEnter a b w ∧
        ((∃ c d, cut slotTarget w₁.text = some (c, d) ∧ w' = slotOk c d w₁) ∨
          cut slotTarget w₁.text = none ∧ w' = w₁) := by
  unfold introProbe at h
  split at h
  next htr =>
    cases h
    exact .inl ⟨htr, rfl⟩
  next htr =>
    refine .inr ⟨Bool.eq_false_iff.mpr htr, ?_⟩
    split at h
    · cases h
    next a b hc =>
      refine ⟨a, b, _, hc, rfl, ?_⟩
      dsimp only at h
      split at h
      next c d hc' =>
        cases h
        exact .inl ⟨c, d, hc', rfl⟩
      next hc' =>
        cases h
        exact .inr ⟨hc', rfl⟩

theorem wrapperProbe_cases (h : wrapperProbe w = .ok w') :
    traced "thread_wrapper: child thread alive" w.text = true ∧ w' = w ∨
    traced "thread_wrapper: child thread alive" w.text = false ∧
      ∃ head tail, upTo wrapperPattern w.text = some (head, tail) ∧ w' =
        w.put (.behind head (diag two "thread_wrapper: child thread alive") tail) := by
  unfold wrapperProbe at h
  dsimp only at h
  split at h
  next htr =>
    cases h
    exact .inl ⟨htr, rfl⟩
  next htr =>
    obtain ⟨head, tail, hup, ⟨hyes, -⟩ | ⟨hno, rfl⟩⟩ := enter_cases h
    · exact absurd hyes htr
    · exact .inr ⟨hno, head, tail, hup, rfl⟩

/-- The text with a block before the stretch `t` and one behind it. -/
def bracketed (label : String) (indent u t v : Text) : Text :=
  u ++ (guarded switch (diag indent ("DRIVER: BEFORE_" ++ label)) ++ '\n' :: t) ++
    '\n' :: (guarded switch (diag indent ("DRIVER: AFTER_" ++ label)) ++ v)

/-- Where the line of the call begins, and the semicolon behind it. -/
def wrapPlaces (fnName s : Text) : Option (Nat × Int) :=
  let pos := find fnName s (find (text "zts_main_lwip_driver_loop") s 0)
  (closeFrom '(' ')' s (find (text "(") s pos)).map
    (fun cp => (lineStart s pos.toNat, find (text ";") s cp))

/-- The places that a call is bracketed at: where its line begins, and behind a
semicolon. -/
structure Brackets (fnName s indent : Text) (ls : Nat) (semi : Int) : Prop where
  places : wrapPlaces fnName s = some (ls, semi)
  line : ∃ pos, lineStart s pos = ls
  indent : ∀ c ∈ indent, c = ' ' ∨ c = '\t'
  ends : 0 ≤ semi ∧ ∃ start, find (text ";") s start = semi

theorem wrapFirstCall_cases {fnName : Text} {label : String}
    (h : wrapFirstCall fnName label w = .ok w') :
    traced ("DRIVER: BEFORE_" ++ label) w.text = true ∧ w' = w ∨
    traced ("DRIVER: BEFORE_" ++ label) w.text = false ∧
      ∃ indent ls semi, Brackets fnName w.text indent ls semi ∧
        w'.text = bracketed label indent (w.text.take ls) (slice w.text ls (semi + 1))
          (w.text.drop (semi + 1).toNat) ∧
        (ls ≤ semi + 1 ∧
            w' = (w.put (.before (w.text.take ls) (diag indent ("DRIVER: BEFORE_" ++ label)) []
              (slice w.text ls (semi + 1) ++ w.text.drop (semi + 1).toNat))).put
              (.behind (w.text.take ls ++
                (guarded switch (diag indent ("DRIVER: BEFORE_" ++ label)) ++
                  '\n' :: slice w.text ls (semi + 1)))
                (diag indent ("DRIVER: AFTER_" ++ label)) (w.text.drop (semi + 1).toNat)) ∨
          w' = w.put (.other w.text (bracketed label indent (w.text.take ls)
            (slice w.text ls (semi + 1)) (w.text.drop (semi + 1).toNat)))) := by
  unfold wrapFirstCall at h
  dsimp only at h
  have hplaces (cp : Nat) : ∀ pos, find fnName w.text
      (find (text "zts_main_lwip_driver_loop") w.text 0) = pos →
      closeFrom '(' ')' w.text (find (text "(") w.text pos) = some cp →
      wrapPlaces fnName w.text = some (lineStart w.text pos.toNat, find (text ";") w.text cp) := by
    rintro pos rfl hcp
    rw [wrapPlaces, hcp]
    rfl
  split at h
  next htr =>
    cases h
    exact .inl ⟨htr, rfl⟩
  next htr =>
    refine .inr ⟨Bool.eq_false_iff.mpr htr, ?_⟩
    generalize hpos : find fnName w.text
      (find (text "zts_main_lwip_driver_loop") w.text 0) = pos at h
    split at h
    · cases h
    · split at h
      · cases h
      next cp hcp =>
        split at h
        · cases h
        next hsemi =>
          have hindent : ∀ c ∈ (slice w.text (lineStart w.text pos.toNat) pos).takeWhile
              (fun c => c = ' ' || c = '\t'), c = ' ' ∨ c = '\t' := by
            intro c hc
            simpa using List.all_eq_true.mp List.all_takeWhile c hc
          refine ⟨_, lineStart w.text pos.toNat, find (text ";") w.text cp,
            ⟨hplaces cp pos hpos hcp, ⟨_, rfl⟩, hindent, Int.not_lt.mp hsemi, cp, rfl⟩, ?_⟩
          split at h
          next hle =>
            cases h
            exact ⟨rfl, .inl ⟨hle, rfl⟩⟩
          next =>
            cases h
            exact ⟨rfl, .inr rfl⟩

theorem beforeDone_cases (h : beforeDone w = .ok w') :
    traced "TCPIP: BEFORE_DONE" w.text = true ∧ w' = w ∨
    traced "TCPIP: BEFORE_DONE" w.text = false ∧ ∃ p, 0 ≤ p ∧
      find (text "if (tcpip_init_done != NULL)") w.text
        (find (text "tcpip_thread(") w.text 0) = p ∧
      w' = w.put (.before (w.text.take p.toNat) (diag four "TCPIP: BEFORE_DONE") four
        (w.text.drop p.toNat)) := by
  unfold beforeDone at h
  split at h
  next htr =>
    cases h
    exact .inl ⟨htr, rfl⟩
  next htr =>
    refine .inr ⟨Bool.eq_false_iff.mpr htr, ?_⟩
    dsimp only at h
    split at h
    · cases h
    next hp =>
      cases h
      exact ⟨_, Int.not_lt.mp hp, rfl, rfl⟩

theorem afterDone_cases (h : afterDone w = .ok w') :
    traced "TCPIP: AFTER_DONE" w.text = true ∧ w' = w ∨
    traced "TCPIP: AFTER_DONE" w.text = false ∧ ∃ p semi, 0 ≤ semi ∧
      find (text ";") w.text p = semi ∧
      w' = w.put (.behind (w.text.take (semi + 1).toNat) (diag four "TCPIP: AFTER_DONE")
        (w.text.drop (semi + 1).toNat)) := by
  unfold afterDone at h
  split at h
  next htr =>
    cases h
    exact .inl ⟨htr, rfl⟩
  next htr =>
    refine .inr ⟨Bool.eq_false_iff.mpr htr, ?_⟩
    dsimp only at h
    split at h
    · cases h
    · split at h
      · cases h
      next hsemi =>
        cases h
        exact ⟨_, _, Int.not_lt.mp hsemi, rfl, rfl⟩

end SwitchLdnZt.Scripts.LwipThread
