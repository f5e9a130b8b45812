import SwitchLdnZt.Library.CFunctions
import SwitchLdnZt.Library.Searching
import SwitchLdnZt.Scripts.LdnMain
import SwitchLdnZt.Scripts.LwipRun

namespace SwitchLdnZt.Proofs.FunctionSpan
open Library CRegions Scripts

variable {sig s : Text}

/-- The signature is nowhere in the text before the definition. -/
def FirstMention (d : Definition sig s) : Prop :=
  ∀ a b, s = a ++ (sig ++ b) → d.before.length ≤ a.length

/-- Nothing before the definition looks like the head of `introduce_thread`. -/
def FirstHit (d : Definition sig s) : Prop :=
  ∀ b m a, s = b ++ m ++ a → Hits LwipThread.introducePattern m → d.before.length ≤ b.length

/-- The definition with another body. -/
def replaced (d : Definition sig s) (newBody : Text) : Text :=
  d.before ++ sig ++ text " " ++ newBody ++ d.after

theorem introduce_plainly : Plainly LwipThread.introducePattern := by
  unfold Plainly
  decide

theorem introduce_ends : Closed '\x7b' LwipThread.introducePattern := .of_all (by decide)

/-- Where any text may be put, the places are the same. -/
theorem around_unique {u v u' v' : Text} (h : ∀ x, u ++ x ++ v = u' ++ x ++ v') :
    u = u' ∧ v = v' := by
  have within {a b c d : Text} (h : ∀ x, a ++ x ++ b = c ++ x ++ d) (hl : a.length ≤ c.length) :
      a = c := by
    have hplain : c ++ d = a ++ b := by simpa using (h []).symm
    obtain ⟨t, rfl, -⟩ := append_split hplain hl
    cases t with
    | nil => simp
    | cons e t =>
      have hx := h [if e = 'a' then 'b' else 'a']
      simp only [List.append_assoc, List.append_cancel_left_eq, List.cons_append, List.nil_append,
        List.cons.injEq] at hx
      split at hx
      next he =>
        rw [he] at hx
        exact absurd hx.1 (by decide)
      next he => exact absurd hx.1.symm he
  have hu : u = u' := by
    rcases Nat.le_total u.length u'.length with hl | hl
    · exact within h hl
    · exact (within (fun x => (h x).symm) hl).symm
  subst hu
  refine ⟨rfl, ?_⟩
  simpa using h []

theorem replaceFunction_ok {file : String} {newBody s' : Text} :
    LdnPatch.replaceFunction file sig newBody s = .ok s' ↔
      ∃ a b z, cut sig s = some (a, b) ∧ scanned (sig ++ b) = some z ∧
        s' = a ++ sig ++ text " " ++ newBody ++ z := by
  unfold LdnPatch.replaceFunction scanned
  cases hcut : cut sig s with
  | none => simp
  | some m =>
    obtain ⟨a, b⟩ := m
    dsimp only
    cases hbrace : cut ['\x7b'] (sig ++ b) with
    | none => simp [hbrace]
    | some m =>
      obtain ⟨pre, inside⟩ := m
      dsimp only
      cases hclosing : closing '\x7b' '\x7d' 1 inside with
      | none => simp [hbrace, hclosing]
      | some m => simp [hbrace, hclosing, eq_comm]

theorem first_iff (d : Definition sig s) :
    FirstMention d ↔ ∃ b, cut sig s = some (d.before, b) ∧ sig ++ b = d.whole ++ d.after := by
  have htext := d.text
  rw [← List.append_assoc] at htext
  constructor
  · intro hfirst
    obtain ⟨a, b, hcut, hle⟩ :=
      cut_append sig d.before (d.gap ++ '\x7b' :: (d.body ++ '\x7d' :: d.after))
    rw [← htext] at hcut
    have hs := cut_eq hcut
    rw [List.append_assoc] at hs
    have hlen := Nat.le_antisymm hle (hfirst a b hs)
    obtain ⟨rfl, hrest⟩ := List.append_inj (hs.symm.trans d.text_whole) hlen
    exact ⟨b, hcut, hrest⟩
  · rintro ⟨b, hcut, -⟩ a c hs
    obtain ⟨a', b', hcut', hle⟩ := cut_append sig a c
    rw [List.append_assoc, ← hs, hcut] at hcut'
    cases hcut'
    exact hle

/-- Whatever the new body, the function's text and no other is replaced exactly
where its signature is first mentioned and its braces are not disturbed. -/
theorem replaced_iff (d : Definition sig s) (file : String) :
    (∀ newBody, LdnPatch.replaceFunction file sig newBody s = .ok (replaced d newBody)) ↔
      FirstMention d ∧ d.Steady := by
  constructor
  · intro h
    obtain ⟨a, b, z, hcut, hscan, -⟩ := replaceFunction_ok.mp (h [])
    have heach : ∀ x,
        a ++ sig ++ text " " ++ x ++ z = d.before ++ sig ++ text " " ++ x ++ d.after := by
      intro x
      obtain ⟨a', b', z', hcut', hscan', hx⟩ := replaceFunction_ok.mp (h x)
      rw [hcut] at hcut'
      cases hcut'
      rw [hscan] at hscan'
      cases hscan'
      exact hx.symm
    obtain ⟨hbefore, rfl⟩ := around_unique heach
    rw [List.append_assoc, List.append_assoc] at hbefore
    obtain rfl := List.append_cancel_right hbefore
    have hs := cut_eq hcut
    rw [List.append_assoc] at hs
    have hwhole := List.append_cancel_left (hs.symm.trans d.text_whole)
    rw [hwhole] at hscan
    exact ⟨(first_iff d).mpr ⟨b, hcut, hwhole⟩, d.scanned_iff.mp hscan⟩
  · rintro ⟨hfirst, hsteady⟩ newBody
    obtain ⟨b, hcut, hwhole⟩ := (first_iff d).mp hfirst
    refine replaceFunction_ok.mpr ⟨_, b, _, hcut, ?_, rfl⟩
    rw [hwhole]
    exact d.scanned_iff.mpr hsteady

theorem scanned_closed {m₀ r : Text} (hm₀ : '\x7b' ∉ m₀) :
    scanned (m₀ ++ '\x7b' :: r) = (closing '\x7b' '\x7d' 1 r).map (·.2) := by
  rw [scanned, cut_char hm₀]

/-- The script's loop over indices is the same scan. -/
theorem introSite_first (p : Path) {u m r : Text}
    (hfirst : First LwipThread.introducePattern s u m r) :
    LwipThread.introSite p s = match scanned (m ++ r) with
      | some z => .ok (u, z)
      | none => exit "ERROR: could not parse introduce_thread()" := by
  obtain ⟨segs, hsearch, rfl⟩ := hfirst.search introduce_plainly introduce_ends
  obtain ⟨m₀, hm, hm₀⟩ := introduce_ends.hit hfirst.hit
  have hs : s = (u ++ m₀) ++ '\x7b' :: r := by
    rw [hfirst.text, hm]
    simp
  have hfind : find (text "\x7b") s u.length = ((u ++ m₀).length : Nat) := by
    rw [hs, List.append_assoc]
    exact find_char_at hm₀ u r
  have hclose : closeFrom '\x7b' '\x7d' s (find (text "\x7b") s u.length) =
      (closing '\x7b' '\x7d' 1 r).map (fun c => (u ++ m₀).length + 1 + c.1.length - 1) := by
    rw [hfind, closeFrom, if_pos (by omega), Int.toNat_natCast, hs, List.drop_left, closeLoop,
      if_pos rfl]
    exact closeLoop_eq (Nat.le_refl 1) _ r
  rw [hm, List.append_assoc, List.singleton_append, scanned_closed hm₀, LwipThread.introSite,
    hsearch]
  dsimp only
  rw [hclose]
  cases hr : closing '\x7b' '\x7d' 1 r with
  | none => rfl
  | some c =>
    obtain ⟨a, b⟩ := c
    obtain ⟨a₀, rfl⟩ := closing_last hr
    have hdrop : s.drop ((u ++ m₀).length + 1 + (a₀ ++ ['\x7d']).length - 1 + 1) = b := by
      have hrest := ((closing_iff (by decide) (Nat.le_refl 1)).mp hr).1
      have hall : s = (u ++ m₀ ++ '\x7b' :: (a₀ ++ ['\x7d'])) ++ b := by
        rw [hs, hrest]
        simp
      rw [hall]
      exact List.drop_left' (by simp; omega)
    simp only [Option.map_some, hdrop]

theorem introSite_ok {p : Path} {u z : Text} :
    LwipThread.introSite p s = .ok (u, z) ↔
      ∃ m r, First LwipThread.introducePattern s u m r ∧ scanned (m ++ r) = some z := by
  constructor
  · intro h
    cases hsearch : search LwipThread.introducePattern s with
    | none =>
      rw [LwipThread.introSite, hsearch] at h
      cases h
    | some found =>
      obtain ⟨b, segs, r⟩ := found
      have hfirst := search_first introduce_plainly hsearch
      rw [introSite_first p hfirst] at h
      split at h
      next z' hscan =>
        cases h
        exact ⟨_, r, hfirst, hscan⟩
      next => cases h
  · rintro ⟨m, r, hfirst, hscan⟩
    rw [introSite_first p hfirst, hscan]

/-- The same for the helper, whose head has to look as the script expects. -/
theorem introSite_iff (d : Definition sig s) (p : Path)
    (hhead : Hits LwipThread.introducePattern (sig ++ (d.gap ++ ['\x7b']))) :
    LwipThread.introSite p s = .ok (d.before, d.after) ↔ FirstHit d ∧ d.Steady := by
  have htext : s = d.before ++ (sig ++ (d.gap ++ ['\x7b'])) ++ (d.body ++ '\x7d' :: d.after) := by
    have := d.text
    simpa using this
  have hwhole : d.whole ++ d.after =
      (sig ++ (d.gap ++ ['\x7b'])) ++ (d.body ++ '\x7d' :: d.after) := by
    simp [Definition.whole]
  rw [introSite_ok, ← d.scanned_iff, hwhole]
  constructor
  · rintro ⟨m, r, hfirst, hscan⟩
    have hrest := hfirst.text.symm.trans htext
    rw [List.append_assoc, List.append_assoc] at hrest
    obtain ⟨rfl, rfl⟩ :=
      introduce_ends.unique hfirst.hit hhead (List.append_cancel_left hrest)
    exact ⟨hfirst.least, hscan⟩
  · rintro ⟨hleast, hscan⟩
    exact ⟨_, _, ⟨htext, hhead, hleast⟩, hscan⟩

/-- A definition is replaced as a whole, and nothing else is, exactly where it is the
first that the scan meets and the braces in its comments and literals make no
difference; otherwise a script may stop, and leaves the file as it was. -/
theorem definition_replaced (d : Definition sig s) :
    (∀ file, ((∀ newBody, LdnPatch.replaceFunction file sig newBody s = .ok (replaced d newBody)) ↔
        FirstMention d ∧ d.Steady) ∧
      ∀ newBody stop, LdnPatch.replaceFunction file sig newBody s = .error stop →
        ¬(FirstMention d ∧ d.Steady) ∧
        ∀ (p : Path) (t : Tree) steps, t.readText p = .ok s →
          LdnPatch.runSteps (.edit p (LdnPatch.replaceFunction file sig newBody) :: steps) t =
            (t, some (.patch stop))) ∧
    (Hits LwipThread.introducePattern (sig ++ (d.gap ++ ['\x7b'])) → ∀ p,
      (LwipThread.introSite p s = .ok (d.before, d.after) ↔ FirstHit d ∧ d.Steady) ∧
      ∀ stop, LwipThread.introSite p s = .error stop →
        ¬(FirstHit d ∧ d.Steady) ∧
        ∀ t : Tree, t.readText p = .ok s →
          edit p (fun s => (LwipThread.sysArch p s).map LwipThread.written) t = .error stop) := by
  refine ⟨fun file => ⟨replaced_iff d file, fun newBody stop hstop => ⟨?_, ?_⟩⟩,
    fun hhead p => ⟨introSite_iff d p hhead, fun stop hstop => ⟨?_, ?_⟩⟩⟩
  · intro hcond
    have hok := (replaced_iff d file).mpr hcond newBody
    rw [hstop] at hok
    cases hok
  · intro p t steps hread
    simp only [LdnPatch.runSteps, LdnPatch.Step.act, hread, hstop]
  · intro hcond
    have hok := (introSite_iff d p hhead).mpr hcond
    rw [hstop] at hok
    cases hok
  · intro t hread
    have harch : LwipThread.sysArch p s = .error stop := by
      rw [LwipThread.sysArch, hstop]
      rfl
    simp only [edit, hread, harch, Except.map, bind, Except.bind]

/-- A function that takes no arguments and calls another one. -/
def caller (argument : String) : Text :=
  text "void f() \x7b g(" ++ text argument ++ text "); \x7d"

/-- Its definition, where the argument is complete and has no brace in code. -/
def callerDefinition (argument : String)
    (hnested : Nested '\x7b' '\x7d'
      (shown (read start (text "void f() \x7b")) (text " g(" ++ text argument ++ text "); ")))
    (hcloses : (read (read start (text "void f() \x7b"))
      (text " g(" ++ text argument ++ text "); ")).inCode = true) :
    Definition (text "void f()") (caller argument) where
  before := []
  gap := text " "
  body := text " g(" ++ text argument ++ text "); "
  after := []
  text := by
    simp only [caller, List.append_assoc]
    rfl
  starts := start_inCode
  parted := by decide
  signature := by decide
  clear := List.forall_mem_cons.mpr ⟨by decide, List.forall_mem_cons.mpr ⟨by decide,
    List.forall_mem_singleton.mpr (by decide)⟩⟩
  rounded := by decide
  opens := by decide
  nested := hnested
  closes := hcloses

def emptyBraces : Definition (text "void f()") (caller "\"\x7b\x7d\"") :=
  callerDefinition _ (by decide) (by decide)

theorem definition_replaced_braces :
    LdnPatch.replaceFunction "f.cpp" (text "void f()") (text "\x7b\x7d") (caller "\"\x7b\x7d\"") =
      .ok (text "void f() \x7b\x7d") := by
  have hfirst : FirstMention emptyBraces := fun _ _ _ => Nat.zero_le _
  have hsteady : emptyBraces.Steady := by
    unfold Definition.Steady
    decide
  exact ((definition_replaced emptyBraces).1 "f.cpp").1.mpr ⟨hfirst, hsteady⟩ (text "\x7b\x7d")

def closingBrace : Definition (text "void f()") (caller "'\x7d'") :=
  callerDefinition _ (by decide) (by decide)

/-- The brace in a character literal ends the function too early. -/
theorem definition_cut_short : ¬ ∀ (file : String) (sig newBody s : Text) (d : Definition sig s),
    (∀ d', d' = d) → Nested '\x7b' '\x7d' (shown start s) →
      LdnPatch.replaceFunction file sig newBody s = .ok (replaced d newBody) := by
  intro h
  have hone : ∀ d', d' = closingBrace := by
    intro d'
    apply Definition.eq_of_before
    have htext := d'.text
    cases hb : d'.before with
    | nil => rfl
    | cons c b =>
      have hlater : occurs (text "void f()") (caller "'\x7d'").tail = true := by
        apply occurs_iff.mpr
        exact ⟨b, _, by rw [htext, hb, List.append_assoc]; rfl⟩
      exact absurd hlater (by decide)
  have hcut := h "f.cpp" _ [] _ closingBrace hone (by decide)
  have hgot : LdnPatch.replaceFunction "f.cpp" (text "void f()") [] (caller "'\x7d'") =
      .ok (text "void f() '); \x7d") := rfl
  rw [hgot, Except.ok.injEq] at hcut
  revert hcut
  decide

end SwitchLdnZt.Proofs.FunctionSpan
