import SwitchLdnZt.Scripts.LibztPort

namespace SwitchLdnZt.Proofs.PortRerun
open Library Scripts LibztPort

/-- The measure that no run leaves as it was. -/
def switchMarks (t : Tree) : Nat :=
  match t.raw phyHpp with
  | some (some s) => s.count 'W'
  | _ => 0

/-- An include directive in the text is found by its pattern. -/
theorem include_found {header : String} {s : Text}
    (h : occurs (text "#include" ++ ([' '] ++ text header)) s = true) :
    (search (includePattern header) s).isSome = true := by
  obtain ⟨a, b, rfl⟩ := occurs_iff.mp h
  rw [List.append_assoc]
  apply searchFrom_isSome a
  intro prev
  have htail : ∀ prev, (matchHere (lits header) prev (text header ++ b)).isSome = true := by
    intro prev
    have hend : ∀ prev, (matchHere [] prev b).isSome = true := fun _ => rfl
    have hl := matchHere_lits_isSome (text header) hend prev
    rwa [List.append_nil] at hl
  have hspace : ∀ c ∈ [' '], Cls.has .space c = true := List.all_eq_true.mp rfl
  have hhere := matchHere_lits_isSome (text "#include")
    (fun prev => matchHere_many_isSome hspace htail prev) prev
  have hone : matchAny (includePattern header) prev
      (text "#include" ++ ([' '] ++ text header) ++ b) =
      matchHere (lits "#include" ++ ws ++ lits header) prev
        (text "#include" ++ ([' '] ++ text header) ++ b) := by
    simp [matchAny, includePattern]
  rw [hone]
  simpa [lits, ws] using hhere

theorem guard_has_include {s : Text} (h : occurs sysUnGuard s = true) :
    occurs (text "#include" ++ ([' '] ++ text "<sys/un.h>")) s = true := by
  obtain ⟨a, b, rfl⟩ := occurs_iff.mp h
  apply occurs_append
  decide

/-- Every finished edit of Phy.hpp puts in one `__SWITCH__` more. -/
theorem phyEdit_grows {s : Text} {o : Option Text} (h : phyEdit s = .ok o) :
    ∃ s', o = some s' ∧ s.count 'W' < s'.count 'W' := by
  unfold phyEdit at h
  have hun : ∀ is ∈ sysUnPattern, ∀ i ∈ is, Item.takes i 'W' = false := by decide
  have hcleanup : ∀ is ∈ cleanupPattern, ∀ i ∈ is, Item.takes i 'W' = false := by
    decide +kernel
  have h₁ := count_subFirst hun sysUnGuard s
  have h₂ := count_subFirst hcleanup cleanupReplacement
    (subFirst sysUnPattern (fun _ => sysUnGuard) s).1
  have hguard : sysUnGuard.count 'W' = 1 := by decide
  dsimp only at h
  split at h
  · cases h
  · next hnot =>
    have hone : (subFirst sysUnPattern (fun _ => sysUnGuard) s).2 = 1 := by
      by_contra hne
      have hocc : occurs sysUnGuard s = true := by
        by_contra ho
        exact hnot ⟨hne, ho⟩
      have hfound : (search sysUnPattern s).isSome = true :=
        include_found (guard_has_include hocc)
      rw [subFirst_count, if_pos hfound] at hne
      exact hne rfl
    split at h
    · cases h
    · cases h
      refine ⟨_, rfl, ?_⟩
      rw [h₂, h₁, hone, hguard]
      omega

/-- The stage leaves Phy.hpp alone. -/
def Keeps (stage : Tree → Result Tree) : Prop :=
  ∀ t t', stage t = .ok t' → t'.raw phyHpp = t.raw phyHpp

theorem keeps_edit {p : Path} {f : Text → Result (Option Text)} (hp : phyHpp ≠ p) :
    Keeps (edit p f) :=
  fun _ _ h => edit_frame h hp

theorem keeps_lwipPort : Keeps lwipPort := by
  intro t t' h
  unfold lwipPort at h
  split at h
  · cases h
  · exact edit_frame h (by decide)

theorem keeps_lwipWrapper : Keeps lwipWrapper := by
  intro t t' h
  simp only [lwipWrapper, create] at h
  split at h
  · cases h
  · cases h
    exact writeText_raw_other t _ (by decide)

/-- A file found under another name is another file. -/
theorem found_other {t : Tree} {name : String} {required : List Text} {p : Path}
    (h : findFile t name required = some p) (hn : name ≠ "Phy.hpp") : phyHpp ≠ p := by
  intro he
  cases he
  have := findFile_name h
  simp only [phyHpp, List.getLast?_cons_cons, List.getLast?_singleton, Option.some.injEq] at this
  exact hn this.symm

theorem keeps_instrumentVirtualTap : Keeps instrumentVirtualTap := by
  intro t t' h
  unfold instrumentVirtualTap at h
  split at h
  next p hp => exact edit_frame h (found_other hp (by decide))
  next =>
    cases h
    rfl

theorem keeps_instrumentSysArch : Keeps instrumentSysArch := by
  intro t t' h
  unfold instrumentSysArch at h
  split at h
  next p hp => exact edit_frame h (found_other hp (by decide))
  next =>
    cases h
    rfl

theorem phy_grows {t t' : Tree} (h : phy t = .ok t') : switchMarks t < switchMarks t' := by
  obtain ⟨s, hraw, ⟨hf, -⟩ | ⟨s', hf, rfl⟩⟩ := edit_ok h
  · obtain ⟨s', hs', -⟩ := phyEdit_grows hf
    cases hs'
  · obtain ⟨s'', hs'', hlt⟩ := phyEdit_grows hf
    cases hs''
    rw [count_universalNewlines (by decide) (by decide)] at hlt
    simpa [switchMarks, hraw, writeText_raw_self] using hlt

theorem switchMarks_eq {t t' : Tree} (h : t'.raw phyHpp = t.raw phyHpp) :
    switchMarks t' = switchMarks t := by
  rw [switchMarks, switchMarks, h]

theorem patch_grows {t t' : Tree} (h : patchLibztSwitch t = .ok t') :
    switchMarks t < switchMarks t' := by
  obtain ⟨t₁, h₁, h⟩ := bind_ok.mp h
  obtain ⟨t₂, h₂, h⟩ := bind_ok.mp h
  obtain ⟨t₃, h₃, h⟩ := bind_ok.mp h
  obtain ⟨t₄, h₄, h⟩ := bind_ok.mp h
  obtain ⟨t₅, h₅, h⟩ := bind_ok.mp h
  obtain ⟨t₆, h₆, h⟩ := bind_ok.mp h
  obtain ⟨t₇, h₇, h⟩ := bind_ok.mp h
  obtain ⟨t₈, h₈, h⟩ := bind_ok.mp h
  obtain ⟨t₉, h₉, h⟩ := bind_ok.mp h
  have hbefore : t₃.raw phyHpp = t.raw phyHpp := by
    rw [keeps_edit (by decide) _ _ h₃, keeps_edit (by decide) _ _ h₂,
      keeps_edit (by decide) _ _ h₁]
  have hafter : t'.raw phyHpp = t₄.raw phyHpp := by
    rw [keeps_edit (by decide) _ _ h, keeps_edit (by decide) _ _ h₉, keeps_lwipWrapper _ _ h₈,
      keeps_lwipPort _ _ h₇, keeps_edit (by decide) _ _ h₆, keeps_edit (by decide) _ _ h₅]
  rw [switchMarks_eq hafter, ← switchMarks_eq hbefore]
  exact phy_grows h₄

variable {word : Char → Bool}

theorem bootstrap_grows {t t' : Tree} (h : bootstrap word t = .ok t') :
    switchMarks t < switchMarks t' := by
  obtain ⟨t₁, h₁, h⟩ := bind_ok.mp h
  obtain ⟨t₂, h₂, h⟩ := bind_ok.mp h
  obtain ⟨t₃, h₃, h⟩ := bind_ok.mp h
  have hbefore : t₁.raw phyHpp = t.raw phyHpp := keeps_edit (by decide) _ _ h₁
  have hafter : t'.raw phyHpp = t₂.raw phyHpp := by
    rw [keeps_instrumentSysArch _ _ h, keeps_instrumentVirtualTap _ _ h₃]
  rw [switchMarks_eq hafter, ← switchMarks_eq hbefore]
  exact patch_grows h₂

/-- A second run finishes too and leaves every file as the first one made it. -/
def Rerunnable (word : Char → Bool) (t : Tree) : Prop :=
  ∀ t', bootstrap word t = .ok t' →
    ∃ t'', bootstrap word t' = .ok t'' ∧ ∀ p, t''.raw p = t'.raw p

/-- Wherever the port finishes it is not rerunnable: each run guards Phy.hpp's
include once more. -/
theorem never_rerunnable {t t' : Tree} (h : bootstrap word t = .ok t') : ¬ Rerunnable word t := by
  intro hr
  obtain ⟨t'', h', hsame⟩ := hr t' h
  have hlt := bootstrap_grows h'
  rw [switchMarks_eq (hsame phyHpp)] at hlt
  exact Nat.lt_irrefl _ hlt

def asciiWord (c : Char) : Bool := c.isAlphanum || c == '_'

/-- A tree with no more in it than the port insists on. -/
def smallTree : Tree :=
  [(cmakeLists, some (removeItem ++
      text "if(UNIX OR SWITCH OR CMAKE_SYSTEM_NAME STREQUAL \"Switch\")")),
    (constantsHpp, some (text "#ifdef __APPLE__\n")),
    (utilsHpp, some (text
      "static inline char*stok(\nstatic inline unsigned int strToUInt(const char*s)")),
    (binderHpp, some (text "#include <ifaddrs.h>\n#if !defined(__ANDROID__)getifaddrs()\n" ++
      text "bool interfacesEnumerated = true;")),
    (phyHpp, some (text "#include <sys/un.h>")),
    (utilsCpp, some (text "#include <sys/uio.h>\nconst long hwcaps = getauxval(AT_HWCAP);")),
    (portCc, some []), (prometheus "family.h", some []), (prometheus "registry.h", some [])]

/-- What two runs make of the small tree's Phy.hpp. -/
theorem smallTree_runs :
    ((bootstrap asciiWord smallTree).toOption.bind (Tree.raw · phyHpp)) =
      some (some sysUnGuard) ∧
    ((bootstrap asciiWord smallTree >>= bootstrap asciiWord).toOption.bind (Tree.raw · phyHpp)) =
      some (some (offSwitch sysUnGuard)) ∧ sysUnGuard ≠ offSwitch sysUnGuard := by
  decide +kernel

theorem smallTree_ports : ∃ t', bootstrap asciiWord smallTree = .ok t' := by
  have hfirst := smallTree_runs.1
  cases ht : bootstrap asciiWord smallTree with
  | error e =>
    rw [ht] at hfirst
    cases hfirst
  | ok t' => exact ⟨t', rfl⟩

theorem smallTree_never : (∃ t', bootstrap asciiWord smallTree = .ok t') ∧
    ¬ Rerunnable asciiWord smallTree := by
  obtain ⟨t', ht⟩ := smallTree_ports
  exact ⟨⟨t', ht⟩, never_rerunnable ht⟩

/-- The second run finishes on the small tree, and has wrapped the include twice. -/
theorem second_run_wraps_again : ¬ Rerunnable asciiWord smallTree := by
  intro hr
  obtain ⟨t', ht⟩ := smallTree_ports
  obtain ⟨t'', ht'', hsame⟩ := hr t' ht
  obtain ⟨hfirst, hsecond, hne⟩ := smallTree_runs
  have hboth : bootstrap asciiWord smallTree >>= bootstrap asciiWord = .ok t'' :=
    bind_ok.mpr ⟨t', ht, ht''⟩
  rw [ht, Except.toOption, Option.bind_some] at hfirst
  rw [hboth, Except.toOption, Option.bind_some, hsame phyHpp, hfirst] at hsecond
  exact hne (Option.some.inj (Option.some.inj hsecond))

end SwitchLdnZt.Proofs.PortRerun
