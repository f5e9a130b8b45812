import SwitchLdnZt.Proofs.SteadyTree
import SwitchLdnZt.Scripts.LwipEdits
import SwitchLdnZt.Scripts.LwipFiles

namespace SwitchLdnZt.Proofs.LwipRerun
open Library Scripts LwipThread ThreadRerun StartupRerun SteadyTree

theorem main_only {t t' : Tree} (h : patchMain t = .ok t') : Only ["main.cpp"] t t' := by
  unfold patchMain at h
  split at h
  · exact edit_only h (by decide)
  · cases h
    exact .refl _ t

def oldDelay : Text := text "5000000000ULL"
def newDelay : Text := text "3000000000ULL"

theorem delay_apart : Apart oldDelay newDelay := .of_apart (by decide)

theorem main_again {t t' u : Tree} (h : patchMain t = .ok t')
    (hu : u.raw mainCpp = t'.raw mainCpp) : patchMain u = .ok u := by
  unfold patchMain at h
  split at h
  next hsome =>
    obtain ⟨r, hraw, ⟨hnone, -⟩ | ⟨s', hs', rfl⟩⟩ := edit_ok h
    · cases hnone
    · cases hs'
      have hraw' := hu.trans (writeText_raw_self t mainCpp _)
      have hreturn : '\r' ∉ newDelay := by decide
      have hclean := replaceAll_clean delay_apart.ne_nil hreturn (universalNewlines_clean r)
      have hgone := replaceAll_gone delay_apart (universalNewlines r)
      rw [patchMain, if_pos (by rw [hraw']; rfl)]
      refine edit_idle hraw' (.inr ⟨hclean, ?_⟩)
      exact congrArg (fun s => Except.ok (some s)) (replaceAll_none hgone newDelay)
  next hnone =>
    cases h
    rw [patchMain, if_neg (by rw [hu]; exact hnone)]

theorem newNow_clean : '\r' ∉ newNow ∧ occurs (text "switch_monotonic_now") newNow = true ∧
    '\r' ∉ switchInclude ++ text "\n#endif\n" := by
  decide +kernel

theorem osUtils_cases {s s' : Text} (h : osUtils s = .ok (some s')) :
    ∃ b segs a, search nowPattern s = some (b, segs, a) ∧
      (s' = b ++ newNow ++ a ∨
        s' = (b ++ newNow ++ a).take (includeAnchor (b ++ newNow ++ a)) ++
          (switchInclude ++ text "\n#endif\n") ++
          (b ++ newNow ++ a).drop (includeAnchor (b ++ newNow ++ a))) := by
  unfold osUtils at h
  split at h
  · cases h
  · split at h
    · cases h
    next b segs a hs =>
      refine ⟨b, segs, a, hs, ?_⟩
      dsimp only at h
      split at h
      · cases h
        exact .inl rfl
      · cases h
        exact .inr rfl

def nowMarker : Text := text "switch_monotonic_now"

/-- The include goes in where it does not break the marker of the new clock. -/
theorem marker_anchored (b a x : Text) : occurs nowMarker
    ((b ++ newNow ++ a).take (includeAnchor (b ++ newNow ++ a)) ++ x ++
      (b ++ newNow ++ a).drop (includeAnchor (b ++ newNow ++ a))) = true := by
  have hin := occurs_append newNow_clean.2.1 b a
  rw [includeAnchor]
  split
  next =>
    -- before the last character, which the marker does not end with
    have hnow : newNow = newNow.dropLast ++ [';'] := by decide +kernel
    have hfront : occurs nowMarker newNow.dropLast = true := by decide +kernel
    have htake : (b ++ newNow ++ a).take ((b ++ newNow ++ a).length - 1) =
        b ++ newNow.dropLast ++ (';' :: a).dropLast := by
      rw [← List.dropLast_eq_take, hnow, List.append_assoc, List.append_assoc,
        List.dropLast_append_of_ne_nil (by simp), List.dropLast_append_of_ne_nil (by simp)]
      simp
    rw [htake]
    have hocc := occurs_append hfront b
      ((';' :: a).dropLast ++ (x ++ (b ++ newNow ++ a).drop ((b ++ newNow ++ a).length - 1)))
    simpa using hocc
  next hfound =>
    obtain ⟨u, v, hs, hlen⟩ := find_spec (by decide) (Int.not_lt.mp hfound)
    rw [hlen, Int.toNat_natCast, hs, List.append_assoc u, List.take_left, List.drop_left]
    rw [hs, List.append_assoc] at hin
    have happart : Apart nowMarker (text "#include") := .of_apart (by decide)
    exact (Whole.of_ahead (List.prefix_append _ v) happart).occurs hin x

theorem osUtils_once : Once osUtils := by
  obtain ⟨hnow, hin, hinclude⟩ := newNow_clean
  constructor
  · intro s s' hs h
    obtain ⟨b, segs, a, hsearch, hcases⟩ := osUtils_cases h
    obtain ⟨hb, ha⟩ := search_clean hsearch hs
    have hwhole : '\r' ∉ b ++ newNow ++ a := by
      simp only [List.mem_append, not_or]
      exact ⟨⟨hb, hnow⟩, ha⟩
    rcases hcases with rfl | rfl
    · exact hwhole
    · rw [List.mem_append, List.mem_append, not_or, not_or]
      exact ⟨⟨fun hm => hwhole (List.mem_of_mem_take hm), hinclude⟩,
        fun hm => hwhole (List.mem_of_mem_drop hm)⟩
  · intro s s' h
    obtain ⟨b, segs, a, -, hcases⟩ := osUtils_cases h
    have hocc : occurs (text "switch_monotonic_now") s' = true := by
      rcases hcases with rfl | rfl
      · exact occurs_append hin b a
      · exact marker_anchored b a _
    rw [osUtils, if_pos hocc]

theorem byteOrder_marked {s s' : Text} (h : byteOrder s = .ok (some s')) :
    ∃ a b, s = a ++ inlineAnchor ++ b ∧ s' = a ++ (inlineAnchor ++ byteOrderFix) ++ b := by
  unfold byteOrder at h
  split at h
  · cases h
  · split at h
    next hocc =>
      obtain ⟨⟨a, b⟩, hcut⟩ := Option.isSome_iff_exists.mp hocc
      cases h
      refine ⟨a, b, cut_eq hcut, ?_⟩
      rw [replaceFirst, hcut]
    next => cases h

theorem byteOrderFix_clean : '\r' ∉ byteOrderFix ∧
    occurs fixMarker (inlineAnchor ++ byteOrderFix) = true := by
  decide +kernel

theorem byteOrder_fixed {s s' : Text} (h : byteOrder s = .ok (some s')) :
    occurs fixMarker s' = true := by
  obtain ⟨a, b, -, rfl⟩ := byteOrder_marked h
  exact occurs_append byteOrderFix_clean.2 a b

theorem byteOrder_once : Once byteOrder := by
  constructor
  · intro s s' hs h
    obtain ⟨a, b, rfl, rfl⟩ := byteOrder_marked h
    simp only [List.mem_append, not_or] at hs ⊢
    exact ⟨⟨hs.1.1, hs.1.2, byteOrderFix_clean.1⟩, hs.2⟩
  · intro s s' h
    rw [byteOrder, if_pos (byteOrder_fixed h)]

section
variable {t t' u u' : Tree} {p : Path} {s : Text} {w : Work}

theorem sysArch_clean (h : sysArch p s = .ok w) (hs : '\r' ∉ s) : '\r' ∉ w.text := by
  obtain ⟨a, b, hsite, hins⟩ := sysArch_inserted h
  have hintro : '\r' ∉ intro := by decide +kernel
  apply hins.clean
  unfold introSite at hsite
  split at hsite
  · cases hsite
  next before m hsearch =>
    split at hsite
    · cases hsite
    next i hi =>
      cases hsite
      have hbefore := (search_clean hsearch hs).1
      simp only [List.mem_append, not_or]
      exact ⟨⟨hbefore, hintro⟩, fun hm => hs (List.mem_of_mem_drop hm)⟩

/-- The wrapper's probe is in after its edit, which reads what was written. -/
theorem wrapperEdit_written (hraw : t.raw p = some (some s)) (hs : '\r' ∉ s)
    (h : edit p wrapperEdit t = .ok t') :
    ∃ w, wrapperProbe ⟨s, []⟩ = .ok w ∧ t'.raw p = some (some w.text) := by
  obtain ⟨r, hraw', hcases⟩ := edit_ok h
  rw [hraw] at hraw'
  cases hraw'
  rw [universalNewlines_same hs] at hcases
  rcases hcases with ⟨hnone, rfl⟩ | ⟨s', hsome, rfl⟩
  · unfold wrapperEdit at hnone
    split at hnone
    next htr =>
      refine ⟨⟨s, []⟩, ?_, hraw⟩
      rw [wrapperProbe]
      exact if_pos htr
    next =>
      obtain ⟨w, -, ho⟩ := map_written hnone
      cases ho
  · unfold wrapperEdit at hsome
    split at hsome
    · cases hsome
    · obtain ⟨w, hw, ho⟩ := map_written hsome
      cases ho
      exact ⟨w, hw, writeText_raw_self t p w.text⟩

theorem sysArch_left (hread : t.readText p = .ok s) (hsteady : SysArchSteady p s)
    (hwrapper : ∀ w, sysArch p s = .ok w → WrapperSteady p w)
    (hedit : edit p (fun s => (sysArch p s).map written) t = .ok t') (hsame : u.raw p = t'.raw p)
    (hwrap : edit p wrapperEdit u = .ok u') :
    ∃ z, u'.raw p = some (some z) ∧ Left (sysArch p) sysArchWords z ∧
      traced "thread_wrapper: child thread alive" z = true := by
  obtain ⟨s', w, hread', hs, hrun, hraw⟩ := edit_written hedit
  rw [hread] at hread'
  cases hread'
  have hclean := sysArch_clean hrun hs
  obtain ⟨w', hprobe, hraw'⟩ := wrapperEdit_written (hsame.trans hraw) hclean hwrap
  have htext : (⟨w.text, []⟩ : Work).text = w.text := rfl
  obtain ⟨hagain, htr, hwords⟩ := sysArch_rerun hrun hsteady htext hprobe (hwrapper w hrun)
  exact ⟨w'.text, hraw', ⟨(wrapperProbe_inserted hprobe).clean hclean, hagain p, hwords⟩, htr⟩

theorem virtualTap_left (hread : t.readText p = .ok s) (hsteady : VirtualTapSteady s)
    (hedit : edit p (fun s => (virtualTap s).map written) t = .ok t') :
    ∃ z, t'.raw p = some (some z) ∧ Left virtualTap virtualTapWords z := by
  obtain ⟨s', w, hread', hs, hrun, hraw⟩ := edit_written hedit
  rw [hread] at hread'
  cases hread'
  obtain ⟨hagain, hword⟩ := virtualTap_rerun hrun hsteady
  refine ⟨w.text, hraw, (virtualTap_inserted hrun).clean hs, ⟨_, hagain, rfl⟩, ?_⟩
  exact List.forall_mem_singleton.mpr hword

theorem tcpip_left (hread : t.readText p = .ok s) (hsteady : TcpipSteady p s)
    (hcreated : occurs (text "sys_thread_new") s = true)
    (hedit : edit p (fun s => (tcpip p s).map written) t = .ok t') :
    ∃ z, t'.raw p = some (some z) ∧ Left (tcpip p) tcpipWords z := by
  obtain ⟨s', w, hread', hs, hrun, hraw⟩ := edit_written hedit
  rw [hread] at hread'
  cases hread'
  obtain ⟨hagain, hwords⟩ := tcpip_rerun hrun hcreated hsteady
  exact ⟨w.text, hraw, (tcpip_inserted hrun).clean hs, ⟨_, hagain p, rfl⟩, hwords⟩

/-- The trees between the steps of a finished run, and the files its steps are about. -/
structure Stages (t t' : Tree) where
  (t₁ t₂ t₃ t₄ t₅ t₆ : Tree)
  (p v c : Path)
  main : patchMain t = .ok t₁
  atSysArch : locateSysArch t₁ = .ok p
  sysArch : edit p (fun s => (LwipThread.sysArch p s).map written) t₁ = .ok t₂
  atVirtualTap : locateVirtualTap t₂ = .ok v
  virtualTap : edit v (fun s => (LwipThread.virtualTap s).map written) t₂ = .ok t₃
  atTcpip : locateTcpip t₃ = .ok c
  tcpip : edit c (fun s => (LwipThread.tcpip c s).map written) t₃ = .ok t₄
  wrapper : edit p wrapperEdit t₄ = .ok t₅
  osUtils : patchOSUtils t₅ = .ok t₆
  constants : patchConstants t₆ = .ok t'

theorem stages_of (h : patchLwip t = .ok t') : Nonempty (Stages t t') := by
  obtain ⟨t₁, hmain, h⟩ := bind_ok.mp h
  obtain ⟨p, hp, h⟩ := bind_ok.mp h
  obtain ⟨t₂, hsys, h⟩ := bind_ok.mp h
  obtain ⟨v, hv, h⟩ := bind_ok.mp h
  obtain ⟨t₃, htap, h⟩ := bind_ok.mp h
  obtain ⟨c, hc, h⟩ := bind_ok.mp h
  obtain ⟨t₄, htcp, h⟩ := bind_ok.mp h
  obtain ⟨t₅, hwrap, h⟩ := bind_ok.mp h
  obtain ⟨t₆, hos, h⟩ := bind_ok.mp h
  exact ⟨⟨t₁, t₂, t₃, t₄, t₅, t₆, p, v, c, hmain, hp, hsys, hv, htap, hc, htcp, hwrap, hos, h⟩⟩

namespace Stages
variable (r : Stages t t')
include r

theorem pName : r.p.getLast? = some "sys_arch.c" := findFile_name (located_ok r.atSysArch)
theorem vName : r.v.getLast? = some "VirtualTap.cpp" := findFile_name (located_ok r.atVirtualTap)
theorem cName : r.c.getLast? = some "tcpip.c" := findFile_name (located_ok r.atTcpip)

/-- Which files the steps up to one may have changed, and the steps from one on. -/
theorem upTo₂ : Only ["main.cpp", "sys_arch.c"] t r.t₂ :=
  (main_only r.main).trans (edit_only r.sysArch r.pName)

theorem upTo₃ : Only ["main.cpp", "sys_arch.c", "VirtualTap.cpp"] t r.t₃ :=
  r.upTo₂.trans (edit_only r.virtualTap r.vName)

theorem from₅ : Only ["OSUtils.hpp", "Constants.hpp"] r.t₅ t' :=
  (patchFound_only r.osUtils).trans (patchFound_only r.constants)

theorem from₄ : Only ["sys_arch.c", "OSUtils.hpp", "Constants.hpp"] r.t₄ t' :=
  (edit_only r.wrapper r.pName).trans r.from₅

theorem from₃ : Only ["tcpip.c", "sys_arch.c", "OSUtils.hpp", "Constants.hpp"] r.t₃ t' :=
  (edit_only r.tcpip r.cName).trans r.from₄

theorem from₁ : Only ["sys_arch.c", "VirtualTap.cpp", "tcpip.c", "sys_arch.c", "OSUtils.hpp",
    "Constants.hpp"] r.t₁ t' :=
  (edit_only r.sysArch r.pName).trans ((edit_only r.virtualTap r.vName).trans r.from₃)

/-- Each file is found and read as in the tree that the run began with. -/
theorem sysArch_found : findFile t "sys_arch.c" sysArchWords = some r.p ∧
    t.readText r.p = r.t₁.readText r.p := by
  have hfind := located_ok r.atSysArch
  rw [findFile_eq, findText_same (main_only r.main) (by decide)] at hfind
  exact ⟨hfind, (readText_congr ((main_only r.main).raw r.pName (by decide))).symm⟩

theorem virtualTap_found : findFile t "VirtualTap.cpp" virtualTapWords = some r.v ∧
    t.readText r.v = r.t₂.readText r.v := by
  have hfind := located_ok r.atVirtualTap
  rw [findFile_eq, findText_same r.upTo₂ (by decide)] at hfind
  exact ⟨hfind, (readText_congr (r.upTo₂.raw r.vName (by decide))).symm⟩

theorem tcpip_found : findFile t "tcpip.c" tcpipWords = some r.c ∧
    t.readText r.c = r.t₃.readText r.c := by
  have hfind := located_ok r.atTcpip
  rw [findFile_eq, findText_same r.upTo₃ (by decide)] at hfind
  exact ⟨hfind, (readText_congr (r.upTo₃.raw r.cName (by decide))).symm⟩

theorem main_again : patchMain t' = .ok t' := by
  have hname : mainCpp.getLast? = some "main.cpp" := by decide
  exact LwipRerun.main_again r.main (r.from₁.raw hname (by decide))

theorem sysArch_again (h : LwipSteady t) : findFile t' "sys_arch.c" sysArchWords = some r.p ∧
    edit r.p (fun s => (LwipThread.sysArch r.p s).map written) t' = .ok t' ∧
    edit r.p wrapperEdit t' = .ok t' := by
  obtain ⟨hfound, hread⟩ := r.sysArch_found
  obtain ⟨s, -, hs, -⟩ := edit_written r.sysArch
  obtain ⟨hsteady, hwrapper⟩ := h.sysArch r.p s hfound (hread.trans hs)
  have hkept : Only ["VirtualTap.cpp", "tcpip.c"] r.t₂ r.t₄ :=
    (edit_only r.virtualTap r.vName).trans (edit_only r.tcpip r.cName)
  obtain ⟨z, hz, hleft, htr⟩ := sysArch_left hs hsteady hwrapper r.sysArch
    (hkept.raw r.pName (by decide)) r.wrapper
  rw [← r.from₅.raw r.pName (by decide)] at hz
  refine ⟨?_, hleft.idle hz, edit_idle hz (.inl ?_)⟩
  · have hother := ((edit_allBut r.sysArch "sys_arch.c").trans (hkept.allBut (by decide) r.p)).trans
      ((edit_allBut r.wrapper "sys_arch.c").trans (r.from₅.allBut (by decide) r.p))
    exact hleft.found (located_ok r.atSysArch) hother hz
  · rw [universalNewlines_same hleft.clean, wrapperEdit, if_pos htr]

theorem virtualTap_again (h : LwipSteady t) :
    findFile t' "VirtualTap.cpp" virtualTapWords = some r.v ∧
    edit r.v (fun s => (LwipThread.virtualTap s).map written) t' = .ok t' := by
  obtain ⟨hfound, hread⟩ := r.virtualTap_found
  obtain ⟨s, -, hs, -⟩ := edit_written r.virtualTap
  obtain ⟨z, hz, hleft⟩ := virtualTap_left hs (h.virtualTap r.v s hfound (hread.trans hs))
    r.virtualTap
  rw [← r.from₃.raw r.vName (by decide)] at hz
  refine ⟨?_, hleft.idle hz⟩
  exact hleft.found (located_ok r.atVirtualTap)
    ((edit_allBut r.virtualTap _).trans (r.from₃.allBut (by decide) r.v)) hz

theorem tcpip_again (h : LwipSteady t) : findFile t' "tcpip.c" tcpipWords = some r.c ∧
    edit r.c (fun s => (LwipThread.tcpip r.c s).map written) t' = .ok t' := by
  obtain ⟨hfound, hread⟩ := r.tcpip_found
  obtain ⟨-, s, hs, hwords⟩ := findText_spec hfound
  have hcreated := List.all_eq_true.mp hwords (text "sys_thread_new") (by simp [tcpipWords])
  obtain ⟨z, hz, hleft⟩ := tcpip_left (hread.symm.trans hs) (h.tcpip r.c s hfound hs) hcreated
    r.tcpip
  rw [← r.from₄.raw r.cName (by decide)] at hz
  refine ⟨?_, hleft.idle hz⟩
  exact hleft.found (located_ok r.atTcpip)
    ((edit_allBut r.tcpip _).trans (r.from₄.allBut (by decide) r.c)) hz

theorem osUtils_again : patchOSUtils t' = .ok t' :=
  patchFound_again osUtils_once (fun _ _ _ => rfl) r.osUtils (patchFound_only r.constants)
    (by decide)

theorem constants_again : patchConstants t' = .ok t' := by
  refine patchFound_again byteOrder_once ?_ r.constants (.refl [] t') (by simp)
  intro s s' hs
  rw [byteOrder_fixed hs]
  rfl

end Stages

/-- After a run on a tree whose edits break nothing a second run leaves it as it is. -/
theorem lwip_rerun (hrun : patchLwip t = .ok t') (h : LwipSteady t) : patchLwip t' = .ok t' := by
  obtain ⟨r⟩ := stages_of hrun
  obtain ⟨hp, hsys, hwrap⟩ := r.sysArch_again h
  obtain ⟨hv, htap⟩ := r.virtualTap_again h
  obtain ⟨hc, htcp⟩ := r.tcpip_again h
  refine bind_ok.mpr ⟨t', r.main_again, bind_ok.mpr ⟨r.p, located_of hp, ?_⟩⟩
  refine bind_ok.mpr ⟨t', hsys, bind_ok.mpr ⟨r.v, located_of hv, ?_⟩⟩
  refine bind_ok.mpr ⟨t', htap, bind_ok.mpr ⟨r.c, located_of hc, ?_⟩⟩
  refine bind_ok.mpr ⟨t', htcp, bind_ok.mpr ⟨t', hwrap, ?_⟩⟩
  exact bind_ok.mpr ⟨t', r.osUtils_again, r.constants_again⟩

end

def sysArchC : Path := ["libzt", "sys_arch.c"]

/-- The three files of lwIP, with these lines above `introduce_thread`. -/
def lwipTree (above : List String) : Tree :=
  [(sysArchC, some (lines (above ++ ["static struct sys_thread *",
      "introduce_thread(pthread_t id)", "\x7b", "\x7d", "void *thread_wrapper(void *arg)", "\x7b",
      "\x7d", "sys_thread_t", "sys_thread_new(void)", "\x7b",
      "  code = pthread_create(&tmp, NULL, thread_wrapper, thread_data);", "  if (0 == code) \x7b",
      "    st = introduce_thread(tmp);", "  \x7d", "\x7d", ""]))),
    (["libzt", "VirtualTap.cpp"], some (lines ["void zts_main_lwip_driver_loop()", "\x7b",
      "  sys_sem_new(&sem, 0);", "  tcpip_init(done, &sem);", "  sys_sem_wait(&sem);", "\x7d",
      ""])),
    (["libzt", "tcpip.c"], some (lines ["static void tcpip_thread(void *arg)", "\x7b",
      "  if (tcpip_init_done != NULL) \x7b", "    tcpip_init_done(arg);", "  \x7d", "\x7d",
      "void tcpip_init(void)", "\x7b", "  sys_thread_new(tcpip_thread);", "\x7d", ""]))]

theorem lwipTree_steady : lwipSteady (lwipTree []) = true ∧
    (patchLwip (lwipTree [])).isOk = true := by
  decide +kernel

theorem lwip_rerun_plain : ∃ t', patchLwip (lwipTree []) = .ok t' ∧ patchLwip t' = .ok t' := by
  obtain ⟨hsteady, hok⟩ := lwipTree_steady
  cases hrun : patchLwip (lwipTree []) with
  | error e =>
    rw [hrun] at hok
    cases hok
  | ok t' => exact ⟨t', rfl, lwip_rerun hrun (lwipSteady_of hsteady)⟩

/-- A comment that mentions the helper as the script writes it. -/
def mentioned : Tree := lwipTree ["/* introduce_thread(pthread_t id)", "\x7b ... */"]

/-- What two runs make of its sys_arch.c. -/
theorem mentioned_runs :
    ((patchLwip mentioned).toOption.bind (Tree.raw · sysArchC)).isSome = true ∧
    (patchLwip mentioned >>= patchLwip).toOption.bind (Tree.raw · sysArchC) ≠
      (patchLwip mentioned).toOption.bind (Tree.raw · sysArchC) := by
  decide +kernel

/-- The second run loses the probe that the first put into the helper. -/
theorem probe_lost : ¬ ∀ t t', patchLwip t = .ok t' →
    ∃ t'', patchLwip t' = .ok t'' ∧ ∀ p, t''.raw p = t'.raw p := by
  intro h
  obtain ⟨hsome, hne⟩ := mentioned_runs
  cases hrun : patchLwip mentioned with
  | error e =>
    rw [hrun] at hsome
    cases hsome
  | ok t' =>
    obtain ⟨t'', hagain, hsame⟩ := h mentioned t' hrun
    have hboth : patchLwip mentioned >>= patchLwip = .ok t'' := bind_ok.mpr ⟨t', hrun, hagain⟩
    apply hne
    rw [hboth, hrun, Except.toOption, Except.toOption, Option.bind_some, Option.bind_some]
    exact hsame sysArchC

end SwitchLdnZt.Proofs.LwipRerun
