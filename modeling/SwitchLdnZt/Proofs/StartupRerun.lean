import SwitchLdnZt.Proofs.CallBrackets
import SwitchLdnZt.Proofs.ThreadState

namespace SwitchLdnZt.Proofs.StartupRerun
open Library Preprocess Scripts LwipThread ThreadCall ThreadState
open CallBrackets (driver traced_guarded)

/-- The pattern is found in one of these pieces of a text. -/
def Unbroken (pat : Pattern) (parts : List Text) : Prop :=
  ∃ x ∈ parts, (search pat x).isSome = true

theorem driver_plain : Plainly driverPattern := by unfold Plainly; decide

theorem driver_has : Has driver driverPattern :=
  List.forall_mem_singleton.mpr ⟨[], _, by rw [List.nil_append]; rfl⟩

def driverLabels : List String := ["DRIVER: ENTER", "DRIVER: BEFORE_SEM_NEW",
  "DRIVER: BEFORE_TCPIP_INIT", "DRIVER: BEFORE_SEM_WAIT"]

theorem driverLabels_inline : ∀ l ∈ driverLabels, ';' ∉ diagLabel l ∧ '\n' ∉ diagLabel l := by
  decide

/-- What of VirtualTap.cpp a second run goes by. -/
structure Driver (labels : List String) (s : Text) : Prop where
  head : (search driverPattern s).isSome = true
  labels : ∀ l ∈ labels, l ∈ driverLabels ∧ traced l s = true

section
variable {labels : List String} {s fnName indent : Text} {ls : Nat} {semi : Int} {label : String}
variable {w w' : Work}

theorem Driver.also (h : Driver labels s) {l : String} (hl : l ∈ driverLabels)
    (htr : traced l s = true) : Driver (l :: labels) s :=
  ⟨h.head, List.forall_mem_cons.mpr ⟨⟨hl, htr⟩, h.labels⟩⟩

theorem enter_driver {missing : String}
    (h : enter driverPattern missing four "DRIVER: ENTER" w = .ok w') :
    Driver ["DRIVER: ENTER"] w'.text := by
  obtain ⟨head, tail, hup, ⟨htr, rfl⟩ | ⟨-, rfl⟩⟩ := enter_cases h
  · obtain ⟨b, m, rfl, hfirst⟩ := upTo_first driver_plain hup
    have hfound := (found_iff driver_plain).mpr ⟨b, m, tail, hfirst.text, hfirst.hit⟩
    exact ⟨hfound, List.forall_mem_singleton.mpr ⟨by decide, htr⟩⟩
  · obtain ⟨b, m, rfl, hfirst⟩ := upTo_first driver_plain hup
    rw [put_behind]
    refine ⟨?_, List.forall_mem_singleton.mpr ⟨by decide, ?_⟩⟩
    · refine (found_iff driver_plain).mpr ⟨b, m, probe four "DRIVER: ENTER" ++ tail, ?_, hfirst.hit⟩
      rw [List.append_assoc]
    · exact occurs_append (by decide) (b ++ m) tail

/-- The pieces that the blocks are put between are in the new text. -/
theorem bracketed_parts (label : String) (indent u t v : Text) :
    ∀ x ∈ [u, t, v], ∃ p q, bracketed label indent u t v = p ++ x ++ q := by
  have hparts (x₁ x₂ : Text) : ∀ x ∈ [u, t, v],
      ∃ p q, u ++ (x₁ ++ '\n' :: t) ++ '\n' :: (x₂ ++ v) = p ++ x ++ q := by
    refine List.forall_mem_cons.mpr ⟨?_, List.forall_mem_cons.mpr ⟨?_,
      List.forall_mem_singleton.mpr ?_⟩⟩
    · exact ⟨[], x₁ ++ '\n' :: t ++ '\n' :: (x₂ ++ v), by simp⟩
    · exact ⟨u ++ (x₁ ++ ['\n']), '\n' :: (x₂ ++ v), by simp⟩
    · exact ⟨u ++ (x₁ ++ '\n' :: t) ++ '\n' :: x₂, [], by simp⟩
  exact hparts _ _

/-- A word of one line without a semicolon is in one of the pieces. -/
theorem piece_of (h : Brackets fnName s indent ls semi) {l : Text} (hsemi : ';' ∉ l)
    (hline : '\n' ∉ l) (hl : occurs l s = true) :
    ∃ x ∈ [s.take ls, slice s ls (semi + 1), s.drop (semi + 1).toNat], occurs l x = true := by
  obtain ⟨hsemi0, start, hfind⟩ := h.ends
  obtain ⟨hlast, hlen⟩ := semi_take hfind hsemi0
  have hbegin : Whole l (s.take ls) (s.drop ls) := by
    obtain ⟨pos, rfl⟩ := h.line
    rcases lineStart_last s pos with hnil | hlf
    · rw [hnil]
      exact .of_start l _
    · exact .of_last hlf hline _
  rw [← List.take_append_drop ls s] at hl
  rcases hbegin.side hl with htop | hrest
  · exact ⟨_, by simp, htop⟩
  by_cases hle : (ls : Int) ≤ semi + 1
  · have hsplit : s.drop ls = slice s ls (semi + 1) ++ s.drop (semi + 1).toNat := by
      have hwhole := slice_split s hle
      exact (List.append_cancel_left (hwhole.trans (List.take_append_drop ls s).symm)).symm
    rw [hsplit] at hrest
    have hend : Whole l (slice s ls (semi + 1)) (s.drop (semi + 1).toNat) := by
      refine (Whole.of_last hlast hsemi _).mono ?_ (List.prefix_refl _)
      exact List.drop_suffix _ _
    rcases hend.side hrest with hmid | htail
    · exact ⟨_, by simp, hmid⟩
    · exact ⟨_, by simp, htail⟩
  · have hsuffix : s.drop ls = (s.drop (semi + 1).toNat).drop (ls - (semi + 1).toNat) := by
      rw [List.drop_drop]
      congr 1
      omega
    rw [hsuffix] at hrest
    refine ⟨s.drop (semi + 1).toNat, by simp, ?_⟩
    have hocc := occurs_append hrest ((s.drop (semi + 1).toNat).take (ls - (semi + 1).toNat)) []
    rwa [List.append_nil, List.take_append_drop] at hocc

/-- The blocks around the call of `fnName` leave the head of the driver loop whole. -/
def WrapSteady (fnName : Text) (label : String) (s : Text) : Prop :=
  traced ("DRIVER: BEFORE_" ++ label) s = false → ∀ ls semi, wrapPlaces fnName s = some (ls, semi) →
    Unbroken driverPattern [s.take ls, slice s ls (semi + 1), s.drop (semi + 1).toNat]

theorem wrap_driver (h : Driver labels w.text)
    (hl : "DRIVER: BEFORE_" ++ label ∈ driverLabels)
    (hrun : wrapFirstCall fnName label w = .ok w') (hsteady : WrapSteady fnName label w.text) :
    Driver (("DRIVER: BEFORE_" ++ label) :: labels) w'.text := by
  rcases wrapFirstCall_cases hrun with ⟨htr, rfl⟩ | ⟨hno, indent, ls, semi, hb, htext, -⟩
  · exact h.also hl htr
  rw [htext]
  have hparts := bracketed_parts label indent (w.text.take ls) (slice w.text ls (semi + 1))
    (w.text.drop (semi + 1).toNat)
  refine ⟨?_, List.forall_mem_cons.mpr ⟨⟨hl, ?_⟩, ?_⟩⟩
  · obtain ⟨x, hx, hfound⟩ := hsteady hno ls semi hb.places
    obtain ⟨p, q, hpq⟩ := hparts x hx
    rw [hpq]
    exact found_append driver_plain hfound p q
  · rw [bracketed, List.append_assoc (w.text.take ls), List.append_assoc _ ('\n' :: _)]
    exact traced_guarded _ _ _ _
  · intro l hmem
    obtain ⟨hstep, htr⟩ := h.labels l hmem
    obtain ⟨hsemi, hline⟩ := driverLabels_inline l hstep
    obtain ⟨x, hx, hocc⟩ := piece_of hb hsemi hline htr
    obtain ⟨p, q, hpq⟩ := hparts x hx
    refine ⟨hstep, ?_⟩
    rw [hpq]
    exact occurs_append hocc p q

/-- The places that VirtualTap.cpp's edits go by, each in the text before its edit. -/
structure VirtualTapSteady (s : Text) : Prop where
  wrap : ∀ w, enter driverPattern "ERROR: zts_main_lwip_driver_loop() definition not found" four
    "DRIVER: ENTER" ⟨s, []⟩ = .ok w →
    WrapSteady (text "sys_sem_new") "SEM_NEW" w.text ∧
      ∀ w', wrapFirstCall (text "sys_sem_new") "SEM_NEW" w = .ok w' →
        WrapSteady (text "tcpip_init") "TCPIP_INIT" w'.text ∧
          ∀ w'', wrapFirstCall (text "tcpip_init") "TCPIP_INIT" w' = .ok w'' →
            WrapSteady (text "sys_sem_wait") "SEM_WAIT" w''.text

theorem virtualTap_driver (hrun : virtualTap s = .ok w) (h : VirtualTapSteady s) :
    Driver driverLabels.reverse w.text := by
  unfold virtualTap at hrun
  obtain ⟨w₁, henter, hrun⟩ := bind_ok.mp hrun
  obtain ⟨w₂, hnew, hrun⟩ := bind_ok.mp hrun
  obtain ⟨w₃, hinit, hrun⟩ := bind_ok.mp hrun
  obtain ⟨hsteady, hrest⟩ := h.wrap w₁ henter
  obtain ⟨hsteady₂, hrest₂⟩ := hrest w₂ hnew
  have hnewed := wrap_driver (enter_driver henter) (by decide) hnew hsteady
  have hinited := wrap_driver hnewed (by decide) hinit hsteady₂
  exact wrap_driver hinited (by decide) hrun (hrest₂ w₃ hinit)

/-- A found head is where a function begins. -/
theorem enter_idle {pat : Pattern} {missing : String} (hfound : (search pat w.text).isSome = true)
    (htr : traced label w.text = true) : enter pat missing indent label w = .ok w := by
  obtain ⟨⟨b, segs, a⟩, hs⟩ := Option.isSome_iff_exists.mp hfound
  rw [enter, upTo, hs, Option.map_some]
  exact if_pos htr

/-- After a run on VirtualTap.cpp another leaves it as it is. -/
theorem virtualTap_rerun (hrun : virtualTap s = .ok w) (h : VirtualTapSteady s) :
    virtualTap w.text = .ok ⟨w.text, []⟩ ∧ occurs driver w.text = true := by
  have hdriver := virtualTap_driver hrun h
  have htraced : ∀ l ∈ driverLabels, traced l w.text = true :=
    fun l hl => (hdriver.labels l (List.mem_reverse.mpr hl)).2
  have hwrap {fnName : Text} {label : String} (hl : "DRIVER: BEFORE_" ++ label ∈ driverLabels) :
      wrapFirstCall fnName label ⟨w.text, []⟩ = .ok ⟨w.text, []⟩ := by
    rw [wrapFirstCall, if_pos (htraced _ hl)]
  constructor
  · rw [virtualTap]
    refine bind_ok.mpr ⟨_, enter_idle hdriver.head (htraced _ (by decide)), ?_⟩
    refine bind_ok.mpr ⟨_, hwrap (by decide), bind_ok.mpr ⟨_, hwrap (by decide), ?_⟩⟩
    exact hwrap (by decide)
  · obtain ⟨b, m, a, htext, hm⟩ := (found_iff driver_plain).mp hdriver.head
    rw [htext]
    exact occurs_append (driver_has.hit hm) b a

end

def optHeader : Text := text "#include \"lwip/opt.h\""
def doneTest : Text := text "if (tcpip_init_done != NULL)"

def tcpipNames : List String := ["tcpip_thread", "tcpip_init"]

def tcpipLabels : List String := ["TCPIP: THREAD_ENTER", "TCPIP: INIT_ENTER",
  "TCPIP: BEFORE_DONE", "TCPIP: AFTER_DONE"]

theorem void_has (name : String) : Has (text name) (voidPattern name) := by
  refine List.forall_mem_cons.mpr ⟨?_, List.forall_mem_singleton.mpr ?_⟩
  · refine ⟨lits "static" ++ ws1 ++ (lits "void" ++ ws1), parametersAndBrace, ?_⟩
    rw [List.append_assoc, List.append_assoc, List.append_assoc, List.append_assoc]
    rfl
  · exact ⟨lits "void" ++ ws1, parametersAndBrace, rfl⟩

theorem void_spec : ∀ name ∈ tcpipNames, Plainly (voidPattern name) ∧
    Closed '\x7b' (voidPattern name) ∧
    ∀ is ∈ voidPattern name, ∀ i ∈ is, Item.takes i ';' = false := by
  have hplain : ∀ name ∈ tcpipNames, ∀ is ∈ voidPattern name, ∀ i ∈ is, Item.plain i = true := by
    decide
  have hends : ∀ name ∈ tcpipNames, ∀ is ∈ voidPattern name,
      is.getLast?.any (Item.is '\x7b') = true ∧ ∀ i ∈ is.dropLast, Item.takes i '\x7b' = false := by
    decide
  have hsemi : ∀ name ∈ tcpipNames, ∀ is ∈ voidPattern name, ∀ i ∈ is,
      Item.takes i ';' = false := by
    decide
  exact fun name hname => ⟨hplain name hname, .of_all (hends name hname), hsemi name hname⟩

/-- What a later run looks for in tcpip.c, apart from the functions' heads. -/
def Lasting (l : Text) : Prop := '\x7b' ∉ l ∧ ';' ∉ l ∧ apart l doneTest = true

theorem tcpip_lasting : (∀ l ∈ tcpipLabels, Lasting (diagLabel l)) ∧ Lasting switchHeader ∧
    Lasting (text "sys_thread_new") := by
  unfold Lasting
  decide

theorem Lasting.whole {l p q : Text} (hl : Lasting l) (h : Ended p ∨ doneTest <+: q) :
    Whole l p q := by
  obtain ⟨hbrace, hsemi, hdone⟩ := hl
  rcases h with (hp | hp) | hq
  · exact .of_last hp hbrace q
  · exact .of_last hp hsemi q
  · exact .of_ahead hq (.of_apart hdone)

def doneProbe : Text := guarded switch (diag four "TCPIP: BEFORE_DONE") ++ '\n' :: four

theorem worker_apart : ∀ x ∈ [probe two "TCPIP: THREAD_ENTER", probe two "TCPIP: INIT_ENTER",
    doneProbe, probe four "TCPIP: AFTER_DONE"], apart optHeader x = true := by
  have hall : ([probe two "TCPIP: THREAD_ENTER", probe two "TCPIP: INIT_ENTER", doneProbe,
      probe four "TCPIP: AFTER_DONE"].all (apart optHeader ·)) = true := by decide +kernel
  exact List.all_eq_true.mp hall

/-- What of tcpip.c a second run goes by. -/
structure Tcpip (names labels : List String) (s : Text) : Prop where
  included : occurs switchHeader s = true ∨ occurs optHeader s = false
  created : occurs (text "sys_thread_new") s = true
  heads : ∀ name ∈ names, name ∈ tcpipNames ∧ (search (voidPattern name) s).isSome = true
  labels : ∀ l ∈ labels, l ∈ tcpipLabels ∧ traced l s = true

section
variable {names labels : List String} {s x p q : Text} {w w' : Work}

theorem Tcpip.also (h : Tcpip names labels s) {l : String} (hl : l ∈ tcpipLabels)
    (htr : traced l s = true) : Tcpip names (l :: labels) s :=
  ⟨h.included, h.created, h.heads, List.forall_mem_cons.mpr ⟨⟨hl, htr⟩, h.labels⟩⟩

theorem Tcpip.named (h : Tcpip names labels s) {name : String} (hn : name ∈ tcpipNames)
    (hfound : (search (voidPattern name) s).isSome = true) : Tcpip (name :: names) labels s :=
  ⟨h.included, h.created, List.forall_mem_cons.mpr ⟨⟨hn, hfound⟩, h.heads⟩, h.labels⟩

theorem Tcpip.grow (h : Tcpip names labels (p ++ q)) (hplace : Ended p ∨ doneTest <+: q)
    (hx : apart optHeader x = true)
    (hheads : ∀ name ∈ names, (search (voidPattern name) (p ++ x ++ q)).isSome = true) :
    Tcpip names labels (p ++ x ++ q) := by
  obtain ⟨hlabels, hheader, hcreated⟩ := tcpip_lasting
  refine ⟨?_, (hcreated.whole hplace).occurs h.created x, ?_, ?_⟩
  · rcases h.included with hin | hno
    · exact .inl ((hheader.whole hplace).occurs hin x)
    · exact .inr ((Apart.of_apart hx).absent hno)
  · intro name hmem
    exact ⟨(h.heads name hmem).1, hheads name hmem⟩
  · intro l hmem
    obtain ⟨hstep, htr⟩ := h.labels l hmem
    exact ⟨hstep, ((hlabels l hstep).whole hplace).occurs htr x⟩

/-- Behind a brace or a semicolon no head is in the way. -/
theorem Tcpip.put (h : Tcpip names labels (p ++ q)) (hp : Ended p) (hx : apart optHeader x = true) :
    Tcpip names labels (p ++ x ++ q) := by
  refine h.grow (.inl hp) hx ?_
  intro name hmem
  obtain ⟨hname, hfound⟩ := h.heads name hmem
  obtain ⟨hplain, hclosed, hnone⟩ := void_spec name hname
  rcases hp with hp | hp
  · exact hclosed.found hplain hp (.inl rfl) hfound x
  · exact hclosed.found hplain hp (.inr hnone) hfound x

theorem include_tcpip (hs : occurs (text "sys_thread_new") w.text = true) :
    Tcpip [] [] (includeSwitch optHeader w).text := by
  rcases includeSwitch_cases optHeader w with ⟨he, hin | hno⟩ | ⟨-, a, b, hcut, he⟩
  · rw [he]
    exact ⟨.inl hin, hs, by simp, by simp⟩
  · rw [he]
    exact ⟨.inr (by rw [occurs, hno]; rfl), hs, by simp, by simp⟩
  · have htext : (includeSwitch optHeader w).text = a ++ optHeader ++ included ++ b := by
      rw [he]
      simp [Work.put, Insertion.new, included]
    have hlast : (a ++ optHeader).getLast? = some '"' := by
      rw [List.getLast?_append_of_ne_nil _ (by decide)]
      rfl
    rw [cut_eq hcut] at hs
    rw [htext]
    refine ⟨.inl ?_, (Whole.of_last hlast (by decide) b).occurs hs included, by simp, by simp⟩
    exact occurs_append (by decide) (a ++ optHeader) b

theorem enter_tcpip {name label missing : String} (h : Tcpip names labels w.text)
    (hname : name ∈ tcpipNames) (hlabel : label ∈ tcpipLabels)
    (hin : occurs (diagLabel label) (probe two label) = true)
    (hout : apart optHeader (probe two label) = true)
    (hrun : enter (voidPattern name) missing two label w = .ok w') :
    Tcpip (name :: names) (label :: labels) w'.text := by
  obtain ⟨hplain, hclosed, -⟩ := void_spec name hname
  obtain ⟨head, tail, hup, hcases⟩ := enter_cases hrun
  obtain ⟨b, m, rfl, hfirst⟩ := upTo_first hplain hup
  rcases hcases with ⟨htr, rfl⟩ | ⟨-, rfl⟩
  · have hfound := (found_iff hplain).mpr ⟨b, m, tail, hfirst.text, hfirst.hit⟩
    exact (h.also hlabel htr).named hname hfound
  · obtain ⟨m₀, hm, -⟩ := hclosed.hit hfirst.hit
    have hended : Ended (b ++ m) := by
      left
      rw [hm, ← List.append_assoc]
      exact List.getLast?_concat
    rw [put_behind]
    rw [hfirst.text] at h
    refine ((h.put hended hout).also hlabel ?_).named hname ?_
    · exact occurs_append hin (b ++ m) tail
    · refine (found_iff hplain).mpr ⟨b, m, probe two label ++ tail, ?_, hfirst.hit⟩
      rw [List.append_assoc]

/-- The probe before the test leaves the heads of both functions whole. -/
def DoneSteady (s : Text) : Prop :=
  traced "TCPIP: BEFORE_DONE" s = false → ∀ i,
    find doneTest s (find (text "tcpip_thread(") s 0) = i → ∀ name ∈ tcpipNames,
      Unbroken (voidPattern name) [s.take i.toNat, s.drop i.toNat]

theorem before_tcpip (h : Tcpip names labels w.text) (hrun : beforeDone w = .ok w')
    (hsteady : DoneSteady w.text) : Tcpip names ("TCPIP: BEFORE_DONE" :: labels) w'.text := by
  rcases beforeDone_cases hrun with ⟨htr, rfl⟩ | ⟨hno, i, hi, hfind, rfl⟩
  · exact h.also (by decide) htr
  obtain ⟨u, v, hs, rfl, -⟩ := find_take (by decide) hfind hi
  have hbroken := hsteady hno u.length hfind
  have htext : (w.put (.before (w.text.take (u.length : Int).toNat) (diag four "TCPIP: BEFORE_DONE")
      four (w.text.drop (u.length : Int).toNat))).text = u ++ doneProbe ++ (doneTest ++ v) := by
    rw [hs]
    simp [Work.put, Insertion.new, doneProbe, doneTest]
  rw [htext]
  rw [hs, List.append_assoc] at h hbroken
  refine (h.grow (.inr (List.prefix_append _ v)) (worker_apart _ (by simp)) ?_).also (by decide) ?_
  · intro name hmem
    have hname := (h.heads name hmem).1
    obtain ⟨hplain, -⟩ := void_spec name hname
    obtain ⟨x, hx, hfound⟩ := hbroken name hname
    rw [Int.toNat_natCast, List.take_left, List.drop_left] at hx
    rcases List.mem_pair.mp hx with rfl | rfl
    · have happ := found_append hplain hfound [] (doneProbe ++ (doneTest ++ v))
      rwa [List.nil_append, ← List.append_assoc] at happ
    · have happ := found_append hplain hfound (u ++ doneProbe) []
      rwa [List.append_nil] at happ
  · exact occurs_append (by decide) u (doneTest ++ v)

theorem after_tcpip (h : Tcpip names labels w.text) (hrun : afterDone w = .ok w') :
    Tcpip names ("TCPIP: AFTER_DONE" :: labels) w'.text := by
  rcases afterDone_cases hrun with ⟨htr, rfl⟩ | ⟨-, start, semi, hsemi, hfind, rfl⟩
  · exact h.also (by decide) htr
  · have hlast := (semi_take hfind hsemi).1
    rw [put_behind]
    rw [← List.take_append_drop (semi + 1).toNat w.text] at h
    refine (h.put (.inr hlast) (worker_apart _ (by simp))).also (by decide) ?_
    exact occurs_append (by decide) _ _

/-- The place before the test, in the text before that edit. -/
def TcpipSteady (path : Path) (s : Text) : Prop :=
  ∀ w, enter (voidPattern "tcpip_thread")
    s!"ERROR: tcpip_thread() definition not found in {shown path}" two "TCPIP: THREAD_ENTER"
    (includeSwitch optHeader ⟨s, []⟩) = .ok w → ∀ w', enter (voidPattern "tcpip_init")
    s!"ERROR: tcpip_init() definition not found in {shown path}" two "TCPIP: INIT_ENTER" w =
      .ok w' → DoneSteady w'.text

theorem tcpip_worker {path : Path} (hrun : tcpip path s = .ok w)
    (hs : occurs (text "sys_thread_new") s = true) (h : TcpipSteady path s) :
    Tcpip tcpipNames.reverse tcpipLabels.reverse w.text := by
  unfold tcpip at hrun
  obtain ⟨w₁, hthread, hrun⟩ := bind_ok.mp hrun
  obtain ⟨w₂, hinit, hrun⟩ := bind_ok.mp hrun
  obtain ⟨w₃, hbefore, hrun⟩ := bind_ok.mp hrun
  have hincluded := include_tcpip (w := ⟨s, []⟩) hs
  have hthreaded := enter_tcpip hincluded (by decide) (by decide) (by decide)
    (worker_apart _ (by simp)) hthread
  have hinited := enter_tcpip hthreaded (by decide) (by decide) (by decide)
    (worker_apart _ (by simp)) hinit
  exact after_tcpip (before_tcpip hinited hbefore (h w₁ hthread w₂ hinit)) hrun

/-- After a run on tcpip.c another leaves it as it is. -/
theorem tcpip_rerun {path : Path} (hrun : tcpip path s = .ok w)
    (hs : occurs (text "sys_thread_new") s = true) (h : TcpipSteady path s) :
    (∀ path', tcpip path' w.text = .ok ⟨w.text, []⟩) ∧
      ∀ word ∈ [text "tcpip_thread", text "tcpip_init", text "sys_thread_new"],
        occurs word w.text = true := by
  have hworker := tcpip_worker hrun hs h
  have htraced : ∀ l ∈ tcpipLabels, traced l w.text = true :=
    fun l hl => (hworker.labels l (List.mem_reverse.mpr hl)).2
  have hfound : ∀ name ∈ tcpipNames, (search (voidPattern name) w.text).isSome = true :=
    fun name hname => (hworker.heads name (List.mem_reverse.mpr hname)).2
  have hword : ∀ name ∈ tcpipNames, occurs (text name) w.text = true := by
    intro name hname
    obtain ⟨hplain, -⟩ := void_spec name hname
    obtain ⟨b, m, a, htext, hm⟩ := (found_iff hplain).mp (hfound name hname)
    rw [htext]
    exact occurs_append ((void_has name).hit hm) b a
  constructor
  · intro path'
    have hinclude : includeSwitch optHeader ⟨w.text, []⟩ = ⟨w.text, []⟩ := by
      rcases includeSwitch_cases optHeader ⟨w.text, []⟩ with ⟨he, -⟩ | ⟨hno, a, b, hcut, -⟩
      · exact he
      · rcases hworker.included with hin | hout
        · rw [hno] at hin
          cases hin
        · rw [occurs, hcut] at hout
          cases hout
    rw [tcpip, show text "#include \"lwip/opt.h\"" = optHeader from rfl, hinclude]
    refine bind_ok.mpr ⟨_, enter_idle (hfound _ (by decide)) (htraced _ (by decide)), ?_⟩
    refine bind_ok.mpr ⟨_, enter_idle (hfound _ (by decide)) (htraced _ (by decide)), ?_⟩
    refine bind_ok.mpr ⟨⟨w.text, []⟩, ?_, ?_⟩
    · rw [beforeDone, if_pos (htraced _ (by decide))]
    · rw [afterDone, if_pos (htraced _ (by decide))]
  · refine List.forall_mem_cons.mpr ⟨hword _ (by decide), List.forall_mem_cons.mpr
      ⟨hword _ (by decide), List.forall_mem_singleton.mpr hworker.created⟩⟩

end

end SwitchLdnZt.Proofs.StartupRerun
