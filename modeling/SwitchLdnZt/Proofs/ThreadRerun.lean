import SwitchLdnZt.Proofs.ThreadState

namespace SwitchLdnZt.Proofs.ThreadRerun
open Library Preprocess Scripts LwipThread FunctionSpan ThreadCall HelperSite ThreadState

def introLine : Text := text "static struct sys_thread *\n"

/-- The helper with its two probes as well. -/
def probed (f : Text) : Text :=
  introHead ++ (introProbeText ++ (f ++ (slotTarget ++ (slotProbe ++ slotBehind))))

/-- Where the script's two searches in the helper end. -/
theorem front_cuts : ∀ f ∈ fronts,
    cut introMarker (dressed f) = some (introLine, f ++ (slotTarget ++ slotBehind)) ∧
    overlaps introMarker (dressed f) = false ∧
    cut slotTarget (introHead ++ (introProbeText ++ (f ++ (slotTarget ++ slotBehind)))) =
      some (introHead ++ (introProbeText ++ f), slotBehind) ∧
    overlaps slotTarget (introHead ++ (introProbeText ++ (f ++ (slotTarget ++ slotBehind)))) =
      false := by
  rw [fronts, List.forall_mem_cons, List.forall_mem_cons, List.forall_mem_singleton]
  decide +kernel

section
variable {labels : List String} {a b e f : Text} {i : Nat} {w w' : Work}

/-- Both probes go into the helper where nothing above it looks like their places. -/
theorem introProbe_within (hf : f ∈ fronts) (hw : w.text = a ++ dressed f ++ b)
    (hlabel : has (diagLabel "INTRO: ENTER") a b = false) (hmarker : occurs introMarker a = false)
    (htarget : occurs slotTarget a = false) :
    ∃ w', introProbe w = .ok w' ∧ w'.text = a ++ probed f ++ b := by
  obtain ⟨hcut, hover, hcut', hover'⟩ := front_cuts f hf
  have hno : traced "INTRO: ENTER" w.text = false := by
    rw [← hlabel, ← occurs_around ((fronts_spec f hf).2.2 _ (by decide)), ← hw]
    rfl
  have hfirst := cut_within hmarker hcut hover b
  rw [← hw] at hfirst
  have htext : (introEnter (a ++ introLine) (f ++ (slotTarget ++ slotBehind) ++ b) w).text =
      a ++ (introHead ++ (introProbeText ++ (f ++ (slotTarget ++ slotBehind)))) ++ b := by
    have hhead : introHead = introLine ++ introMarker := by decide
    rw [introEnter, put_behind, hhead]
    simp [introProbeText]
  have hsecond := cut_within htarget hcut' hover' b
  rw [← htext] at hsecond
  refine ⟨slotOk (a ++ (introHead ++ (introProbeText ++ f))) (slotBehind ++ b)
    (introEnter (a ++ introLine) (f ++ (slotTarget ++ slotBehind) ++ b) w), ?_, ?_⟩
  · rw [introProbe, if_neg (by simp [hno]), hfirst]
    dsimp only
    rw [introEnter] at hsecond
    rw [hsecond]
    rfl
  · simp [slotOk, Work.put, Insertion.new, probed, slotProbe]

/-- The helper's probes go to the same side of its beginning, and above it the first does
not sever the call of `pthread_create`. -/
def IntroSteady (p : Path) (w : Work) : Prop :=
  traced "INTRO: ENTER" w.text = false → ∀ a b, introSite p w.text = .ok (a, b) →
    occurs introMarker a = occurs slotTarget a ∧
      ∀ u v, cut introMarker a = some (u, v) → severs (kept p w.text) (u ++ introMarker) = false

/-- What a second run finds of the helper's probes. -/
inductive Helped (labels : List String) (a b f : Text) : Text → Prop
  | around : "INTRO: ENTER" ∈ labels → Helped labels a b f (dressed f)
  | within : has (diagLabel "INTRO: ENTER") a b = false → occurs introMarker a = false →
    occurs slotTarget a = false → Helped labels a b f (probed f)

/-- Both probes go into the text above the helper. -/
theorem intro_above (h : State labels e i a b) (hm : Marked labels a b e f)
    (hw : w.text = a ++ dressed f ++ b) (hno : traced "INTRO: ENTER" w.text = false)
    (hrun : introProbe w = .ok w') (hmarker : occurs introMarker a = true)
    (htarget : occurs slotTarget a = true)
    (hsev : ∀ u v, cut introMarker a = some (u, v) →
      severs (has createdLabel a b) (u ++ introMarker) = false) :
    ∃ labels' a' j, w'.text = a' ++ dressed f ++ b ∧ State labels' e j a' b ∧
      Marked labels' a' b e f ∧ (∀ l ∈ labels, l ∈ labels') ∧ "INTRO: ENTER" ∈ labels' := by
  obtain ⟨⟨u, q⟩, hcut⟩ := Option.isSome_iff_exists.mp hmarker
  have ha := cut_eq hcut
  have hwhole := cut_append_right hcut (dressed f ++ b)
  rw [← List.append_assoc, ← hw] at hwhole
  rcases introProbe_cases hrun with ⟨htr, -⟩ | ⟨-, u', v', w₁, hcut', rfl, hslot⟩
  · rw [hno] at htr
    cases htr
  rw [hwhole] at hcut'
  cases hcut'
  have hlast : (u ++ introMarker).getLast? = some '\x7b' := by
    rw [List.getLast?_append_of_ne_nil _ (by decide)]
    rfl
  have hfree := hsev u q hcut
  rw [ha] at h hm hfree
  obtain ⟨j, hstate, hmarked⟩ := h.above hm (probes_fit introProbeText (by simp))
    (probes_created _ (by simp)) (.inl hlast) (fun hsevered => by
      rw [hsevered.severs] at hfree
      cases hfree)
  have hgrown : State ("INTRO: ENTER" :: labels) e j (u ++ introMarker ++ introProbeText ++ q) b :=
    hstate.also (by decide) (Place.gets (.above (u ++ introMarker) q b) (by decide))
  have htext : (introEnter u (q ++ (dressed f ++ b)) w).text =
      u ++ introMarker ++ introProbeText ++ q ++ (dressed f ++ b) := by
    rw [introEnter, put_behind]
    simp [introProbeText]
  -- the place of the second is still above the helper
  rw [ha] at htarget
  have hstill := (Whole.of_last hlast (by decide) q).occurs htarget introProbeText
  obtain ⟨⟨c, r⟩, hcut₂⟩ := Option.isSome_iff_exists.mp hstill
  have ha₂ := cut_eq hcut₂
  have hwhole₂ := cut_append_right hcut₂ (dressed f ++ b)
  rw [← htext] at hwhole₂
  rcases hslot with ⟨c', d', hcut', rfl⟩ | ⟨hnone, -⟩
  · rw [hwhole₂] at hcut'
    cases hcut'
    have hlast₂ : (c ++ slotTarget).getLast? = some ';' := by
      rw [List.getLast?_append_of_ne_nil _ (by decide)]
      rfl
    have hmarked₂ := hmarked.also "INTRO: ENTER"
    rw [ha₂] at hgrown hmarked₂
    obtain ⟨j₂, hgrown₂, hmarked₃⟩ := hgrown.above hmarked₂ (probes_fit slotProbe (by simp))
      (probes_created _ (by simp)) (.inr hlast₂) (fun hsevered => hsevered.last hlast₂)
    refine ⟨_, c ++ slotTarget ++ slotProbe ++ r, j₂, ?_, hgrown₂, hmarked₃,
      fun l hl => List.mem_cons_of_mem _ hl, List.mem_cons_self⟩
    simp [slotOk, Work.put, Insertion.new, slotProbe]
  · rw [hwhole₂] at hnone
    cases hnone

theorem intro_state {p : Path} (h : State labels e i a b) (hm : Marked labels a b e f)
    (hw : w.text = a ++ dressed f ++ b) (hrun : introProbe w = .ok w')
    (hsteady : IntroSteady p w) :
    ∃ labels' a' b' j z, w'.text = a' ++ z ++ b' ∧ State labels' e j a' b' ∧
      Marked labels' a' b' e f ∧ (∀ l ∈ labels, l ∈ labels') ∧ Helped labels' a' b' f z := by
  obtain ⟨hbody, -, hapart⟩ := fronts_spec f (hm.mem h.entry.mem)
  have hlabel : traced "INTRO: ENTER" w.text = has (diagLabel "INTRO: ENTER") a b := by
    rw [← occurs_around (hapart "INTRO: ENTER" (by decide)), ← hw]
    rfl
  by_cases hin : has (diagLabel "INTRO: ENTER") a b = true
  · rcases introProbe_cases hrun with ⟨-, rfl⟩ | ⟨hno, -⟩
    · exact ⟨_, a, b, i, dressed f, hw, h.also (by decide) hin, hm.also _,
        fun l hl => List.mem_cons_of_mem _ hl, .around List.mem_cons_self⟩
    · rw [hlabel, hin] at hno
      cases hno
  have hlacks := Bool.eq_false_iff.mpr hin
  have hno := hlabel.trans hlacks
  have hsite : introSite p w.text = .ok (a, b) := by
    rw [hw]
    exact h.base.ahead.site hbody b p
  have hkept : kept p w.text = has createdLabel a b := by rw [kept, hsite]
  obtain ⟨hsame, hsev⟩ := hsteady hno a b hsite
  rw [hkept] at hsev
  by_cases hmarker : occurs introMarker a = true
  · obtain ⟨labels', a', j, htext, hstate, hmarked, hmore, hmem⟩ :=
      intro_above h hm hw hno hrun hmarker (hsame ▸ hmarker) hsev
    exact ⟨labels', a', b, j, dressed f, htext, hstate, hmarked, hmore, .around hmem⟩
  · have hmarker := Bool.eq_false_iff.mpr hmarker
    have htarget : occurs slotTarget a = false := by rw [← hsame, hmarker]
    obtain ⟨w₂, hrun₂, htext⟩ := introProbe_within (hm.mem h.entry.mem) hw hlacks hmarker htarget
    rw [hrun] at hrun₂
    cases hrun₂
    exact ⟨labels, a, b, i, probed f, htext, h, hm, fun _ h => h,
      .within hlacks hmarker htarget⟩

def helpers : List Text := fronts.map dressed ++ fronts.map probed

theorem Helped.mem {z : Text} (h : Helped labels a b f z) (hf : f ∈ fronts) : z ∈ helpers := by
  cases h with
  | around => exact List.mem_append_left _ (List.mem_map_of_mem hf)
  | within => exact List.mem_append_right _ (List.mem_map_of_mem hf)

/-- Whichever helper it is. -/
theorem helpers_spec : ∀ z ∈ helpers,
    apart (diagLabel "thread_wrapper: child thread alive") z = true ∧
      apart (text "thread_wrapper") z = true ∧ introHead ++ z.drop introHead.length = z ∧
      IsBody (z.drop introHead.length) := by
  unfold IsBody helpers fronts
  simp only [List.map_cons, List.map_nil, List.cons_append, List.nil_append, List.forall_mem_cons,
    List.not_mem_nil, false_implies, implies_true, and_true]
  decide +kernel

theorem wrapper_plain : Plainly wrapperPattern := by unfold Plainly; decide

theorem wrapper_closed : Closed '\x7b' wrapperPattern := .of_all (by decide)

theorem wrapper_begins : Begins [text "thread_wrapper"] wrapperPattern :=
  List.forall_mem_singleton.mpr ⟨_, List.mem_cons_self, _, rfl⟩

/-- The helper's probes do not join a call with its semicolon. -/
theorem severed_probed {kept : Bool} {site : Place} (h : Severed kept (site.front (dressed f))) :
    Severed kept (site.front (probed f)) := by
  cases site with
  | above p q b => exact h
  | below a p q =>
    have hparts : a ++ dressed f ++ p = (a ++ introHead) ++ (f ++ (slotTarget ++ (slotBehind ++ p)))
        := by simp [dressed]
    rw [Place.front, hparts] at h
    have hhead : (a ++ introHead).getLast? = some '\x7b' := by
      rw [List.getLast?_append_of_ne_nil _ (by decide)]
      rfl
    have hsemi : ';' ∈ f ++ (slotTarget ++ (slotBehind ++ p)) :=
      List.mem_append_right f (List.mem_append_left _ (by decide))
    have henter := h.put ⟨(probes_fit introProbeText (by simp)).quiet, .inl (.inl hhead)⟩
      (.inl (.inl hhead)) (.inl hsemi)
    have hparts' : a ++ introHead ++ introProbeText ++ (f ++ (slotTarget ++ (slotBehind ++ p))) =
        (a ++ introHead ++ introProbeText ++ f ++ slotTarget) ++ (slotBehind ++ p) := by
      simp
    rw [hparts'] at henter
    have htarget : (a ++ introHead ++ introProbeText ++ f ++ slotTarget).getLast? = some ';' := by
      rw [List.getLast?_append_of_ne_nil _ (by decide)]
      rfl
    have hslot := henter.put ⟨(probes_fit slotProbe (by simp)).quiet, .inl (.inr htarget)⟩
      (.inl (.inr htarget)) (.inl (List.mem_append_left _ (by decide)))
    simpa [Place.front, probed] using hslot

theorem Helped.severed {z : Text} {kept : Bool} {site : Place} (h : Helped labels a b f z)
    (hs : Severed kept (site.front (dressed f))) : Severed kept (site.front z) := by
  cases h with
  | around => exact hs
  | within => exact severed_probed hs

theorem wrapperText_apart : ∀ l ∈ [diagLabel "INTRO: ENTER", introMarker, slotTarget],
    Apart l wrapperText := by
  have hall : ([diagLabel "INTRO: ENTER", introMarker, slotTarget].all
      (apart · wrapperText)) = true := by decide +kernel
  intro l hl
  exact .of_apart (List.all_eq_true.mp hall l hl)

/-- The probe of `thread_wrapper` does not sever the call of `pthread_create`. -/
def WrapperSteady (p : Path) (w : Work) : Prop :=
  traced "thread_wrapper: child thread alive" w.text = false → ∀ head tail,
    upTo wrapperPattern w.text = some (head, tail) → severs (kept p w.text) head = false

theorem wrapper_state {p : Path} {z : Text} (h : State labels e i a b)
    (hm : Marked labels a b e f) (hz : Helped labels a b f z) (hw : w.text = a ++ z ++ b)
    (hrun : wrapperProbe w = .ok w') (hsteady : WrapperSteady p w) :
    ∃ labels' a' b' j, w'.text = a' ++ z ++ b' ∧ State labels' e j a' b' ∧
      Marked labels' a' b' e f ∧ (∀ l ∈ labels, l ∈ labels') ∧ Helped labels' a' b' f z ∧
      has (diagLabel "thread_wrapper: child thread alive") a' b' = true := by
  obtain ⟨hlabel, hword, hhead, hbody⟩ := helpers_spec z (hz.mem (hm.mem h.entry.mem))
  rcases wrapperProbe_cases hrun with ⟨htr, rfl⟩ | ⟨hno, head, tail, hup, rfl⟩
  · refine ⟨labels, a, b, i, hw, h, hm, fun _ hl => hl, hz, ?_⟩
    rw [← occurs_around hlabel, ← hw]
    exact htr
  have hsev := hsteady hno head tail hup
  rw [hw, ← hhead, kept_around h.base.ahead hbody] at hsev
  obtain ⟨u, m, rfl, hfirst⟩ := upTo_first wrapper_plain hup
  have htext := hfirst.text
  obtain ⟨m₀, hm₀, -⟩ := wrapper_closed.hit hfirst.hit
  have hlast : (u ++ m).getLast? = some '\x7b' := by
    rw [hm₀, ← List.append_assoc]
    exact List.getLast?_concat
  rw [hw] at htext
  obtain ⟨word, hmem, hpre⟩ := wrapper_begins.hit hfirst.hit
  obtain rfl := List.mem_singleton.mp hmem
  have hout := hit_outside htext hpre (not_mem_hit (by decide) hfirst.hit) (.of_apart hword)
    ⟨_, hhead⟩
  obtain ⟨site, rfl, rfl, hfront, hback⟩ := place_of htext hout
  have hended : Ended site.p := by
    apply site.ended hbody
    rw [hhead, hfront]
    exact .inl hlast
  have hwhole : ¬ Severed (has createdLabel (site.top []) (site.bottom []))
      (site.front (dressed f)) := by
    intro hs
    have hyes := (hz.severed hs).severs
    rw [hfront, hsev] at hyes
    cases hyes
  obtain ⟨j, hgrown, hmarked⟩ := h.put hm (probes_fit wrapperText (by simp))
    (probes_created _ (by simp)) (.inl hended) hwhole
  refine ⟨labels, _, _, j, ?_, hgrown, hmarked, fun _ hl => hl, ?_, site.gets (by decide)⟩
  · rw [put_behind, site.text, hfront, hback]
    rfl
  · cases hz with
    | around hin => exact .around hin
    | within hintro hmarker htarget =>
      refine .within (site.lacks (wrapperText_apart _ (by simp)) hintro) ?_ ?_
      · exact site.top_lacks (wrapperText_apart _ (by simp)) hmarker
      · exact site.top_lacks (wrapperText_apart _ (by simp)) htarget

theorem occurs_of_has {l : Text} (h : has l a b = true) (z : Text) :
    occurs l (a ++ z ++ b) = true := by
  rw [has, Bool.or_eq_true] at h
  rcases h with ha | hb
  · have hocc := occurs_append ha [] (z ++ b)
    rwa [List.nil_append, ← List.append_assoc] at hocc
  · have hocc := occurs_append hb (a ++ z) []
    rwa [List.append_nil] at hocc

theorem traced_around {l : String} {z : Text} (hw : w.text = a ++ z ++ b)
    (h : has (diagLabel l) a b = true) : traced l w.text = true := by
  rw [hw]
  exact occurs_of_has h z

theorem include_idle (h : Base labels a b) (hw : w.text = a ++ helper [] ++ b) :
    includeSwitch pthreadHeader w = w := by
  have hpthread : apart pthreadHeader (helper []) = true :=
    helper_plain [] (by simp) _ (by simp)
  rcases includeSwitch_cases pthreadHeader w with ⟨he, -⟩ | ⟨hno, u, v, hcut, -⟩
  · exact he
  have hhas : has pthreadHeader a b = true := by
    rw [← occurs_around hpthread, ← hw, occurs, hcut]
    rfl
  rcases h.included with hin | hout
  · rw [hw, occurs_of_has hin] at hno
    cases hno
  · rw [hhas] at hout
    cases hout

/-- The second run has the entry probe where the first put it. -/
theorem enter_again (h : State labels e i a b) (hw : w.text = a ++ helper [] ++ b)
    (missing : String) : ∃ w', enter threadNewPattern missing two "STN: ENTER" w = .ok w' ∧
      w'.text = a ++ helper e ++ b := by
  have hcreated := h.created
  cases h.entry with
  | around hmem =>
    obtain ⟨u, m, pre, k, args, gap, z, htext, hcall, -⟩ := hcreated
    have hup := first_upTo threadNew_plain threadNew_closed hcall.header
    rw [← htext, ← hw] at hup
    have htr := traced_around hw (h.base.labels _ hmem).2
    refine ⟨w, ?_, hw⟩
    rw [enter, hup]
    exact if_pos htr
  | within hno hhead =>
    obtain ⟨u, m, hum, hfirst⟩ := hhead
    have hup := first_upTo threadNew_plain threadNew_closed
      (hfirst.behind threadNew_closed (introBody ++ b))
    have hsame : u ++ m ++ (introBody ++ b) = w.text := by
      rw [hum, hw]
      simp [helper]
    rw [hsame, hum] at hup
    have hlabel : apart (diagLabel "STN: ENTER") (helper []) = true :=
      List.all_eq_true.mp stepLabels_apart.1 _ (by decide)
    have htr : traced "STN: ENTER" w.text = false := by
      rw [← hno, ← occurs_around hlabel, ← hw]
      rfl
    refine ⟨w.put (.behind (a ++ introHead) (diag two "STN: ENTER") (introBody ++ b)), ?_, ?_⟩
    · rw [enter, hup]
      exact if_neg (by simp [htr])
    · rw [put_behind]
      simp [helper]

/-- And the one behind the call. -/
theorem afterCreate_again {semi : Int} (h : State labels e i a b) (hm : Marked labels a b e f)
    (hw : w.text = a ++ helper e ++ b) (hfix : fixStack w = .ok (w', i, semi)) :
    (afterCreate semi w).text = a ++ dressed f ++ b := by
  cases hm with
  | around hmem =>
    have htr := traced_around hw (h.base.labels _ hmem).2
    have hkeep : afterCreate semi w = w := if_pos htr
    rw [hkeep, hw, helper_dressed]
  | within he hno hopen =>
    subst he
    have hlabel := helper_apart h.entry.mem (l := "STN: AFTER_PTHREAD_CREATE") (by decide)
    refine after_within h hw hfix hopen ?_
    rw [← hno, createdLabel, ← occurs_around hlabel, ← hw]
    rfl

theorem introProbe_again {z : Text} (h : State labels e i a b) (hf : f ∈ fronts)
    (hz : Helped labels a b f z) (hw : w.text = a ++ dressed f ++ b) :
    ∃ w', introProbe w = .ok w' ∧ w'.text = a ++ z ++ b := by
  cases hz with
  | around hmem =>
    refine ⟨w, ?_, hw⟩
    rw [introProbe, if_pos (traced_around hw (h.base.labels _ hmem).2)]
  | within hno hmarker htarget => exact introProbe_within hf hw hno hmarker htarget

/-- A run on what a run has left. -/
theorem sysArch_again {z : Text} (h : State labels e i a b) (hm : Marked labels a b e f)
    (hz : Helped labels a b f z) (hbefore : "STN: BEFORE_INTRODUCE" ∈ labels) (p : Path) :
    ∃ w, sysArch p (a ++ z ++ b) = .ok w ∧ w.text = a ++ z ++ b := by
  have hf := hm.mem h.entry.mem
  obtain ⟨-, -, hhead, hbody⟩ := helpers_spec z (hz.mem hf)
  have hsite := h.base.ahead.site hbody b p
  rw [hhead] at hsite
  obtain ⟨w₁, henter, hw₁⟩ := enter_again (w := ⟨a ++ helper [] ++ b, []⟩) h rfl
    "ERROR: sys_thread_new() definition not found"
  have hcreated := h.created
  rw [← hw₁] at hcreated
  obtain ⟨semi, hfix⟩ := hcreated.fixStack w₁.log
  have hw₂ := afterCreate_again h hm hw₁ hfix
  have hintroduce := traced_around hw₂ (h.base.labels _ hbefore).2
  obtain ⟨w₃, hprobe, hw₃⟩ := introProbe_again h hf hz hw₂
  refine ⟨w₃, ?_, hw₃⟩
  have hinclude := include_idle (w := ⟨a ++ helper [] ++ b, []⟩) h.base rfl
  rw [helper_nil] at hinclude henter
  have haround : aroundIntroduce i (afterCreate semi w₁) = .ok (afterCreate semi w₁) :=
    if_pos hintroduce
  rw [sysArch, hsite]
  refine bind_ok.mpr ⟨_, rfl, ?_⟩
  dsimp only
  rw [show text "#include <pthread.h>" = pthreadHeader from rfl, hinclude]
  refine bind_ok.mpr ⟨_, henter, bind_ok.mpr ⟨_, hfix, ?_⟩⟩
  exact bind_ok.mpr ⟨_, haround, hprobe⟩

/-- The places that sys_arch.c's edits go by, each in the text before its edit. -/
structure SysArchSteady (p : Path) (s : Text) : Prop where
  fix : ∀ before after, introSite p s = .ok (before, after) → ∀ w, enter threadNewPattern
    "ERROR: sys_thread_new() definition not found" two "STN: ENTER"
    (includeSwitch pthreadHeader ⟨before ++ intro ++ after, []⟩) = .ok w →
    OwnLine w.text ∧ StatementClear p w.text ∧ ∀ w' pos semi, fixStack w = .ok (w', pos, semi) →
      AroundSteady p (afterCreate semi w') pos ∧
      ∀ w'', aroundIntroduce pos (afterCreate semi w') = .ok w'' → IntroSteady p w''

theorem sysArch_state {p : Path} {s : Text} (hrun : sysArch p s = .ok w)
    (h : SysArchSteady p s) : ∃ labels a b e i f z, w.text = a ++ z ++ b ∧
      State labels e i a b ∧ Marked labels a b e f ∧ Helped labels a b f z ∧
      "STN: BEFORE_INTRODUCE" ∈ labels := by
  unfold sysArch at hrun
  obtain ⟨⟨before, after⟩, hsite, hrun⟩ := bind_ok.mp hrun
  obtain ⟨w₁, henter, hrun⟩ := bind_ok.mp hrun
  obtain ⟨⟨w₂, pos, semi⟩, hfix, hrun⟩ := bind_ok.mp hrun
  obtain ⟨w₃, haround, hrun⟩ := bind_ok.mp hrun
  obtain ⟨hown, hclear, hrest⟩ := h.fix before after hsite w₁ henter
  obtain ⟨hsteady, hintro⟩ := hrest w₂ pos semi hfix
  obtain ⟨a₀, b₀, htext, hbase⟩ := include_base (b := after)
    (w := ⟨before ++ intro ++ after, []⟩) (ahead_of_site hsite) (by rw [helper_nil])
  obtain ⟨labels, a₁, b₁, e, hw₁, hbase₁, hentry⟩ := enter_entry hbase htext henter
  obtain ⟨a₂, b₂, i, hw₂, hstate, hpos, hagain⟩ :=
    fix_state hbase₁ hentry hw₁ hfix hown hclear
  obtain ⟨labels₃, a₃, b₃, f, hw₃, hstate₃, hmarked₃⟩ := after_state hstate hw₂ (hpos ▸ hagain)
  obtain ⟨labels₄, a₄, b₄, j, hw₄, hstate₄, hmarked₄, hmem⟩ :=
    around_state hstate₃ hmarked₃ hw₃ hpos haround hsteady
  obtain ⟨labels₅, a₅, b₅, k, z, hw₅, hstate₅, hmarked₅, hmore, hhelped⟩ :=
    intro_state hstate₄ hmarked₄ hw₄ hrun (hintro w₃ haround)
  exact ⟨labels₅, a₅, b₅, e, k, f, z, hw₅, hstate₅, hmarked₅, hhelped, hmore _ hmem⟩

theorem threadNew_has : Has (text "sys_thread_new") threadNewPattern :=
  List.forall_mem_singleton.mpr ⟨lits "sys_thread_t" ++ ws1, parametersAndBrace, rfl⟩

theorem create_has : Has (text "pthread_create") createPattern :=
  List.forall_mem_singleton.mpr ⟨[], _, by rw [List.nil_append]; rfl⟩

/-- The file is found again by its words. -/
theorem state_words (h : State labels e i a b) (z : Text) : ∀ word ∈ [text "sys_thread_new",
    text "pthread_create"], occurs word (a ++ z ++ b) = true := by
  obtain ⟨u, m, pre, k, args, gap, r, htext, hcall, -⟩ := h.created
  have hin : ∀ word ∈ [text "sys_thread_new", text "pthread_create"],
      occurs word (a ++ helper e ++ b) = true := by
    rw [htext]
    refine List.forall_mem_cons.mpr ⟨?_, List.forall_mem_singleton.mpr ?_⟩
    · exact occurs_append (threadNew_has.hit hcall.header.hit) u _
    · have hocc := occurs_append (create_has.hit hcall.call.hit) (u ++ m ++ pre)
        (args ++ (gap ++ ';' :: r))
      simpa using hocc
  intro word hword
  have hocc := hin word hword
  have hplain : apart word (helper e) = true := by
    apply helper_plain e h.entry.mem
    revert hword
    simp only [List.mem_cons, List.not_mem_nil, or_false]
    tauto
  rw [occurs_around hplain] at hocc
  exact occurs_of_has hocc z

/-- After its two edits, the second of which reads what the first has written, a run
on sys_arch.c leaves it as it is. -/
theorem sysArch_rerun {p : Path} {s : Text} {v : Work} (hrun : sysArch p s = .ok w)
    (h : SysArchSteady p s) (hv : v.text = w.text) (hwrap : wrapperProbe v = .ok w')
    (hsteady : WrapperSteady p v) :
    (∀ q, ∃ w'', sysArch q w'.text = .ok w'' ∧ w''.text = w'.text) ∧
      traced "thread_wrapper: child thread alive" w'.text = true ∧
      ∀ word ∈ [text "sys_thread_new", text "pthread_create"], occurs word w'.text = true := by
  obtain ⟨labels, a, b, e, i, f, z, hw, hstate, hmarked, hhelped, hbefore⟩ := sysArch_state hrun h
  obtain ⟨labels', a', b', j, hw', hstate', hmarked', hmore, hhelped', hlabel⟩ :=
    wrapper_state hstate hmarked hhelped (hv.trans hw) hwrap hsteady
  refine ⟨?_, traced_around hw' hlabel, ?_⟩
  · intro q
    rw [hw']
    exact sysArch_again hstate' hmarked' hhelped' (hmore _ hbefore) q
  · rw [hw']
    exact state_words hstate' z

end

end SwitchLdnZt.Proofs.ThreadRerun
