import SwitchLdnZt.Proofs.HelperSite

namespace SwitchLdnZt.Proofs.ThreadState
open Library Preprocess Scripts LwipThread FunctionSpan ThreadCall HelperSite

def diagLabel (label : String) : Text := text "[SWITCH-DIAG] " ++ text label

def probe (indent : Text) (label : String) : Text := '\n' :: guarded switch (diag indent label)

def pthreadHeader : Text := text "#include <pthread.h>"

def helper (e : Text) : Text := introHead ++ (e ++ introBody)

/-- What stands before and behind the place where the helper takes its slot. -/
def slotBefore : Text := '\n' :: (rows (ifdef switch :: introSwitch.take 5) ++ two)

def slotBehind : Text :=
  '\n' :: (rows (introSwitch.drop 6 ++ text "#else" :: (introOther ++ [text "#endif"])) ++
    text "\x7d")

theorem body_parts : introBody = slotBefore ++ (slotTarget ++ slotBehind) := by decide +kernel

/-- The helper with this between its head and that place. -/
def dressed (f : Text) : Text := introHead ++ (f ++ (slotTarget ++ slotBehind))

theorem helper_dressed (e : Text) : helper e = dressed (e ++ slotBefore) := by
  rw [helper, dressed, body_parts, List.append_assoc]

def entryProbe : Text := probe two "STN: ENTER"
def createdProbe : Text := probe two "STN: AFTER_PTHREAD_CREATE"
def callProbe : Text := guarded switch (diag four "STN: BEFORE_INTRODUCE") ++ '\n' :: four
def returnedProbe : Text := probe four "STN: AFTER_INTRODUCE"
def introProbeText : Text := probe two "INTRO: ENTER"
def slotProbe : Text := '\n' :: (rows [printDiag two "INTRO: SLOT_OK"] ++ update two)
def wrapperText : Text := probe two "thread_wrapper: child thread alive"

/-- The helper's body up to its first semicolon, and up to the slot from there on. -/
def slotFirst : Text := slotBefore.takeWhile (· ≠ ';')
def slotRest : Text := slotBefore.drop (slotFirst.length + 1)

theorem slot_parts : slotBefore = slotFirst ++ ';' :: slotRest ∧ ';' ∉ introHead ++ slotFirst := by
  decide +kernel

/-- What the probe behind the call is in where the call's semicolon is this one. -/
def createdFront : Text := slotFirst ++ ';' :: (createdProbe ++ slotRest)

def fronts : List Text := [slotBefore, entryProbe ++ slotBefore, createdFront]

def createdLabel : Text := diagLabel "STN: AFTER_PTHREAD_CREATE"

def stepLabels : List String := ["STN: ENTER", "STN: AFTER_PTHREAD_CREATE",
  "STN: BEFORE_INTRODUCE", "INTRO: ENTER", "thread_wrapper: child thread alive"]

/-- None of them is in the helper, but for the first where that probe went there. -/
theorem stepLabels_apart : (stepLabels.all fun l => apart (diagLabel l) (helper [])) = true ∧
    (stepLabels.tail.all fun l => apart (diagLabel l) (helper entryProbe)) = true := by
  decide +kernel

/-- Nor is any of the script's other words. -/
theorem helper_plain : ∀ e ∈ [[], entryProbe],
    ∀ l ∈ [switchHeader, pthreadHeader, text "sys_thread_t", introduceCall,
      text "sys_thread_new", text "pthread_create"], apart l (helper e) = true := by
  have hall : ([[], entryProbe].all fun e =>
      [switchHeader, pthreadHeader, text "sys_thread_t", introduceCall, text "sys_thread_new",
        text "pthread_create"].all (apart · (helper e))) = true := by decide +kernel
  intro e he
  exact List.all_eq_true.mp (List.all_eq_true.mp hall e he)

theorem helper_closed : ∀ e ∈ [[], entryProbe], IsBody (e ++ introBody) := by
  have hall : ([[], entryProbe].all fun e => closing '\x7b' '\x7d' 1 (e ++ introBody) ==
      some (e ++ introBody, [])) = true := by decide +kernel
  intro e he
  exact beq_iff_eq.mp (List.all_eq_true.mp hall e he)

/-- Whatever has gone into the helper by then. -/
theorem fronts_spec : ∀ f ∈ fronts, IsBody (f ++ (slotTarget ++ slotBehind)) ∧
    apart introduceCall (dressed f) = true ∧
    ∀ l ∈ stepLabels.drop 2, apart (diagLabel l) (dressed f) = true := by
  have hall : (fronts.all fun f => closing '\x7b' '\x7d' 1 (f ++ (slotTarget ++ slotBehind)) ==
      some (f ++ (slotTarget ++ slotBehind), []) && apart introduceCall (dressed f) &&
      (stepLabels.drop 2).all (fun l => apart (diagLabel l) (dressed f))) = true := by
    decide +kernel
  intro f hf
  have hone := List.all_eq_true.mp hall f hf
  rw [Bool.and_eq_true, Bool.and_eq_true] at hone
  exact ⟨beq_iff_eq.mp hone.1.1, hone.1.2, List.all_eq_true.mp hone.2⟩

theorem stepLabels_firm : ∀ l ∈ stepLabels, Firm (diagLabel l) := by
  intro l hl
  have hall : (stepLabels.all fun l => (diagLabel l).all (fun c => c ≠ '\x7b' && c ≠ ';' &&
      c ≠ '\n') && apart (diagLabel l) introduceCall) = true := by decide
  have hone := List.all_eq_true.mp hall l hl
  rw [Bool.and_eq_true] at hone
  obtain ⟨hchars, hcall⟩ := hone
  have hno := List.all_eq_true.mp hchars
  simp only [Bool.and_eq_true, decide_eq_true_eq] at hno
  exact ⟨fun hm => (hno _ hm).1.1 rfl, fun hm => (hno _ hm).1.2 rfl, fun hm => (hno _ hm).2 rfl,
    hcall⟩

/-- What of the text around the helper a second run decides by, apart from the call. -/
structure Base (labels : List String) (a b : Text) : Prop where
  ahead : Ahead a
  included : has switchHeader a b = true ∨ has pthreadHeader a b = false
  labels : ∀ l ∈ labels, l ∈ stepLabels ∧ has (diagLabel l) a b = true

/-- The head of `sys_thread_new` ends with the helper's. -/
def Headed (a : Text) : Prop :=
  ∃ u m, u ++ m = a ++ introHead ∧ First threadNewPattern (a ++ introHead) u m []

/-- The entry probe is in the text around the helper, or it is `e` in the helper. -/
inductive Entry (labels : List String) (a b : Text) : Text → Prop
  | around : "STN: ENTER" ∈ labels → Entry labels a b []
  | within : has (diagLabel "STN: ENTER") a b = false → Headed a →
    Entry labels a b (probe two "STN: ENTER")

/-- The text around the helper, as far as a second run goes by it: with `e` in the
helper the call of `pthread_create` is at `i` and has its stack size. -/
structure State (labels : List String) (e : Text) (i : Nat) (a b : Text) : Prop where
  base : Base labels a b
  entry : Entry labels a b e
  created : Created i (a ++ helper e ++ b)

/-- A probe that leaves all that a second run looks for as it is. -/
structure Fit (x : Text) : Prop where
  quiet : Quiet x
  pthread : Apart pthreadHeader x
  entry : Apart (diagLabel "STN: ENTER") x

theorem probes_fit : ∀ x ∈ [createdProbe, callProbe, returnedProbe, introProbeText, slotProbe,
    wrapperText], Fit x := by
  intro x hx
  have hall : ([createdProbe, callProbe, returnedProbe, introProbeText, slotProbe,
      wrapperText].all fun x => quiet x && apart pthreadHeader x &&
      apart (diagLabel "STN: ENTER") x) = true := by decide +kernel
  have hone := List.all_eq_true.mp hall x hx
  simp only [Bool.and_eq_true] at hone
  exact ⟨.of_check hone.1.1, .of_apart hone.1.2, .of_apart hone.2⟩

/-- The later ones are not taken for the one behind the call. -/
theorem probes_created : ∀ x ∈ [callProbe, returnedProbe, introProbeText, slotProbe,
    wrapperText], Apart createdLabel x := by
  have hall : ([callProbe, returnedProbe, introProbeText, slotProbe, wrapperText].all
      (apart createdLabel ·)) = true := by decide +kernel
  intro x hx
  exact .of_apart (List.all_eq_true.mp hall x hx)

theorem switchHeader_firm : Firm switchHeader := by constructor <;> decide

section
variable {labels : List String} {x a b e : Text} {i : Nat}

theorem Base.grow {site : Place} (h : Base labels (site.top []) (site.bottom []))
    (hl : Lands site.p site.q) (hx : Opaque introducePattern x) (hp : Apart pthreadHeader x) :
    Base labels (site.top x) (site.bottom x) := by
  refine ⟨site.ahead hx h.ahead, ?_, ?_⟩
  · rcases h.included with hin | hno
    · exact .inl (site.keeps (switchHeader_firm.whole hl) hin x)
    · exact .inr (site.lacks hp hno)
  · intro l hmem
    obtain ⟨hstep, hhas⟩ := h.labels l hmem
    exact ⟨hstep, site.keeps ((stepLabels_firm l hstep).whole hl) hhas x⟩

theorem Base.also (h : Base labels a b) {l : String} (hstep : l ∈ stepLabels)
    (hl : has (diagLabel l) a b = true) : Base (l :: labels) a b := by
  refine ⟨h.ahead, h.included, ?_⟩
  intro l' hmem
  rcases List.mem_cons.mp hmem with rfl | hmem
  · exact ⟨hstep, hl⟩
  · exact h.labels l' hmem

theorem Headed.put {p q : Text} (h : Headed (p ++ q)) (hx : Opaque threadNewPattern x)
    (hp : Ended p) : Headed (p ++ x ++ q) := by
  obtain ⟨u, m, hum, hfirst⟩ := h
  have hplace : p.length ≤ u.length := by
    by_contra hlong
    rw [List.append_assoc] at hum
    obtain ⟨m₁, rfl, rfl⟩ := append_split hum.symm (Nat.le_of_not_le hlong)
    have hne : q ++ introHead ≠ [] := by
      intro he
      exact absurd (List.append_eq_nil_iff.mp he).2 (by decide)
    exact threadNew_not_within hfirst.hit (behind_ne (Nat.lt_of_not_le hlong)) hne u hp
  have htext : p ++ q ++ introHead = p ++ (q ++ introHead) := by simp
  rw [htext] at hfirst
  obtain ⟨t, rfl, ht, hmoved⟩ := hfirst.insert_before hx threadNew_closed hplace
  refine ⟨p ++ x ++ t, m, ?_, ?_⟩
  · rw [List.append_nil] at ht
    rw [List.append_assoc _ q, ht]
    simp
  · simpa using hmoved

theorem stop_lift {p p' : Text} (h : Ended p) (hp : p <:+ p') : Ended p' := by
  obtain ⟨t, rfl⟩ := hp
  have hne : p ≠ [] := by
    rintro rfl
    rcases h with h | h <;> cases h
  rwa [Ended, List.getLast?_append_of_ne_nil _ hne]

/-- In that case the call stands behind the helper's head. -/
theorem Headed.created {y : Text} (h : Headed a) (hc : Created i (a ++ (introHead ++ y) ++ b)) :
    (a ++ introHead).length ≤ i := by
  obtain ⟨u, m, hum, hfirst⟩ := h
  obtain ⟨u', m', pre, k, args, gap, z, htext, hcall, -, -, rfl⟩ := hc
  have hwhole := hfirst.behind threadNew_closed (y ++ b)
  have hsame : u ++ m ++ (y ++ b) = u' ++ m' ++ (pre ++ k ++ (args ++ (gap ++ ';' :: z))) := by
    rw [hum, ← htext]
    simp
  rw [hsame] at hwhole
  obtain ⟨rfl, rfl, -⟩ := hwhole.unique threadNew_closed hcall.header
  rw [← hum]
  simp

theorem Entry.move {site : Place} (h : Entry labels (site.top []) (site.bottom []) e)
    (hx : Apart (diagLabel "STN: ENTER") x)
    (hhead : Headed (site.top []) → Headed (site.top x)) :
    Entry labels (site.top x) (site.bottom x) e := by
  cases h with
  | around hmem => exact .around hmem
  | within hno h => exact .within (site.lacks hx hno) (hhead h)

theorem Entry.grow {site : Place} (h : Entry labels (site.top []) (site.bottom []) e)
    (hc : Created i (site.top [] ++ helper e ++ site.bottom [])) (hx : Fit x)
    (hlate : Ended site.p ∨ i ≤ (site.front (helper e)).length) :
    Entry labels (site.top x) (site.bottom x) e := by
  refine h.move hx.entry ?_
  intro hhead
  cases site with
  | below a p q => exact hhead
  | above p q b =>
    rcases hlate with hp | hlate
    · have hplain : Headed (p ++ q) := by simpa [Place.top] using hhead
      exact hplain.put hx.quiet.threadNew hp
    · have hlong := hhead.created hc
      have hpos : 0 < introHead.length := by decide
      simp only [Place.top, Place.front, List.length_append] at hlong hlate
      omega

theorem State.grow {site : Place} (h : State labels e i (site.top []) (site.bottom []))
    (hx : Fit x) (hplace : Ended site.p ∨ introduceCall <+: site.q)
    (hlate : Ended site.p ∨ i ≤ (site.front (helper e)).length) {kept : Bool}
    (hsev : ¬ Severed kept (site.front (helper e))) :
    ∃ j, State labels e j (site.top x) (site.bottom x) ∧
      (i < (site.front (helper e)).length → j = i) := by
  have hp := site.p_suffix (helper e)
  have hq := site.q_prefix (helper e)
  have hlands : Lands site.p site.q := by
    rcases hplace with h | h
    · exact .inl h
    · exact .inr (.inl h)
  have hput : Put x (site.front (helper e)) (site.back (helper e)) := by
    refine ⟨hx.quiet, ?_⟩
    rcases hplace with h | h
    · exact .inl (stop_lift h hp)
    · exact .inr (h.trans hq)
  have hlate' : Ended (site.front (helper e)) ∨ i ≤ (site.front (helper e)).length := by
    rcases hlate with h | h
    · exact .inl (stop_lift h hp)
    · exact .inr h
  have hc := h.created
  rw [site.text, List.append_nil] at hc
  obtain ⟨j, hj, hi⟩ := hc.put hput hlate' hsev
  rw [← site.text] at hj
  exact ⟨j, ⟨h.base.grow hlands hx.quiet.introduce hx.pthread, h.entry.grow h.created hx hlate, hj⟩,
    hi⟩

end

theorem helper_nil : helper [] = intro := by
  rw [intro_parts]
  rfl

def included : Text := '\n' :: guarded switch includes

theorem included_opaque : Opaque introducePattern included :=
  .of_until introduce_ends introduce_begins (d := '#') (by decide) (by decide)
    (by decide) (by decide)

section
variable {labels : List String} {a b e : Text} {i : Nat} {w w' : Work}

theorem include_base (ha : Ahead a) (hw : w.text = a ++ helper [] ++ b) :
    ∃ a' b', (includeSwitch pthreadHeader w).text = a' ++ helper [] ++ b' ∧ Base [] a' b' := by
  have hheader : apart switchHeader (helper []) = true := helper_plain [] (by simp) _ (by simp)
  have hpthread : apart pthreadHeader (helper []) = true := helper_plain [] (by simp) _ (by simp)
  rcases includeSwitch_cases pthreadHeader w with ⟨he, hin | hno⟩ | ⟨-, u, v, hcut, he⟩
  · rw [he]
    rw [hw, occurs_around hheader] at hin
    exact ⟨a, b, hw, ha, .inl hin, by simp⟩
  · rw [he]
    refine ⟨a, b, hw, ha, .inr ?_, by simp⟩
    rw [← occurs_around hpthread, ← hw, occurs, hno]
    rfl
  · have hcut := cut_eq hcut
    rw [hw] at hcut
    have hout := (Apart.of_apart hpthread).outside hcut
    obtain ⟨site, rfl, rfl, hfront, hback⟩ := place_of (p := u ++ pthreadHeader) (q := v) hcut
      (hout.imp_right (fun h => by simp only [List.length_append] at h ⊢; omega))
    refine ⟨site.top included, site.bottom included, ?_, site.ahead included_opaque ha, .inl ?_,
      by simp⟩
    · rw [he, site.text, hfront, hback]
      simp [Work.put, Insertion.new, included]
    · exact site.gets (by decide)

/-- A head of `sys_thread_new` that ends in the helper ends where the helper's does. -/
theorem header_within {u m r : Text} (h : First threadNewPattern (a ++ helper [] ++ b) u m r)
    (hleft : a.length < (u ++ m).length) (hright : (u ++ m).length < (a ++ helper []).length) :
    u ++ m = a ++ introHead := by
  have htext := h.text
  rw [List.append_assoc] at htext
  obtain ⟨h₁, hum, hrest⟩ := append_split htext.symm (Nat.le_of_lt hleft)
  rw [hum] at hleft hright
  obtain ⟨h₂, hsplit, -⟩ := append_split hrest
    (by simp only [List.length_append] at hright; omega)
  obtain ⟨m₀, hm, hbrace⟩ := threadNew_closed.hit h.hit
  rcases Nat.le_total m.length h₁.length with hle | hle
  · -- all of it would be in the helper
    obtain ⟨t, rfl, ht⟩ := append_split (u := u) (v := m) hum
      (by have := congrArg List.length hum; simp only [List.length_append] at this; omega)
    obtain ⟨word, hword, hpre⟩ := threadNew_begins.hit h.hit
    obtain rfl := List.mem_singleton.mp hword
    have happart : Apart (text "sys_thread_t") (helper []) :=
      .of_apart (helper_plain [] (by simp) _ (by simp))
    refine absurd (hpre.isInfix.trans ?_) happart.notIn
    rw [hsplit, ht]
    exact ⟨t, h₂, by simp⟩
  · obtain ⟨t, -, ht⟩ := append_split hum.symm
      (by have := congrArg List.length hum; simp only [List.length_append] at this; omega)
    rcases List.eq_nil_or_concat h₁ with rfl | ⟨h₀, c, rfl⟩
    · simp at hleft
    rw [List.concat_eq_append] at ht hsplit hum
    rw [hm, ← List.append_assoc] at ht
    obtain ⟨rfl, hc⟩ := List.append_inj' ht rfl
    cases hc
    have hhead : introHead = introHead.dropLast ++ ['\x7b'] := by decide
    have hno : '\x7b' ∉ introHead.dropLast := by decide
    have hsame : h₀ ++ ['\x7b'] ++ h₂ = introHead.dropLast ++ ['\x7b'] ++ introBody := by
      rw [← hsplit, ← hhead]
      rfl
    obtain ⟨rfl, -⟩ := closed_unique (fun hin => hbrace (List.mem_append_right _ hin)) hno hsame
    rw [hum, ← hhead]

theorem entryProbe_quiet : Quiet entryProbe := .of_check (by decide)

theorem put_behind (w : Work) (head : Text) (indent : Text) (label : String) (tail : Text) :
    (w.put (.behind head (diag indent label) tail)).text = head ++ probe indent label ++ tail := by
  simp [Work.put, Insertion.new, probe]

theorem enter_entry {missing : String} (h : Base [] a b) (hw : w.text = a ++ helper [] ++ b)
    (henter : enter threadNewPattern missing two "STN: ENTER" w = .ok w') :
    ∃ labels a' b' e, w'.text = a' ++ helper e ++ b' ∧ Base labels a' b' ∧
      Entry labels a' b' e := by
  have hlabel : apart (diagLabel "STN: ENTER") (helper []) = true :=
    List.all_eq_true.mp stepLabels_apart.1 _ (by decide)
  obtain ⟨head, tail, hup, ⟨htr, rfl⟩ | ⟨hno, rfl⟩⟩ := enter_cases henter
  · refine ⟨["STN: ENTER"], a, b, [], hw, h.also (by decide) ?_, .around (by simp)⟩
    rw [← occurs_around hlabel, ← hw]
    exact htr
  obtain ⟨u, m, rfl, hfirst⟩ := upTo_first threadNew_plain hup
  have htext := hfirst.text
  rw [hw] at hfirst htext
  by_cases hout : (u ++ m).length ≤ a.length ∨ (a ++ helper []).length ≤ (u ++ m).length
  · obtain ⟨site, rfl, rfl, hfront, hback⟩ := place_of htext hout
    obtain ⟨m₀, hm, -⟩ := threadNew_closed.hit hfirst.hit
    have hended : Ended (u ++ m) := by
      left
      rw [hm, ← List.append_assoc]
      exact List.getLast?_concat
    have hlands : Lands site.p site.q :=
      .inl (site.ended (helper_closed [] (by simp)) (by rw [← hfront] at hended; exact hended))
    refine ⟨["STN: ENTER"], site.top entryProbe, site.bottom entryProbe, [], ?_, ?_,
      .around (by simp)⟩
    · rw [put_behind, site.text, hfront, hback]
      rfl
    · have hgrown := h.grow hlands entryProbe_quiet.introduce (.of_apart (by decide))
      exact hgrown.also (by decide) (site.gets (by decide))
  · -- the helper's brace is the one that the head ends with
    rw [not_or, Nat.not_le, Nat.not_le] at hout
    have hhead := header_within hfirst hout.1 hout.2
    refine ⟨[], a, b, entryProbe, ?_, h, .within ?_ ⟨u, m, hhead, ?_⟩⟩
    · rw [hhead] at htext
      have htail : a ++ introHead ++ (introBody ++ b) = a ++ introHead ++ tail := by
        rw [← htext]
        simp [helper]
      rw [put_behind, hhead, ← List.append_cancel_left htail]
      simp [helper, entryProbe]
    · rw [← occurs_around hlabel, ← hw]
      exact hno
    · have hbehind := hfirst.behind threadNew_closed []
      rw [hhead, List.append_nil] at hbehind
      exact hbehind

def fixBefore : Text := rows (ifdef switch :: (stackFix ++ [text "#else"]))
def fixBehind : Text := text "\n#endif"

theorem fixBefore_apart : ∀ l ∈ [text "static", pthreadHeader, diagLabel "STN: ENTER"],
    apart l fixBefore = true := by
  have hall : ([text "static", pthreadHeader, diagLabel "STN: ENTER"].all
      (apart · fixBefore)) = true := by decide +kernel
  exact List.all_eq_true.mp hall

theorem fix_opaque : Opaque introducePattern fixBefore ∧ Opaque introducePattern fixBehind :=
  ⟨.of_until introduce_ends introduce_begins (d := '#')
      (List.forall_mem_singleton.mpr (fixBefore_apart _ (by simp))) (by decide) (by decide)
      (by decide),
    .of_until introduce_ends introduce_begins (d := '#') (by decide) (by decide) (by decide)
      (by decide)⟩

/-- A place that is not within the helper as the script finds it. -/
def Clear (p : Path) (s : Text) (n : Nat) : Prop :=
  ∀ a b, introSite p s = .ok (a, b) → n ≤ a.length ∨ s.length - b.length ≤ n

/-- The statement of a call that is to get its stack size is clear of the helper. -/
def StatementClear (p : Path) (s : Text) : Prop :=
  ∀ fnStart pos semi, CallFound s fnStart pos semi →
    occurs switchAttr (slice s pos (semi + 1)) = false →
      Clear p s (lineStart s pos.toNat) ∧ Clear p s (semi + 1).toNat

theorem Clear.out {p : Path} {y : Text} {n : Nat} (h : Clear p (a ++ (introHead ++ y) ++ b) n)
    (ha : Ahead a) (hy : IsBody y) : n ≤ a.length ∨ (a ++ (introHead ++ y)).length ≤ n := by
  have hout := h a b (ha.site hy b p)
  have hlen : (a ++ (introHead ++ y) ++ b).length = (a ++ (introHead ++ y)).length + b.length :=
    List.length_append
  rwa [hlen, Nat.add_sub_cancel] at hout

theorem Entry.mem (h : Entry labels a b e) : e ∈ [[], entryProbe] := by
  cases h with
  | around => exact List.mem_cons_self
  | within => exact List.mem_cons_of_mem _ List.mem_cons_self

theorem Entry.body (h : Entry labels a b e) : IsBody (e ++ introBody) := helper_closed e h.mem

/-- With the head of `sys_thread_new` in the helper that is where the function starts. -/
theorem Headed.start {y : Text} {fnStart : Nat} (h : Headed a)
    (hs : threadNewStart (a ++ (introHead ++ y) ++ b) = .ok fnStart) :
    fnStart = (a ++ introHead).length := by
  obtain ⟨u, m, hum, hfirst⟩ := h
  have hwhole := hfirst.behind threadNew_closed (y ++ b)
  have hsame : u ++ m ++ (y ++ b) = a ++ (introHead ++ y) ++ b := by
    rw [hum]
    simp
  rw [hsame] at hwhole
  rw [threadNewStart, first_upTo threadNew_plain threadNew_closed hwhole] at hs
  cases hs
  rw [hum]

theorem place_at {z s : Text} {n : Nat} (hs : s = a ++ z ++ b)
    (hout : n ≤ a.length ∨ (a ++ z).length ≤ n) : ∃ site : Place, site.top [] = a ∧
      site.bottom [] = b ∧ site.front z = s.take n ∧ site.back z = s.drop n := by
  refine place_of (by rw [← hs, List.take_append_drop]) ?_
  have hlen := congrArg List.length hs
  simp only [List.length_append, List.length_take] at hlen hout ⊢
  omega

theorem fix_around {p : Path} {fnStart : Nat} {pos semi : Int} (h : Base labels a b)
    (hy : IsBody (e ++ introBody)) (hw : w.text = a ++ helper e ++ b)
    (hcall : CallFound w.text fnStart pos semi)
    (hline : Clear p w.text (lineStart w.text pos.toNat))
    (hsemi : Clear p w.text (semi + 1).toNat) :
    ∃ a' b', (fixedCall w pos semi).text = a' ++ helper e ++ b' ∧ Base labels a' b' ∧
      (has (diagLabel "STN: ENTER") a b = false → has (diagLabel "STN: ENTER") a' b' = false) ∧
      (a.length < lineStart w.text pos.toNat → a' = a) := by
  have hfront := hcall.front
  have hnew : (fixedCall w pos semi).text = w.text.take (lineStart w.text pos.toNat) ++
      (fixBefore ++ (slice w.text (lineStart w.text pos.toNat) (semi + 1) ++
        (fixBehind ++ w.text.drop (semi + 1).toNat))) := rfl
  obtain ⟨closeParen, -, hfind⟩ := hcall.closed
  have hnonneg : 0 ≤ semi := Int.le_trans hcall.found hcall.ends
  have hended : Ended (w.text.take (semi + 1).toNat) := by
    exact .inr (semi_take hfind hnonneg).1
  have hstart := lineStart_last w.text pos.toNat
  generalize lineStart w.text pos.toNat = ls at *
  generalize slice w.text ls (semi + 1) = stmt at *
  rw [hw] at hline hsemi
  have houtl : ls ≤ a.length ∨ (a ++ helper e).length ≤ ls := hline.out h.ahead hy
  have houts : (semi + 1).toNat ≤ a.length ∨ (a ++ helper e).length ≤ (semi + 1).toNat :=
    hsemi.out h.ahead hy
  obtain ⟨site, rfl, rfl, hsitep, hsiteq⟩ := place_at (z := helper e) hw houts
  -- first the end of the group, then the lines before the statement
  have hmid : site.top fixBehind ++ helper e ++ site.bottom fixBehind =
      w.text.take ls ++ (stmt ++ (fixBehind ++ w.text.drop (semi + 1).toNat)) := by
    rw [site.text, hsitep, hsiteq, hfront]
    simp
  have hgrown := h.grow (x := fixBehind)
    (.inl (site.ended hy (by rw [← hsitep] at hended; exact hended))) fix_opaque.2
    (.of_apart (by decide))
  have hlen := congrArg List.length hw
  have hlast := congrArg List.length hfront
  have hpos : 0 < (helper e).length := by
    have hhead : 0 < introHead.length := by decide
    rw [helper, List.length_append]
    omega
  have htake : (w.text.take ls).length = min ls w.text.length := List.length_take
  simp only [List.length_append] at hlen hlast houtl
  have hout : (w.text.take ls).length ≤ (site.top fixBehind).length ∨
      (site.top fixBehind ++ helper e).length ≤ (w.text.take ls).length := by
    cases site with
    | above p q b =>
      left
      have hp : p = w.text.take ls ++ stmt := hsitep.trans hfront
      simp only [Place.top, hp, List.length_append]
      omega
    | below a p q =>
      simp only [Place.top, List.length_append] at hlen houtl ⊢
      omega
  obtain ⟨site', htop, hbottom, hsitep', hsiteq'⟩ := place_of hmid hout
  rw [← htop, ← hbottom] at hgrown
  have hlands : Lands site'.p site'.q := by
    have hfront' : site'.front (introHead ++ (e ++ introBody)) = w.text.take ls := hsitep'
    rw [← hfront'] at hstart
    exact .inr (.inr (site'.starts hy hstart))
  refine ⟨site'.top fixBefore, site'.bottom fixBefore, ?_,
    hgrown.grow hlands fix_opaque.1 (.of_apart (fixBefore_apart _ (by simp))), ?_, ?_⟩
  · rw [hnew, site'.text, hsitep', hsiteq']
    simp
  · intro hno
    have hmore := site.lacks (x := fixBehind) (.of_apart (by decide)) hno
    rw [← htop, ← hbottom] at hmore
    exact site'.lacks (.of_apart (fixBefore_apart _ (by simp))) hmore
  · intro hlong
    have hbelow : site.top fixBehind = site.top [] := by
      cases site with
      | below => rfl
      | above p q b =>
        have hp : p = w.text.take ls ++ stmt := hsitep.trans hfront
        simp only [Place.top, hp, List.length_append] at hlong hlen
        omega
    have hsame : site'.top [] = site.top [] := htop.trans hbelow
    cases site' with
    | below => exact hsame
    | above p q b =>
      have hp : p.length = (w.text.take ls).length := congrArg List.length hsitep'
      have hshort : p.length ≤ (site.top []).length := by
        rw [← hsame]
        simp [Place.top]
      omega

theorem fix_state {p : Path} {pos semi : Int} (h : Base labels a b) (he : Entry labels a b e)
    (hw : w.text = a ++ helper e ++ b) (hfix : fixStack w = .ok (w', pos, semi))
    (hown : OwnLine w.text) (hclear : StatementClear p w.text) :
    ∃ a' b' i, w'.text = a' ++ helper e ++ b' ∧ State labels e i a' b' ∧ pos = (i : Nat) ∧
      fixStack w' = .ok (w', pos, semi) := by
  obtain ⟨i, hcreated, hpos, hagain⟩ := fixStack_created hfix hown
  obtain ⟨fnStart, at₀, end₀, hcall, ⟨-, rfl, -⟩ | ⟨hno, rfl, -⟩⟩ := fixStack_cases hfix
  · rw [hw] at hcreated
    exact ⟨a, b, i, hw, ⟨h, he, hcreated⟩, hpos, hagain⟩
  · obtain ⟨hline, hsemi⟩ := hclear _ _ _ hcall hno
    obtain ⟨a', b', htext, hbase, hstn, hsame⟩ := fix_around h he.body hw hcall hline hsemi
    rw [htext] at hcreated
    refine ⟨a', b', i, htext, ⟨hbase, ?_, hcreated⟩, hpos, hagain⟩
    cases he with
    | around hmem => exact .around hmem
    | within hnot hhead =>
      have hstart := hcall.start
      rw [hw] at hstart
      have hlong := hown _ _ _ hcall hno
      have hpos : 0 < introHead.length := by decide
      rw [hhead.start hstart, List.length_append] at hlong
      rw [hsame (by omega)] at hstn ⊢
      exact .within (hstn hnot) hhead

/-- The probe behind the call is in the text around the helper, or it is in the helper, the
call being cut off above that. -/
inductive Marked (labels : List String) (a b e : Text) : Text → Prop
  | around : "STN: AFTER_PTHREAD_CREATE" ∈ labels → Marked labels a b e (e ++ slotBefore)
  | within : e = [] → has createdLabel a b = false → Severed false a →
    Marked labels a b e createdFront

theorem Marked.mem {f : Text} (h : Marked labels a b e f) (he : e ∈ [[], entryProbe]) :
    f ∈ fronts := by
  cases h with
  | within => simp [fronts]
  | around =>
    rcases List.mem_cons.mp he with rfl | he
    · simp [fronts]
    · simp [fronts, List.mem_singleton.mp he]

theorem Marked.also {f : Text} (h : Marked labels a b e f) (l : String) :
    Marked (l :: labels) a b e f := by
  cases h with
  | around hmem => exact .around (List.mem_cons_of_mem l hmem)
  | within he hno hopen => exact .within he hno hopen

/-- A call that is cut off there has its semicolon in the helper. -/
theorem within_call (h : Severed false a) (hc : Created i (a ++ helper [] ++ b))
    (l : List Insertion) : i ≤ a.length ∧ fixStack ⟨a ++ helper [] ++ b, l⟩ =
      .ok (⟨a ++ helper [] ++ b, l⟩, i, (a ++ (introHead ++ slotFirst)).length) := by
  obtain ⟨hslot, hfree⟩ := slot_parts
  have htext : a ++ helper [] ++ b = a ++ (introHead ++ slotFirst ++
      ';' :: (slotRest ++ (slotTarget ++ slotBehind) ++ b)) := by
    rw [helper, body_parts, hslot]
    simp
  rw [htext] at hc ⊢
  exact h.fixStack hfree hc l

theorem Marked.front {f : Text} {site : Place} {kept : Bool}
    (h : Marked labels (site.top []) (site.bottom []) e f)
    (hs : Severed kept (site.front (helper e))) : Severed kept (site.front (dressed f)) := by
  cases h with
  | around => rwa [helper_dressed] at hs
  | within he =>
    subst he
    cases site with
    | above p q b => exact hs
    | below a p q =>
      have hparts (x : Text) : a ++ (introHead ++ (slotFirst ++ ';' :: (x ++ slotRest) ++
          (slotTarget ++ slotBehind))) ++ p = a ++ introHead ++ slotFirst ++ [';'] ++ x ++
            (slotRest ++ (slotTarget ++ (slotBehind ++ p))) := by simp
      have hlast : (a ++ introHead ++ slotFirst ++ [';']).getLast? = some ';' :=
        List.getLast?_concat
      rw [Place.front, helper_dressed, dressed, List.nil_append, slot_parts.1] at hs
      have hplain := hparts []
      rw [List.append_nil, List.nil_append] at hplain
      rw [Place.front, dressed, createdFront, hparts]
      rw [hplain] at hs
      exact hs.put ⟨(probes_fit createdProbe (by simp)).quiet, .inl (.inr hlast)⟩
        (.inl (.inr hlast)) (.inl (List.mem_append_left _ (by decide)))

theorem Marked.late {f : Text} {site : Place}
    (h : Marked labels (site.top []) (site.bottom []) e f)
    (hc : Created i (site.top [] ++ helper e ++ site.bottom []))
    (hi : i ≤ (site.front (dressed f)).length) : i ≤ (site.front (helper e)).length := by
  cases h with
  | around => rwa [helper_dressed]
  | within he _ hsev =>
    subst he
    cases site with
    | above p q b => exact hi
    | below a p q =>
      have hlong := (within_call hsev hc []).1
      simp only [Place.top, Place.front, List.length_append] at hlong ⊢
      omega

theorem Marked.grow {f : Text} {site : Place}
    (h : Marked labels (site.top []) (site.bottom []) e f)
    (hc : Created i (site.top [] ++ helper e ++ site.bottom [])) (hx : Fit x)
    (hl : Apart createdLabel x) (hplace : Ended site.p ∨ introduceCall <+: site.q)
    (hlate : Ended site.p ∨ i ≤ (site.front (helper e)).length)
    (hsev : ¬ Severed (has createdLabel (site.top []) (site.bottom []))
      (site.front (helper e))) : Marked labels (site.top x) (site.bottom x) e f := by
  cases h with
  | around hmem => exact .around hmem
  | within he hno hopen =>
    refine .within he (site.lacks hl hno) ?_
    rw [hno] at hsev
    cases site with
    | below a p q => exact hopen
    | above p q b =>
      have hwhole : Severed false (p ++ q) := by simpa [Place.top] using hopen
      refine hwhole.put ⟨hx.quiet, hplace⟩ (hlate.imp_right (fun hi => ?_)) (.inr hsev)
      exact ⟨i, helper e ++ b, by simpa [Place.top, Place.bottom] using hc, hi⟩

/-- A probe goes into the text around the helper as it now is. -/
theorem State.put {f : Text} {site : Place}
    (h : State labels e i (site.top []) (site.bottom []))
    (hm : Marked labels (site.top []) (site.bottom []) e f) (hx : Fit x)
    (hl : Apart createdLabel x) (hplace : Ended site.p ∨
      introduceCall <+: site.q ∧ i ≤ (site.front (dressed f)).length)
    (hsev : ¬ Severed (has createdLabel (site.top []) (site.bottom []))
      (site.front (dressed f))) :
    ∃ j, State labels e j (site.top x) (site.bottom x) ∧
      Marked labels (site.top x) (site.bottom x) e f := by
  have hlate : Ended site.p ∨ i ≤ (site.front (helper e)).length :=
    hplace.imp_right (fun hi => hm.late h.created hi.2)
  have hwhole := fun hs => hsev (hm.front hs)
  obtain ⟨j, hj, -⟩ := h.grow hx (hplace.imp_right And.left) hlate hwhole
  exact ⟨j, hj, hm.grow h.created hx hl (hplace.imp_right And.left) hlate hwhole⟩

theorem State.above {p q f : Text} (h : State labels e i (p ++ q) b)
    (hm : Marked labels (p ++ q) b e f) (hx : Fit x) (hl : Apart createdLabel x) (hp : Ended p)
    (hsev : ¬ Severed (has createdLabel (p ++ q) b) p) :
    ∃ j, State labels e j (p ++ x ++ q) b ∧ Marked labels (p ++ x ++ q) b e f := by
  have htop : Place.top [] (.above p q b) = p ++ q := by simp [Place.top]
  rw [← htop] at h hm hsev
  exact h.put hm hx hl (.inl hp) hsev

theorem State.probe {n : Nat} {s f : Text} (h : State labels e i a b)
    (hm : Marked labels a b e f) (hs : s = a ++ dressed f ++ b) (hx : Fit x)
    (hl : Apart createdLabel x) (hout : n ≤ a.length ∨ (a ++ dressed f).length ≤ n)
    (hplace : Ended (s.take n) ∨ introduceCall <+: s.drop n ∧ i ≤ (s.take n).length)
    (hsev : ¬ Severed (has createdLabel a b) (s.take n)) :
    ∃ a' b' j, s.take n ++ x ++ s.drop n = a' ++ dressed f ++ b' ∧ State labels e j a' b' ∧
      Marked labels a' b' e f ∧ ∀ l, occurs l x = true → has l a' b' = true := by
  have hbody := (fronts_spec f (hm.mem h.entry.mem)).1
  obtain ⟨site, rfl, rfl, hfront, hback⟩ := place_at hs hout
  rw [← hfront, ← hback] at hplace
  rw [← hfront] at hsev
  have hlocal := hplace.imp (site.ended hbody) (And.imp_left site.calls)
  obtain ⟨j, hj, hmarked⟩ := h.put hm hx hl hlocal hsev
  refine ⟨site.top x, site.bottom x, j, ?_, hj, hmarked, fun l hocc => site.gets hocc⟩
  rw [site.text, hfront, hback]

theorem State.also (h : State labels e i a b) {l : String} (hstep : l ∈ stepLabels)
    (hl : has (diagLabel l) a b = true) : State (l :: labels) e i a b := by
  refine ⟨h.base.also hstep hl, ?_, h.created⟩
  cases h.entry with
  | around hmem => exact .around (List.mem_cons_of_mem l hmem)
  | within hno hhead => exact .within hno hhead

/-- The label of a later probe is not in the helper. -/
theorem helper_apart {l : String} (he : e ∈ [[], entryProbe]) (hl : l ∈ stepLabels.tail) :
    apart (diagLabel l) (helper e) = true := by
  rcases List.mem_cons.mp he with rfl | he
  · exact List.all_eq_true.mp stepLabels_apart.1 l (List.mem_of_mem_tail hl)
  · rw [List.mem_singleton.mp he]
    exact List.all_eq_true.mp stepLabels_apart.2 l hl

/-- A probe that is in already is in the text around the helper. -/
theorem State.traced {l : String} (h : State labels e i a b) (hw : w.text = a ++ helper e ++ b)
    (hl : l ∈ stepLabels.tail) (htr : traced l w.text = true) : has (diagLabel l) a b = true := by
  rw [← occurs_around (helper_apart h.entry.mem hl), ← hw]
  exact htr

theorem helper_level : ∀ e ∈ [[], entryProbe], level '(' ')' 0 (helper e) = some 0 := by
  have hall : ([[], entryProbe].all fun e => level '(' ')' 0 (helper e) == some 0) = true := by
    decide +kernel
  intro e he
  exact beq_iff_eq.mp (List.all_eq_true.mp hall e he)

/-- A call ends in the text around the helper, or it is cut off above that. -/
theorem call_outside {u k args gap z : Text} (he : e ∈ [[], entryProbe])
    (hk : Hits createPattern k) (hclosed : closing '(' ')' 1 args = some (args, []))
    (htext : a ++ helper e ++ b = u ++ k ++ (args ++ (gap ++ ';' :: z))) :
    (u ++ k ++ (args ++ gap)).length < a.length ∨
      (a ++ helper e).length ≤ (u ++ k ++ (args ++ gap)).length ∨
      ∃ g, a = u ++ k ++ (args ++ g) ∧ g <+: gap := by
  obtain ⟨word, hword, hpre⟩ := create_begins.hit hk
  obtain rfl := List.mem_singleton.mp hword
  have hout := hit_outside htext hpre (not_mem_hit (by decide) hk)
    (.of_apart (helper_plain e he _ (by simp))) (List.prefix_append introHead _)
  rcases hout with habove | hbelow
  case inr =>
    right
    left
    simp only [List.length_append] at hbelow ⊢
    omega
  rw [List.append_assoc a] at htext
  obtain ⟨v, rfl, hrest⟩ := append_split htext habove
  rcases Nat.lt_or_ge v.length args.length with hlt | hle
  · -- its parenthesis is not in the helper
    obtain ⟨x, rfl, hx⟩ := append_split hrest (Nat.le_of_lt hlt)
    right
    left
    by_contra hno
    have hshort : x.length ≤ (helper e).length := by
      simp only [List.length_append] at hno ⊢
      omega
    obtain ⟨y, hy, -⟩ := append_split hx hshort
    have hlevel := helper_level e he
    rw [hy] at hlevel
    obtain rfl := closing_outside hlevel hclosed
    simp at hlt
  obtain ⟨g, rfl, hgaps⟩ := append_split hrest.symm hle
  rcases Nat.lt_or_ge gap.length g.length with hlt | hge
  · left
    simp only [List.length_append]
    omega
  · obtain ⟨t, rfl, -⟩ := append_split hgaps hge
    exact .inr (.inr ⟨g, rfl, List.prefix_append g t⟩)

/-- The place behind the call's semicolon. -/
theorem semi_place {semi : Int} (h : State labels e i a b) (hw : w.text = a ++ helper e ++ b)
    (hfix : fixStack w = .ok (w', i, semi)) :
    (w.text.take (semi + 1).toNat).getLast? = some ';' ∧
      i < (w.text.take (semi + 1).toNat).length ∧
      ((semi + 1).toNat ≤ a.length ∨ (a ++ helper e).length ≤ (semi + 1).toNat ∨
        e = [] ∧ Severed false a) := by
  have hcreated := h.created
  rw [← hw] at hcreated
  obtain ⟨u, m, pre, k, args, gap, z, htext, hcall, hgap, rfl, rfl⟩ := hcreated.semi hfix
  have hparts : w.text = u ++ m ++ pre ++ k ++ (args ++ gap) ++ [';'] ++ z := by
    rw [htext]
    simp
  have hlen : ((((u ++ m ++ (pre ++ k ++ (args ++ gap))).length : Nat) : Int) + 1).toNat =
      (u ++ m ++ pre ++ k ++ (args ++ gap) ++ [';']).length := by
    simp only [List.length_append, List.length_singleton]
    omega
  rw [hlen, hparts, List.take_left]
  refine ⟨List.getLast?_concat, ?_, ?_⟩
  · simp only [List.length_append, List.length_singleton]
    omega
  have hsame : a ++ helper e ++ b = u ++ m ++ pre ++ k ++ (args ++ (gap ++ ';' :: z)) := by
    rw [← hw, htext]
    simp
  have hone : (u ++ m ++ pre ++ k ++ (args ++ gap) ++ [';']).length =
      (u ++ m ++ pre ++ k ++ (args ++ gap)).length + 1 := List.length_append
  rw [hone]
  rcases call_outside h.entry.mem hcall.call.hit hcall.closed hsame with
    habove | hbelow | ⟨g, rfl, t, rfl⟩
  · exact .inl habove
  · exact .inr (.inl (Nat.le_succ_of_le hbelow))
  refine .inr (.inr ⟨?_, u, m, pre, k, args, g, by simp, hcall.behind g, ?_, rfl⟩)
  · cases h.entry with
    | around => rfl
    | within _ hhead =>
      have hlong := hhead.created h.created
      simp only [List.length_append] at hlong
      have hpos : 0 < introHead.length := by decide
      omega
  · exact fun hm => hgap (List.mem_append_left t hm)

/-- Where the call is cut off the probe behind its semicolon goes into the helper. -/
theorem after_within {semi : Int} (h : State labels [] i a b) (hw : w.text = a ++ helper [] ++ b)
    (hfix : fixStack w = .ok (w', i, semi)) (hopen : Severed false a)
    (hno : LwipThread.traced "STN: AFTER_PTHREAD_CREATE" w.text = false) :
    (afterCreate semi w).text = a ++ dressed createdFront ++ b := by
  rcases afterCreate_cases semi w with ⟨htr, -⟩ | ⟨-, he⟩
  · rw [hno] at htr
    cases htr
  have hagain := (within_call hopen h.created w.log).2
  rw [← hw] at hagain
  rw [hagain] at hfix
  cases hfix
  obtain ⟨hslot, -⟩ := slot_parts
  have htext : w.text = a ++ (introHead ++ slotFirst) ++ [';'] ++
      (slotRest ++ (slotTarget ++ slotBehind) ++ b) := by
    rw [hw, helper, body_parts, hslot]
    simp
  have hlen : ((((a ++ (introHead ++ slotFirst)).length : Nat) : Int) + 1).toNat =
      (a ++ (introHead ++ slotFirst) ++ [';']).length := by
    simp only [List.length_append, List.length_singleton]
    omega
  rw [he, put_behind, hlen, htext, List.take_left, List.drop_left]
  simp [dressed, createdFront, createdProbe]

theorem after_state {semi : Int} (h : State labels e i a b) (hw : w.text = a ++ helper e ++ b)
    (hfix : fixStack w = .ok (w', i, semi)) :
    ∃ labels' a' b' f, (afterCreate semi w).text = a' ++ dressed f ++ b' ∧
      State labels' e i a' b' ∧ Marked labels' a' b' e f := by
  rcases afterCreate_cases semi w with ⟨htr, he⟩ | ⟨hno, he⟩
  · refine ⟨_, a, b, _, ?_, h.also (by decide) (h.traced hw (by decide) htr),
      .around List.mem_cons_self⟩
    rw [he, ← helper_dressed, hw]
  obtain ⟨hlast, hlen, hout⟩ := semi_place h hw hfix
  rw [← or_assoc] at hout
  rcases hout with hout | ⟨rfl, hopen⟩
  · obtain ⟨site, rfl, rfl, hfront, hback⟩ := place_at hw hout
    rw [← hfront] at hlast hlen
    have hended := site.ended h.entry.body (.inr hlast)
    obtain ⟨j, hj, hsame⟩ := h.grow (probes_fit createdProbe (by simp)) (.inl hended)
      (.inl hended) (fun hsev : Severed true _ => hsev.last hlast)
    obtain rfl := hsame hlen
    refine ⟨_, site.top createdProbe, site.bottom createdProbe, _, ?_,
      hj.also (by decide) (site.gets (by decide)), .around List.mem_cons_self⟩
    rw [he, put_behind, ← helper_dressed, site.text, hfront, hback]
    rfl
  · have hlabel := helper_apart h.entry.mem (l := "STN: AFTER_PTHREAD_CREATE") (by decide)
    refine ⟨labels, a, b, createdFront, after_within h hw hfix hopen hno, h, .within rfl ?_ hopen⟩
    rw [createdLabel, ← occurs_around hlabel, ← hw]
    exact hno

/-- Whether the probe behind the call is in the text around the helper. -/
def kept (p : Path) (s : Text) : Bool :=
  match introSite p s with
  | .ok (a, b) => has createdLabel a b
  | .error _ => false

theorem kept_around {y : Text} (ha : Ahead a) (hy : IsBody y) (p : Path) :
    kept p (a ++ (introHead ++ y) ++ b) = has createdLabel a b := by
  rw [kept, ha.site hy b p]

/-- The probe before the call of `introduce_thread` does not sever the call of
`pthread_create`, and the one behind it is clear of the helper. -/
def AroundSteady (p : Path) (w : Work) (pos : Int) : Prop :=
  LwipThread.traced "STN: BEFORE_INTRODUCE" w.text = false → ∀ ifPos call close,
    find (text "if (0 == code)") w.text pos = ifPos → find introduceCall w.text ifPos = call →
    find (text ");") (beforeIntroduce call w).text
      (find introduceCall (beforeIntroduce call w).text ifPos) = close →
    severs (kept p w.text) (w.text.take call.toNat) = false ∧
      Clear p (beforeIntroduce call w).text (close + 2).toNat

theorem around_state {p : Path} {pos : Int} {f : Text} (h : State labels e i a b)
    (hm : Marked labels a b e f) (hw : w.text = a ++ dressed f ++ b) (hpos : pos = (i : Nat))
    (hrun : aroundIntroduce pos w = .ok w') (hsteady : AroundSteady p w pos) :
    ∃ labels' a' b' j, w'.text = a' ++ dressed f ++ b' ∧ State labels' e j a' b' ∧
      Marked labels' a' b' e f ∧ "STN: BEFORE_INTRODUCE" ∈ labels' := by
  obtain ⟨hbody, hintro, hapart⟩ := fronts_spec f (hm.mem h.entry.mem)
  rcases aroundIntroduce_cases hrun with ⟨htr, rfl⟩ |
    ⟨hno, ifPos, call, close, w₁, hif, hif0, hcall, hcall0, rfl, hclose, hclose0, rfl⟩
  · have hin : has (diagLabel "STN: BEFORE_INTRODUCE") a b = true := by
      rw [← occurs_around (hapart _ (by decide)), ← hw]
      exact htr
    exact ⟨_, a, b, i, hw, h.also (by decide) hin, hm.also _, List.mem_cons_self⟩
  obtain ⟨hsev, hclear⟩ := hsteady hno _ _ _ hif hcall hclose
  rw [hw, dressed, kept_around h.base.ahead hbody, ← dressed, ← hw] at hsev
  have hlate : pos ≤ ifPos := by
    rw [← hif] at hif0 ⊢
    exact find_ge (by omega) hif0
  have hlate' : ifPos ≤ call := by
    rw [← hcall] at hcall0 ⊢
    exact find_ge hif0 hcall0
  obtain ⟨u, v, hs, rfl, -⟩ := find_take (by decide) hcall hcall0
  have htake : w.text.take u.length = u := by rw [hs, List.append_assoc, List.take_left]
  have hdrop : w.text.drop u.length = introduceCall ++ v := by
    rw [hs, List.append_assoc, List.drop_left]
  rw [Int.toNat_natCast] at hsev
  have hout := (Apart.of_apart hintro).outside (hw.symm.trans hs)
  rw [List.length_append] at hout
  obtain ⟨a', b', j, htext, hstate, hmarked, hgets⟩ := h.probe (n := u.length) hm hw
    (probes_fit callProbe (by simp)) (probes_created _ (by simp)) (by omega)
    (.inr ⟨by rw [hdrop]; exact List.prefix_append _ v, by rw [htake]; omega⟩)
    (fun hsevered => by simp [hsevered.severs] at hsev)
  have hbefore : (beforeIntroduce u.length w).text = a' ++ dressed f ++ b' := by
    rw [← htext]
    simp [beforeIntroduce, Work.put, Insertion.new, callProbe]
  obtain ⟨u', v', -, hk, htake'⟩ := find_take (by decide) hclose hclose0
  have htwo : ((text ");").length : Int) = 2 := rfl
  rw [htwo] at htake'
  have hlast : ((beforeIntroduce u.length w).text.take (close + 2).toNat).getLast? = some ';' := by
    rw [htake', List.getLast?_append_of_ne_nil _ (by decide)]
    rfl
  rw [hbefore] at hclear
  obtain ⟨a₂, b₂, j₂, htext₂, hstate₂, hmarked₂, -⟩ :=
    (hstate.also (l := "STN: BEFORE_INTRODUCE") (by decide) (hgets _ (by decide))).probe
      (hmarked.also _) hbefore (probes_fit returnedProbe (by simp)) (probes_created _ (by simp))
      (hclear.out hstate.base.ahead hbody) (.inl (.inr hlast)) (fun hsevered => hsevered.last hlast)
  refine ⟨_, a₂, b₂, j₂, ?_, hstate₂, hmarked₂, List.mem_cons_self⟩
  rw [afterIntroduce, put_behind]
  exact htext₂

end

end SwitchLdnZt.Proofs.ThreadState
