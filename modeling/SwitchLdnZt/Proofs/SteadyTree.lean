import SwitchLdnZt.Proofs.StartupRerun
import SwitchLdnZt.Proofs.ThreadRerun

namespace SwitchLdnZt.Proofs.SteadyTree
open Library Scripts LwipThread ThreadCall ThreadState ThreadRerun StartupRerun

def sysArchWords : List Text := [text "sys_thread_new", text "pthread_create"]
def virtualTapWords : List Text := [text "zts_main_lwip_driver_loop"]
def tcpipWords : List Text := [text "tcpip_thread", text "tcpip_init", text "sys_thread_new"]

/-- In none of the files that the script finds does an edit break what a second run
goes by. -/
structure LwipSteady (t : Tree) : Prop where
  sysArch : ∀ p s, findFile t "sys_arch.c" sysArchWords = some p → t.readText p = .ok s →
    SysArchSteady p s ∧ ∀ w, sysArch p s = .ok w → WrapperSteady p w
  virtualTap : ∀ p s, findFile t "VirtualTap.cpp" virtualTapWords = some p →
    t.readText p = .ok s → VirtualTapSteady s
  tcpip : ∀ p s, findFile t "tcpip.c" tcpipWords = some p → t.readText p = .ok s →
    TcpipSteady p s

/-- Whether this holds of what comes out, if anything does. -/
def after {α : Type} (r : Result α) (check : α → Bool) : Bool :=
  match r with
  | .ok a => check a
  | .error _ => true

theorem after_ok {α : Type} {r : Result α} {check : α → Bool} (h : after r check = true) {a : α}
    (hr : r = .ok a) : check a = true := by
  rw [hr] at h
  exact h

section
variable {p : Path} {s : Text} {w : Work}

def isClear (p : Path) (s : Text) (n : Nat) : Bool :=
  after (introSite p s) (fun (a, b) => n ≤ a.length || s.length - b.length ≤ n)

theorem clear_of {n : Nat} (h : isClear p s n = true) : Clear p s n := by
  intro a b hsite
  simpa using after_ok h hsite

/-- The function, the call that the script finds in it and the semicolon behind that. -/
def callPlaces (s : Text) : Result (Nat × Int × Int) := do
  let fnStart ← threadNewStart s
  let pos := createPos s fnStart
  match closeFrom '(' ')' s (find (text "(") s pos) with
  | some closeParen => return (fnStart, pos, find (text ";") s closeParen)
  | none => .error .noMatch

theorem places_of {fnStart : Nat} {pos semi : Int} (h : CallFound s fnStart pos semi) :
    callPlaces s = .ok (fnStart, pos, semi) := by
  obtain ⟨hstart, hcreate, -, ⟨closeParen, hclose, hsemi⟩, -⟩ := h
  refine bind_ok.mpr ⟨fnStart, hstart, ?_⟩
  dsimp only
  rw [hcreate, hclose]
  dsimp only
  rw [hsemi]
  rfl

def callSteady (p : Path) (s : Text) : Bool :=
  after (callPlaces s) (fun (fnStart, pos, semi) =>
    occurs switchAttr (slice s pos (semi + 1)) ||
      (fnStart ≤ lineStart s pos.toNat && isClear p s (lineStart s pos.toNat) &&
        isClear p s (semi + 1).toNat))

theorem callSteady_of (h : callSteady p s = true) : OwnLine s ∧ StatementClear p s := by
  have hall {fnStart : Nat} {pos semi : Int} (hcall : CallFound s fnStart pos semi)
      (hno : occurs switchAttr (slice s pos (semi + 1)) = false) :
      (fnStart ≤ lineStart s pos.toNat ∧ isClear p s (lineStart s pos.toNat) = true) ∧
        isClear p s (semi + 1).toNat = true := by
    have hcheck := after_ok h (places_of hcall)
    dsimp only at hcheck
    simpa [hno] using hcheck
  refine ⟨fun _ _ _ hcall hno => (hall hcall hno).1.1, fun _ _ _ hcall hno => ?_⟩
  obtain ⟨⟨-, hline⟩, hsemi⟩ := hall hcall hno
  exact ⟨clear_of hline, clear_of hsemi⟩

def aroundSteady (p : Path) (w : Work) (pos : Int) : Bool :=
  let ifPos := find (text "if (0 == code)") w.text pos
  let call := find introduceCall w.text ifPos
  let w' := beforeIntroduce call w
  let close := find (text ");") w'.text (find introduceCall w'.text ifPos)
  traced "STN: BEFORE_INTRODUCE" w.text ||
    (!severs (kept p w.text) (w.text.take call.toNat) && isClear p w'.text (close + 2).toNat)

theorem aroundSteady_of {pos : Int} (h : aroundSteady p w pos = true) : AroundSteady p w pos := by
  rintro hno _ _ _ rfl rfl rfl
  simp only [aroundSteady, hno, Bool.false_or, Bool.and_eq_true, Bool.not_eq_true'] at h
  exact ⟨h.1, clear_of h.2⟩

def introSteady (p : Path) (w : Work) : Bool :=
  traced "INTRO: ENTER" w.text || after (introSite p w.text) (fun (a, _) =>
    occurs introMarker a == occurs slotTarget a &&
      (cut introMarker a).all (fun (u, _) => !severs (kept p w.text) (u ++ introMarker)))

theorem introSteady_of (h : introSteady p w = true) : IntroSteady p w := by
  intro hno a b hsite
  rw [introSteady, hno, Bool.false_or] at h
  have hcheck := after_ok h hsite
  dsimp only at hcheck
  rw [Bool.and_eq_true, beq_iff_eq] at hcheck
  refine ⟨hcheck.1, ?_⟩
  intro u v hcut
  have hsev := hcheck.2
  rw [hcut] at hsev
  simpa using hsev

def sysArchSteady (p : Path) (s : Text) : Bool :=
  after (introSite p s) (fun (a, b) =>
    after (enter threadNewPattern "ERROR: sys_thread_new() definition not found" two "STN: ENTER"
      (includeSwitch pthreadHeader ⟨a ++ intro ++ b, []⟩)) (fun w =>
        callSteady p w.text && after (fixStack w) (fun (w', pos, semi) =>
          aroundSteady p (afterCreate semi w') pos &&
          after (aroundIntroduce pos (afterCreate semi w')) (introSteady p))))

theorem sysArchSteady_of (h : sysArchSteady p s = true) : SysArchSteady p s := by
  constructor
  intro a b hsite w henter
  have hw := after_ok (after_ok h hsite) henter
  rw [Bool.and_eq_true] at hw
  obtain ⟨hown, hclear⟩ := callSteady_of hw.1
  refine ⟨hown, hclear, ?_⟩
  intro w' pos semi hfix
  have hfixed := after_ok hw.2 hfix
  rw [Bool.and_eq_true] at hfixed
  exact ⟨aroundSteady_of hfixed.1, fun w'' hrun => introSteady_of (after_ok hfixed.2 hrun)⟩

def wrapperSteady (p : Path) (w : Work) : Bool :=
  traced "thread_wrapper: child thread alive" w.text ||
    (upTo wrapperPattern w.text).all (fun (head, _) => !severs (kept p w.text) head)

theorem wrapperSteady_of (h : wrapperSteady p w = true) : WrapperSteady p w := by
  intro hno head tail hup
  rw [wrapperSteady, hno, Bool.false_or, hup] at h
  simpa using h

def unbroken (pat : Pattern) (parts : List Text) : Bool :=
  parts.any (fun x => (search pat x).isSome)

theorem unbroken_of {pat : Pattern} {parts : List Text} (h : unbroken pat parts = true) :
    Unbroken pat parts := List.any_eq_true.mp h

def wrapSteady (fnName : Text) (label : String) (s : Text) : Bool :=
  traced ("DRIVER: BEFORE_" ++ label) s || (wrapPlaces fnName s).all (fun (ls, semi) =>
    unbroken driverPattern [s.take ls, slice s ls (semi + 1), s.drop (semi + 1).toNat])

theorem wrapSteady_of {fnName : Text} {label : String} (h : wrapSteady fnName label s = true) :
    WrapSteady fnName label s := by
  intro hno ls semi hplaces
  rw [wrapSteady, hno, Bool.false_or, hplaces] at h
  exact unbroken_of h

def virtualTapSteady (s : Text) : Bool :=
  after (enter driverPattern "ERROR: zts_main_lwip_driver_loop() definition not found" four
    "DRIVER: ENTER" ⟨s, []⟩) (fun w => wrapSteady (text "sys_sem_new") "SEM_NEW" w.text &&
      after (wrapFirstCall (text "sys_sem_new") "SEM_NEW" w) (fun w' =>
        wrapSteady (text "tcpip_init") "TCPIP_INIT" w'.text &&
          after (wrapFirstCall (text "tcpip_init") "TCPIP_INIT" w') (fun w'' =>
            wrapSteady (text "sys_sem_wait") "SEM_WAIT" w''.text)))

theorem virtualTapSteady_of (h : virtualTapSteady s = true) : VirtualTapSteady s := by
  constructor
  intro w henter
  have hw := after_ok h henter
  rw [Bool.and_eq_true] at hw
  refine ⟨wrapSteady_of hw.1, ?_⟩
  intro w' hnew
  have hw' := after_ok hw.2 hnew
  rw [Bool.and_eq_true] at hw'
  exact ⟨wrapSteady_of hw'.1, fun w'' hinit => wrapSteady_of (after_ok hw'.2 hinit)⟩

def doneSteady (s : Text) : Bool :=
  let i := find doneTest s (find (text "tcpip_thread(") s 0)
  traced "TCPIP: BEFORE_DONE" s ||
    tcpipNames.all (fun name => unbroken (voidPattern name) [s.take i.toNat, s.drop i.toNat])

theorem doneSteady_of (h : doneSteady s = true) : DoneSteady s := by
  rintro hno _ rfl name hname
  simp only [doneSteady, hno, Bool.false_or] at h
  exact unbroken_of (List.all_eq_true.mp h name hname)

def tcpipSteady (p : Path) (s : Text) : Bool :=
  after (enter (voidPattern "tcpip_thread")
    s!"ERROR: tcpip_thread() definition not found in {shown p}" two "TCPIP: THREAD_ENTER"
    (includeSwitch optHeader ⟨s, []⟩)) (fun w => after (enter (voidPattern "tcpip_init")
      s!"ERROR: tcpip_init() definition not found in {shown p}" two "TCPIP: INIT_ENTER" w)
        (fun w' => doneSteady w'.text))

theorem tcpipSteady_of (h : tcpipSteady p s = true) : TcpipSteady p s :=
  fun _ hthread _ hinit => doneSteady_of (after_ok (after_ok h hthread) hinit)

/-- Whether a file that the script finds fits. -/
def foundSteady (t : Tree) (name : String) (words : List Text) (check : Path → Text → Bool) :
    Bool :=
  (findFile t name words).all (fun p => after (t.readText p) (check p))

theorem found_steady {t : Tree} {name : String} {words : List Text} {check : Path → Text → Bool}
    (h : foundSteady t name words check = true) (hp : findFile t name words = some p)
    (hs : t.readText p = .ok s) : check p s = true := by
  rw [foundSteady, hp] at h
  exact after_ok h hs

def lwipSteady (t : Tree) : Bool :=
  foundSteady t "sys_arch.c" sysArchWords (fun p s =>
    sysArchSteady p s && after (sysArch p s) (wrapperSteady p)) &&
  foundSteady t "VirtualTap.cpp" virtualTapWords (fun _ s => virtualTapSteady s) &&
  foundSteady t "tcpip.c" tcpipWords tcpipSteady

theorem lwipSteady_of {t : Tree} (h : lwipSteady t = true) : LwipSteady t := by
  simp only [lwipSteady, Bool.and_eq_true] at h
  obtain ⟨⟨hsys, htap⟩, htcp⟩ := h
  refine ⟨?_, fun p s hp hs => virtualTapSteady_of (found_steady htap hp hs),
    fun p s hp hs => tcpipSteady_of (found_steady htcp hp hs)⟩
  intro p s hp hs
  have hcheck := found_steady hsys hp hs
  rw [Bool.and_eq_true] at hcheck
  exact ⟨sysArchSteady_of hcheck.1, fun w hw => wrapperSteady_of (after_ok hcheck.2 hw)⟩

end

end SwitchLdnZt.Proofs.SteadyTree
