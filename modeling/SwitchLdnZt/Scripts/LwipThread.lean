import SwitchLdnZt.Library.Insertion
import SwitchLdnZt.Scripts.Tree

namespace SwitchLdnZt.Scripts.LwipThread
open Library Preprocess

/-- The macro that the Switch's toolchain defines. -/
def switch : Text := text "__SWITCH__"

/-- A file's text and, as a record that nothing reads, what went into it. -/
structure Work where
  text : Text
  log : List Insertion

def Work.put (w : Work) (i : Insertion) : Work := ⟨i.new switch, w.log ++ [i]⟩

/-- `{indent}printf("[SWITCH-DIAG] {label}\n");` and `{indent}consoleUpdate(NULL);` -/
def printDiag (indent : Text) (label : String) : Text :=
  indent ++ text "printf(\"[SWITCH-DIAG] " ++ text label ++ text "\\n\");"

def update (indent : Text) : Text := indent ++ text "consoleUpdate(NULL);"

def diag (indent : Text) (label : String) : List Text := [printDiag indent label, update indent]

def traced (label : String) (s : Text) : Bool := occurs (text "[SWITCH-DIAG] " ++ text label) s

def two : Text := text "  "
def four : Text := text "    "

/-- The text up to the end of a pattern's first match, and the text behind it. -/
def upTo (pat : Pattern) (s : Text) : Option (Text × Text) :=
  (search pat s).map (fun (before, segs, after) => (before ++ segs.flatten, after))

def introducePattern : Pattern :=
  [lits "static" ++ ws1 ++ lits "struct" ++ ws1 ++ lits "sys_thread" ++ ws ++ lits "*" ++ ws ++
    lits "introduce_thread" ++ ws ++ lits "(" ++ ws ++ lits "pthread_t" ++ ws1 ++ lits "id" ++ ws ++
    lits ")" ++ ws ++ lits "\x7b"]

/-- `\s*\([^;{}]*\)\s*\{` -/
def parametersAndBrace : List Item :=
  ws ++ lits "(" ++ [.many (.noneOf [';', '\x7b', '\x7d'])] ++ lits ")" ++ ws ++ lits "\x7b"

def threadNewPattern : Pattern :=
  [lits "sys_thread_t" ++ ws1 ++ lits "sys_thread_new" ++ parametersAndBrace]

def createPattern : Pattern :=
  [lits "pthread_create" ++ ws ++ lits "(" ++ ws ++ lits "&tmp" ++ ws ++ lits ","]

def wrapperPattern : Pattern :=
  [lits "thread_wrapper" ++ ws ++ lits "(" ++ ws ++ lits "void" ++ ws ++ lits "*" ++ ws ++
    lits "arg" ++ ws ++ lits ")" ++ ws ++ lits "\x7b"]

def driverPattern : Pattern :=
  [lits "zts_main_lwip_driver_loop" ++ ws ++ lits "(" ++ [.many (.noneOf [')'])] ++ lits ")" ++
    ws ++ lits "\x7b"]

/-- `((?:static\s+)?void\s+{name}\s*\([^;{}]*\)\s*\{)` -/
def voidPattern (name : String) : Pattern :=
  let function := lits "void" ++ ws1 ++ lits name ++ parametersAndBrace
  [lits "static" ++ ws1 ++ function, function]

def introHeader : List Text :=
  [text "static struct sys_thread *", text "introduce_thread(pthread_t id)", text "\x7b"]

def introSwitch : List Text :=
  [text "  static struct sys_thread switch_threads[32];",
    text "  static volatile unsigned int switch_thread_count = 0;",
    text "  unsigned int slot = __sync_fetch_and_add(&switch_thread_count, 1);",
    text "  if (slot >= 32) return NULL;",
    text "  switch_threads[slot].next = NULL;",
    text "  switch_threads[slot].pthread = id;",
    text "  return &switch_threads[slot];"]

def introOther : List Text :=
  [text "  struct sys_thread *thread;",
    text "  thread = (struct sys_thread *)malloc(sizeof(struct sys_thread));",
    text "  if (thread != NULL) \x7b",
    text "    pthread_mutex_lock(&threads_mutex);",
    text "    thread->next = threads;",
    text "    thread->pthread = id;",
    text "    threads = thread;",
    text "    pthread_mutex_unlock(&threads_mutex);",
    text "  \x7d",
    text "  return thread;"]

def intro : Text :=
  rows (introHeader ++ ifdef switch :: (introSwitch ++ text "#else" :: (introOther ++
    [text "#endif"]))) ++ text "\x7d"

/-- The text before `introduce_thread` and the text behind its body. -/
def introSite (p : Path) (s : Text) : Result (Text × Text) :=
  match search introducePattern s with
  | none => exit s!"ERROR: introduce_thread() not found in {shown p}"
  | some (before, _) =>
    match closeFrom '\x7b' '\x7d' s (find (text "\x7b") s before.length) with
    | none => exit "ERROR: could not parse introduce_thread()"
    | some i => .ok (before, s.drop (i + 1))

def includes : List Text := [text "#include <stdio.h>", text "#include <switch.h>"]

def includeSwitch (marker : Text) (w : Work) : Work :=
  if occurs (text "#include <switch.h>") w.text then w
  else match cut marker w.text with
    | some (a, b) => w.put (.behind (a ++ marker) includes b)
    | none => w

/-- A probe where a function begins. -/
def enter (pat : Pattern) (missing : String) (indent : Text) (label : String) (w : Work) :
    Result Work :=
  match upTo pat w.text with
  | none => exit missing
  | some (head, tail) =>
    if traced label w.text then .ok w else .ok (w.put (.behind head (diag indent label) tail))

/-- `fn_start`, where the match may have been lost -/
def threadNewStart (s : Text) : Result Nat :=
  match upTo threadNewPattern s with
  | none => .error .noMatch
  | some (head, _) => .ok head.length

def createPos (s : Text) (fnStart : Nat) : Int :=
  match search createPattern (s.drop fnStart) with
  | some (before, _) => fnStart + before.length
  | none => -1

def stackFix : List Text :=
  [text "  pthread_attr_t switch_attr;",
    text "  pthread_attr_init(&switch_attr);",
    text "  pthread_attr_setstacksize(&switch_attr, 256 * 1024);",
    text "  code = pthread_create(&tmp, &switch_attr, thread_wrapper, thread_data);",
    text "  pthread_attr_destroy(&switch_attr);"]

/-- The text with its `pthread_create` given a stack size, where that call is in
it, and its semicolon. -/
def fixStack (w : Work) : Result (Work × Int × Int) := do
  let s := w.text
  let pos := createPos s (← threadNewStart s)
  if pos < 0 then exit "ERROR: pthread_create() not found inside sys_thread_new()"
  else match closeFrom '(' ')' s (find (text "(") s pos) with
    | none => exit "ERROR: unmatched pthread_create() in sys_thread_new()"
    | some closeParen =>
      let semi := find (text ";") s closeParen
      if semi < 0 then exit "ERROR: pthread_create() has no terminator"
      else if occurs (text "&switch_attr") (slice s pos (semi + 1)) then return (w, pos, semi)
      else
        let stmtStart := lineStart s pos.toNat
        let w := w.put (.instead (s.take stmtStart) stackFix (slice s stmtStart (semi + 1))
          (s.drop (semi + 1).toNat))
        let pos := createPos w.text (← threadNewStart w.text)
        let closeParen := find (text ")") w.text (find (text "(") w.text pos)
        return (w, pos, find (text ";") w.text closeParen)

def afterCreate (semi : Int) (w : Work) : Work :=
  if traced "STN: AFTER_PTHREAD_CREATE" w.text then w
  else w.put (.behind (w.text.take (semi + 1).toNat) (diag two "STN: AFTER_PTHREAD_CREATE")
    (w.text.drop (semi + 1).toNat))

def introduceCall : Text := text "st = introduce_thread("

def aroundIntroduce (pos : Int) (w : Work) : Result Work := do
  if traced "STN: BEFORE_INTRODUCE" w.text then return w
  else
    let p := find (text "if (0 == code)") w.text pos
    if p < 0 then exit "ERROR: expected if (0 == code) block not found"
    else
      let call := find introduceCall w.text p
      if call < 0 then exit "ERROR: introduce_thread() call not found"
      else
        let w := w.put (.before (w.text.take call.toNat) (diag four "STN: BEFORE_INTRODUCE") four
          (w.text.drop call.toNat))
        let call := find introduceCall w.text p
        let close := find (text ");") w.text call
        if close < 0 then exit "ERROR: introduce_thread() call terminator not found"
        else return w.put (.behind (w.text.take (close + 2).toNat)
          (diag four "STN: AFTER_INTRODUCE") (w.text.drop (close + 2).toNat))

def introMarker : Text := text "introduce_thread(pthread_t id)\n\x7b"
def slotTarget : Text := text "switch_threads[slot].pthread = id;"

def introProbe (w : Work) : Result Work :=
  if traced "INTRO: ENTER" w.text then .ok w
  else match cut introMarker w.text with
    | none => exit "ERROR: rewritten introduce_thread() marker not found"
    | some (a, b) =>
      let w := w.put (.behind (a ++ introMarker) (diag two "INTRO: ENTER") b)
      match cut slotTarget w.text with
      | some (a, b) =>
        .ok (w.put (.within (a ++ slotTarget) [printDiag two "INTRO: SLOT_OK"] (update two) b))
      | none => .ok w

def sysArch (p : Path) (s : Text) : Result Work := do
  let (before, after) ← introSite p s
  let w := includeSwitch (text "#include <pthread.h>") ⟨before ++ intro ++ after, []⟩
  let w ← enter threadNewPattern "ERROR: sys_thread_new() definition not found" two "STN: ENTER" w
  let (w, pos, semi) ← fixStack w
  let w ← aroundIntroduce pos (afterCreate semi w)
  introProbe w

/-- `wrap_first_call`; where the statement's end is found before its line, the text
between the two is there twice. -/
def wrapFirstCall (fnName : Text) (label : String) (w : Work) : Result Work :=
  let s := w.text
  if traced ("DRIVER: BEFORE_" ++ label) s then .ok w
  else
    let pos := find fnName s (find (text "zts_main_lwip_driver_loop") s 0)
    if pos < 0 then exit s!"ERROR: {String.ofList fnName} not found in driver"
    else match closeFrom '(' ')' s (find (text "(") s pos) with
      | none => exit s!"ERROR: unmatched {String.ofList fnName}()"
      | some cp =>
        let semi := find (text ";") s cp
        if semi < 0 then exit s!"ERROR: no terminator after {String.ofList fnName}()"
        else
          let ls := lineStart s pos.toNat
          let indent := (slice s ls pos).takeWhile (fun c => c = ' ' || c = '\t')
          let stmt := slice s ls (semi + 1)
          let tail := s.drop (semi + 1).toNat
          let before := diag indent ("DRIVER: BEFORE_" ++ label)
          let after := diag indent ("DRIVER: AFTER_" ++ label)
          let first := s.take ls ++ (guarded switch before ++ '\n' :: stmt)
          if ls ≤ semi + 1 then
            .ok ((w.put (.before (s.take ls) before [] (stmt ++ tail))).put
              (.behind first after tail))
          else .ok (w.put (.other s (first ++ '\n' :: (guarded switch after ++ tail))))

def virtualTap (s : Text) : Result Work := do
  let w ← enter driverPattern "ERROR: zts_main_lwip_driver_loop() definition not found" four
    "DRIVER: ENTER" ⟨s, []⟩
  let w ← wrapFirstCall (text "sys_sem_new") "SEM_NEW" w
  let w ← wrapFirstCall (text "tcpip_init") "TCPIP_INIT" w
  wrapFirstCall (text "sys_sem_wait") "SEM_WAIT" w

def beforeDone (w : Work) : Result Work :=
  if traced "TCPIP: BEFORE_DONE" w.text then .ok w
  else
    let p := find (text "if (tcpip_init_done != NULL)") w.text
      (find (text "tcpip_thread(") w.text 0)
    if p < 0 then exit "ERROR: tcpip_init_done block not found"
    else .ok (w.put (.before (w.text.take p.toNat) (diag four "TCPIP: BEFORE_DONE") four
      (w.text.drop p.toNat)))

def afterDone (w : Work) : Result Work :=
  if traced "TCPIP: AFTER_DONE" w.text then .ok w
  else
    let p := find (text "tcpip_init_done(") w.text (find (text "tcpip_thread(") w.text 0)
    if p < 0 then exit "ERROR: tcpip_init_done call not found"
    else
      let semi := find (text ";") w.text p
      if semi < 0 then exit "ERROR: tcpip_init_done call has no terminator"
      else .ok (w.put (.behind (w.text.take (semi + 1).toNat) (diag four "TCPIP: AFTER_DONE")
        (w.text.drop (semi + 1).toNat)))

def tcpip (p : Path) (s : Text) : Result Work := do
  let w := includeSwitch (text "#include \"lwip/opt.h\"") ⟨s, []⟩
  let w ← enter (voidPattern "tcpip_thread")
    s!"ERROR: tcpip_thread() definition not found in {shown p}" two "TCPIP: THREAD_ENTER" w
  let w ← enter (voidPattern "tcpip_init")
    s!"ERROR: tcpip_init() definition not found in {shown p}" two "TCPIP: INIT_ENTER" w
  let w ← beforeDone w
  afterDone w

/-- The probe in the thread's own function, put into sys_arch.c at the end. -/
def wrapperProbe (w : Work) : Result Work :=
  let label := "thread_wrapper: child thread alive"
  if traced label w.text then .ok w
  else enter wrapperPattern "ERROR: could not locate thread_wrapper() for child-thread probe" two
    label w

end SwitchLdnZt.Scripts.LwipThread
