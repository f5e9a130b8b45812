import SwitchLdnZt.Scripts.LwipThread

namespace SwitchLdnZt.Scripts.LwipThread
open Library Preprocess

def mainCpp : Path := ["source", "main.cpp"]

/-- The diagnostic timing of the app, where its source is there. -/
def patchMain (t : Tree) : Result Tree :=
  if (t.raw mainCpp).isSome then
    edit mainCpp (fun s => .ok (some
      (replaceAll (text "5000000000ULL") (text "3000000000ULL") s))) t
  else .ok t

/-- The first file of that name under `libzt` that reads as such a text. -/
def findText (t : Tree) (name : String) (wanted : Text → Bool) : Option Path :=
  (t.rglob "libzt" name).find? (fun p =>
    match t.readText p with
    | .ok s => wanted s
    | .error _ => false)

/-- `find_file`; `tuple` is how Python shows what is required. -/
def located (t : Tree) (name : String) (required : List Text) (tuple : String) : Result Path :=
  match findFile t name required with
  | some p => .ok p
  | none => exit s!"ERROR: could not find {name} containing {tuple}"

def locateSysArch (t : Tree) : Result Path :=
  located t "sys_arch.c" [text "sys_thread_new", text "pthread_create"]
    "('sys_thread_new', 'pthread_create')"

def locateVirtualTap (t : Tree) : Result Path :=
  located t "VirtualTap.cpp" [text "zts_main_lwip_driver_loop"] "('zts_main_lwip_driver_loop',)"

def locateTcpip (t : Tree) : Result Path :=
  located t "tcpip.c" [text "tcpip_thread", text "tcpip_init", text "sys_thread_new"]
    "('tcpip_thread', 'tcpip_init', 'sys_thread_new')"

def written (w : Work) : Option Text := some w.text

/-- The probe of the thread's function, written where it is not there yet. -/
def wrapperEdit (s : Text) : Result (Option Text) :=
  if traced "thread_wrapper: child thread alive" s then .ok none
  else (wrapperProbe ⟨s, []⟩).map written

def nowPattern : Pattern :=
  [lits "static inline int64_t now()" ++ ws ++ lits "\x7b" ++ anyFew ++ lits "\x7d;"]

/-- `new_now` -/
def newNow : Text := lines ["static inline int64_t now()",
  "\t\x7b",
  "#ifdef __SWITCH__",
  "\t\tstatic int64_t switch_wallclock_baseline_ms = 0;",
  "\t\tstatic u64 switch_tick_baseline = 0;",
  "\t\tif (switch_tick_baseline == 0) \x7b",
  "\t\t\tstruct timeval tv0;",
  "\t\t\tgettimeofday(&tv0,(struct timezone *)0);",
  "\t\t\tswitch_wallclock_baseline_ms = (1000LL * (int64_t)tv0.tv_sec) + " ++
    "(int64_t)(tv0.tv_usec / 1000);",
  "\t\t\tswitch_tick_baseline = armGetSystemTick();",
  "\t\t\x7d",
  "\t\tconst u64 switch_monotonic_now = armGetSystemTick();",
  "\t\tconst int64_t switch_elapsed_ms = (int64_t)(armTicksToNs(switch_monotonic_now - " ++
    "switch_tick_baseline) / 1000000ULL);",
  "\t\treturn switch_wallclock_baseline_ms + switch_elapsed_ms;",
  "#elif defined(__WINDOWS__)",
  "\t\tFILETIME ft;",
  "\t\tSYSTEMTIME st;",
  "\t\tULARGE_INTEGER tmp;",
  "\t\tGetSystemTime(&st);",
  "\t\tSystemTimeToFileTime(&st,&ft);",
  "\t\ttmp.LowPart = ft.dwLowDateTime;",
  "\t\ttmp.HighPart = ft.dwHighDateTime;",
  "\t\treturn (int64_t)( ((tmp.QuadPart - 116444736000000000LL) / 10000L) + st.wMilliseconds );",
  "#else",
  "\t\tstruct timeval tv;",
  "\t\tgettimeofday(&tv,(struct timezone *)0);",
  "\t\treturn ( (1000LL * (int64_t)tv.tv_sec) + (int64_t)(tv.tv_usec / 1000) );",
  "#endif",
  "\t\x7d;"]

def switchInclude : Text := text "#ifdef __SWITCH__\n#include <switch.h>"

/-- `text.find('#include')` as where a slice ends: from -1 on it leaves out the last
character. -/
def includeAnchor (s : Text) : Nat :=
  let i := find (text "#include") s 0
  if i < 0 then s.length - 1 else i.toNat

def osUtils (s : Text) : Result (Option Text) :=
  if occurs (text "switch_monotonic_now") s then .ok none
  else match search nowPattern s with
    | none =>
      exit "ERROR: could not locate OSUtils::now() to add the Switch monotonic-clock fix."
    | some (before, _, after) =>
      let s := before ++ newNow ++ after
      if occurs switchInclude s then .ok (some s)
      else .ok (some (s.take (includeAnchor s) ++ (switchInclude ++ text "\n#endif\n") ++
        s.drop (includeAnchor s)))

def patchOSUtils (t : Tree) : Result Tree :=
  match findText t "OSUtils.hpp" (fun _ => true) with
  | some p => edit p osUtils t
  | none => .ok t

def inlineAnchor : Text := text "#ifndef ZT_INLINE\n#define ZT_INLINE inline\n#endif\n"

/-- What stands behind the anchor in `byte_order_fix`. -/
def byteOrderFix : Text := lines ["",
  "// __SWITCH__ byte order fix: none of the platform branches below match a",
  "// Switch build, and the generic <endian.h> fallback further down was",
  "// disabled by an earlier patch. Define it explicitly instead of letting it",
  "// silently stay undefined (which would evaluate as big-endian in #if checks).",
  "// aarch64 on Switch always runs little-endian.",
  "#ifdef __SWITCH__",
  "#ifndef __BYTE_ORDER",
  "#define __BIG_ENDIAN 4321",
  "#define __LITTLE_ENDIAN 1234",
  "#define __BYTE_ORDER __LITTLE_ENDIAN",
  "#endif",
  "#endif",
  ""]

def fixMarker : Text := text "__SWITCH__ byte order fix"

def byteOrder (s : Text) : Result (Option Text) :=
  if occurs fixMarker s then .ok none
  else if occurs inlineAnchor s then
    .ok (some (replaceFirst inlineAnchor (inlineAnchor ++ byteOrderFix) s))
  else exit "ERROR: could not locate anchor point in Constants.hpp for byte-order fix"

def patchConstants (t : Tree) : Result Tree :=
  match findText t "Constants.hpp" (fun s => occurs fixMarker s || occurs (text "ZT_INLINE") s) with
  | some p => edit p byteOrder t
  | none => .ok t

/-- patch-lwip-switch-thread.py -/
def patchLwip (t : Tree) : Result Tree := do
  let t ← patchMain t
  let p ← locateSysArch t
  let t ← edit p (fun s => (sysArch p s).map written) t
  let v ← locateVirtualTap t
  let t ← edit v (fun s => (virtualTap s).map written) t
  let c ← locateTcpip t
  let t ← edit c (fun s => (tcpip c s).map written) t
  let t ← edit p wrapperEdit t
  let t ← patchOSUtils t
  patchConstants t

end SwitchLdnZt.Scripts.LwipThread
