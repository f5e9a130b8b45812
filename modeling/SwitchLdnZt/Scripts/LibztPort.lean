import SwitchLdnZt.Scripts.Tree

namespace SwitchLdnZt.Scripts.LibztPort
open Library

def cmakeLists : Path := ["libzt", "CMakeLists.txt"]
def constantsHpp : Path := ["libzt", "ext", "ZeroTierOne", "node", "Constants.hpp"]
def utilsHpp : Path := ["libzt", "ext", "ZeroTierOne", "node", "Utils.hpp"]
def utilsCpp : Path := ["libzt", "ext", "ZeroTierOne", "node", "Utils.cpp"]
def binderHpp : Path := ["libzt", "ext", "ZeroTierOne", "osdep", "Binder.hpp"]
def phyHpp : Path := ["libzt", "ext", "ZeroTierOne", "osdep", "Phy.hpp"]
def portCc : Path :=
  ["libzt", "ext", "lwip-contrib", "ports", "unix", "port", "include", "arch", "cc.h"]
def lwipCcWrapper : Path := ["libzt", "ext", "lwip", "src", "include", "arch", "cc.h"]
def prometheus (name : String) : Path :=
  ["libzt", "ext", "ZeroTierOne", "ext", "prometheus-cpp-lite-1.0", "core", "include",
    "prometheus", name]

/-- `file\s*\(\s*GLOB\s+ztcoreSrcGlob\b.*?\)`, the dot matching line ends; `word`
says which characters are alphanumeric or an underscore. -/
def globPattern (word : Char → Bool) : Pattern :=
  [lits "file" ++ ws ++ lits "(" ++ ws ++ lits "GLOB" ++ ws1 ++ lits "ztcoreSrcGlob" ++
    [.wordEnd word] ++ anyFew ++ lits ")"]

def globReplacement : Text := lines
  ["file(GLOB ztcoreSrcGlob",
    "    ${ZTO_SRC_DIR}/node/*.cpp",
    "    ${ZTO_SRC_DIR}/osdep/OSUtils.cpp",
    "    ${ZTO_SRC_DIR}/osdep/PortMapper.cpp)",
    "if(SWITCH OR CMAKE_SYSTEM_NAME STREQUAL \"Switch\")",
    "    list(REMOVE_ITEM ztcoreSrcGlob",
    "        ${ZTO_SRC_DIR}/node/VirtualTap.cpp",
    "        ${ZTO_SRC_DIR}/node/NodeService.cpp",
    "        ${ZTO_SRC_DIR}/osdep/PortMapper.cpp)",
    "endif()"]

def removeItem : Text := text "list(REMOVE_ITEM ztcoreSrcGlob"

def setPortDir : Text := text "set(LWIP_PORT_DIR ${PROJ_DIR}/ext/lwip-contrib/ports/unix/port)"

/-- `if\s*\(\s*UNIX\s*\)\s*\n\s*set\(LWIP_PORT_DIR\s+...\)\s*\n\s*endif\s*\(\s*\)` -/
def portDirPattern : Pattern :=
  [lits "if" ++ ws ++ lits "(" ++ ws ++ lits "UNIX" ++ ws ++ lits ")" ++ ws ++ lits "\n" ++ ws ++
    lits "set(LWIP_PORT_DIR" ++ ws1 ++
    lits "${PROJ_DIR}/ext/lwip-contrib/ports/unix/port)" ++ ws ++ lits "\n" ++ ws ++
    lits "endif" ++ ws ++ lits "(" ++ ws ++ lits ")"]

def portDirReplacement : Text := lines
  ["if(UNIX OR SWITCH OR CMAKE_SYSTEM_NAME STREQUAL \"Switch\")",
    "    set(LWIP_PORT_DIR ${PROJ_DIR}/ext/lwip-contrib/ports/unix/port)",
    "endif()"]

def miniupnpFlag : Text := text "set(ZT_FLAGS \"${ZT_FLAGS} -DZT_USE_MINIUPNPC=1\")"

/-- The bootstrap script's own rewrite of CMakeLists.txt. -/
def cmakeGlob (word : Char → Bool) : Tree → Result Tree := edit cmakeLists fun s => do
  let (s, n) := subFirst (globPattern word) (fun _ => globReplacement) s
  if n ≠ 1 ∧ ¬ occurs removeItem s then
    exit "Could not locate upstream ztcore source glob"
  let s := if occurs setPortDir s then (subFirst portDirPattern (fun _ => portDirReplacement) s).1
    else s
  return some (replaceFirst miniupnpFlag
    (text "if(NOT SWITCH AND NOT CMAKE_SYSTEM_NAME STREQUAL \"Switch\")\n    " ++ miniupnpFlag ++
      text "\nendif()") s)

def unixLikeBlock : Text := lines
  ["#ifdef __SWITCH__", "#ifndef __UNIX_LIKE__", "#define __UNIX_LIKE__", "#endif", "#endif",
    "", ""]

def constants : Tree → Result Tree := edit constantsHpp fun s =>
  if occurs unixLikeBlock s then return none
  else
    let marker := text "#ifdef __APPLE__\n"
    if occurs marker s then return some (replaceFirst marker (unixLikeBlock ++ marker) s)
    else exit "Constants.hpp insertion marker not found"

def stokPattern : Pattern :=
  [[.lineStart] ++ ws ++ lits "static" ++ ws1 ++ lits "inline" ++ ws1 ++ lits "char" ++ ws ++
    lits "*" ++ ws ++ lits "stok" ++ ws ++ lits "(" ++ anyFew ++ lits "\n" ++ ws ++
    lits "static" ++ ws1 ++ lits "inline" ++ ws1 ++ lits "unsigned" ++ ws1 ++ lits "int" ++ ws1 ++
    lits "strToUInt" ++ ws ++ lits "(const" ++ ws1 ++ lits "char" ++ ws ++ lits "*" ++ ws ++
    lits "s)"]

def stokReplacement : Text := lines
  ["", "\tstatic inline char* stok(char* str, const char* delim, char** saveptr)", "\t\x7b",
    "#ifdef __WINDOWS__", "\t\treturn strtok_s(str, delim, saveptr);",
    "#elif defined(__SWITCH__)", "\t\t(void)saveptr;", "\t\treturn strtok(str, delim);",
    "#else", "\t\treturn strtok_r(str, delim, saveptr);", "#endif", "\t\x7d", "",
    "\tstatic inline unsigned int strToUInt(const char* s)"]

def utils : Tree → Result Tree := edit utilsHpp fun s => do
  let (s, count) := subFirst stokPattern (fun _ => stokReplacement) s
  if count ≠ 1 then exit "Utils.hpp stok function not found"
  return some s

/-- An include, kept from the Switch. -/
def offSwitch (directive : Text) : Text :=
  text "#ifndef __SWITCH__\n" ++ directive ++ text "\n#endif"

def includePattern (header : String) : Pattern := [lits "#include" ++ ws ++ lits header]

def ifaddrsGuard : Text := offSwitch (text "#include <ifaddrs.h>")

/-- `^\s*#if\s*!\s*defined\(__ANDROID__\).*getifaddrs\(\).*$` -/
def androidPattern : Pattern :=
  [[.lineStart] ++ ws ++ lits "#if" ++ ws ++ lits "!" ++ ws ++ lits "defined(__ANDROID__)" ++
    [.many .inline] ++ lits "getifaddrs()" ++ [.many .inline] ++ [.lineEnd]]

def androidReplacement : Text :=
  text "#if ! defined(__ANDROID__) && ! defined(__SWITCH__)\t // getifaddrs unavailable on Switch"

def switchEnumOverride : Text :=
  text "#ifdef __SWITCH__\n\t\tinterfacesEnumerated = false;\n#endif"

def binder : Tree → Result Tree := edit binderHpp fun s => do
  let s ← if occurs ifaddrsGuard s then pure s
    else
      let (s, count) := subFirst (includePattern "<ifaddrs.h>") (fun _ => ifaddrsGuard) s
      if count ≠ 1 then exit "Binder.hpp ifaddrs include not found" else pure s
  let (s', count) := subFirst androidPattern (fun _ => androidReplacement) s
  let s ← if count ≠ 1 then
      if occurs androidReplacement s then pure s
      else exit "Binder.hpp getifaddrs guard line not found"
    else pure s'
  if occurs switchEnumOverride s then return some s
  else
    let marker := text "bool interfacesEnumerated = true;"
    if occurs marker s then
      return some (replaceFirst marker (marker ++ text "\n" ++ switchEnumOverride) s)
    else exit "Binder.hpp interface enumeration marker not found"

def sysUnGuard : Text := offSwitch (text "#include <sys/un.h>")

def sysUnPattern : Pattern := includePattern "<sys/un.h>"

def cleanupPattern : Pattern :=
  [[.lineStart] ++ ws ++ lits "#ifdef __UNIX_LIKE__" ++ ws ++ lits "\n" ++ ws ++
    lits "if (sws.type == ZT_PHY_SOCKET_UNIX_LISTEN)" ++ ws ++ lits "\n" ++ ws ++
    lits "::unlink(((struct sockaddr_un *)(&(sws.saddr)))->sun_path);" ++ ws ++ lits "\n" ++ ws ++
    lits "#endif" ++ ws ++ lits "// __UNIX_LIKE__"]

def cleanupReplacement : Text := lines
  ["", "#ifdef __UNIX_LIKE__", "#if !defined(__SWITCH__)",
    "\t\tif (sws.type == ZT_PHY_SOCKET_UNIX_LISTEN)",
    "\t\t\t::unlink(((struct sockaddr_un*)(&(sws.saddr)))->sun_path);",
    "#endif\t // !__SWITCH__", "#endif\t // __UNIX_LIKE__"]

/-- The edit of Phy.hpp; unlike Binder.hpp's it substitutes the include whether
or not it is guarded already. -/
def phyEdit (s : Text) : Result (Option Text) := do
  let (s', count) := subFirst sysUnPattern (fun _ => sysUnGuard) s
  if count ≠ 1 ∧ ¬ occurs sysUnGuard s then exit "Phy.hpp sys/un.h include not found"
  else
    let (s'', count) := subFirst cleanupPattern (fun _ => cleanupReplacement) s'
    if count ≠ 1 ∧ occurs (text "if (sws.type == ZT_PHY_SOCKET_UNIX_LISTEN)") s' then
      exit "Phy.hpp Unix-socket cleanup block not found"
    else return some s''

def phy : Tree → Result Tree := edit phyHpp phyEdit

def uioGuard : Text := offSwitch (text "#include <sys/uio.h>")

def hwcapsPattern : Pattern :=
  [[.lineStart] ++ ws ++ lits "const long hwcaps = getauxval(AT_HWCAP);"]

/-- `\1` is the indentation, the second piece of the pattern. -/
def hwcapsReplacement (segs : List Text) : Text :=
  let indent := segs.getD 1 []
  indent ++ text "#ifdef __SWITCH__\n" ++ indent ++ text "const long hwcaps = 0;\n" ++
    indent ++ text "#else\n" ++ indent ++ text "const long hwcaps = getauxval(AT_HWCAP);\n" ++
    indent ++ text "#endif"

def utilsImpl : Tree → Result Tree := edit utilsCpp fun s => do
  let (s', count) := subFirst (includePattern "<sys/uio.h>") (fun _ => uioGuard) s
  if count ≠ 1 ∧ ¬ occurs uioGuard s then exit "Utils.cpp sys/uio.h include not found"
  if occurs (text "#ifdef __SWITCH__\n\tconst long hwcaps = 0;") s' then return some s'
  else
    let (s'', count) := subFirst hwcapsPattern hwcapsReplacement s'
    if count ≠ 1 then exit "Utils.cpp getauxval probe not found"
    return some s''

def globMarker : Text := lines
  ["file(GLOB ztcoreSrcGlob ${ZTO_SRC_DIR}/node/*.cpp",
    "         ${ZTO_SRC_DIR}/osdep/OSUtils.cpp ${ZTO_SRC_DIR}/osdep/PortMapper.cpp)"]

def globMarkerReplacement : Text := lines
  ["file(GLOB ztcoreSrcGlob ${ZTO_SRC_DIR}/node/*.cpp",
    "         ${ZTO_SRC_DIR}/osdep/OSUtils.cpp)",
    "if(SWITCH OR CMAKE_SYSTEM_NAME STREQUAL \"Switch\")",
    "    list(REMOVE_ITEM ztcoreSrcGlob",
    "        ${ZTO_SRC_DIR}/node/VirtualTap.cpp",
    "        ${ZTO_SRC_DIR}/node/NodeService.cpp)",
    "endif()"]

def unixPortDir : Text := lines
  ["if(UNIX)", "    set(LWIP_PORT_DIR ${PROJ_DIR}/ext/lwip-contrib/ports/unix/port)", "endif()"]

def cmake : Tree → Result Tree := edit cmakeLists fun s => do
  let s := replaceFirst (text "${ZTO_SRC_DIR}/osdep/PortMapper.cpp") [] s
  let s := replaceFirst
    (text "$<TARGET_OBJECTS:natpmp_pic> $<TARGET_OBJECTS:miniupnpc_pic>") [] s
  let s := replaceFirst miniupnpFlag
    (text "if(NOT SWITCH)\n    " ++ miniupnpFlag ++ text "\nendif()") s
  let s ← if occurs globMarker s then pure (replaceFirst globMarker globMarkerReplacement s)
    else if occurs removeItem s then pure s
    else exit "CMake ztcore source glob not found"
  if occurs unixPortDir s then return some (replaceFirst unixPortDir portDirReplacement s)
  else if occurs (text "if(UNIX OR SWITCH OR CMAKE_SYSTEM_NAME STREQUAL \"Switch\")") s then
    return some s
  else exit "CMake lwIP port directory block not found"

def ssizeCompat : Text := lines
  ["#include <limits.h>", "#ifndef SSIZE_MAX", "#define SSIZE_MAX LONG_MAX", "#endif", ""]

def lwipPort (t : Tree) : Result Tree :=
  if (t.raw portCc).isNone then exit "lwIP Unix port arch/cc.h not found"
  else edit portCc (fun s =>
    if occurs (text "#ifndef SSIZE_MAX") s then return none
    else
      let marker := text "#include <sys/time.h>"
      if occurs marker s then return some (replaceFirst marker (ssizeCompat ++ marker) s)
      else return some (ssizeCompat ++ s)) t

def lwipWrapper : Tree → Result Tree := create lwipCcWrapper (lines
  ["#pragma once",
    "#include \"../../../../lwip-contrib/ports/unix/port/include/arch/cc.h\"", ""])

def prometheusHeader (name : String) : Tree → Result Tree := edit (prometheus name) fun s =>
  let pragma := text "#pragma once\n"
  if occurs (text "#include <stdexcept>") s then return none
  else if pragma.isPrefixOf s then
    return some (text "#pragma once\n#include <stdexcept>\n" ++ s.drop pragma.length)
  else return some (text "#include <stdexcept>\n" ++ s)

/-- patch-libzt-switch.py -/
def patchLibztSwitch (t : Tree) : Result Tree := do
  let t ← constants t
  let t ← utils t
  let t ← binder t
  let t ← phy t
  let t ← utilsImpl t
  let t ← cmake t
  let t ← lwipPort t
  let t ← lwipWrapper t
  let t ← prometheusHeader "family.h" t
  prometheusHeader "registry.h" t

/-- Diagnostics in the Switch's branch: one line printed and flushed. -/
def diag (before indent line : String) : Text :=
  text before ++ text "#ifdef __SWITCH__\n" ++ text indent ++ text line ++ text "\n" ++
    text indent ++ text "consoleUpdate(NULL);\n#endif"

def switchInclude : Text := text "#ifdef __SWITCH__\n#include <switch.h>\n#endif"

/-- One replacement of an anchor that has to be there. -/
def mustReplace (old new : Text) (message : String) (s : Text) : Result Text :=
  if occurs old s then .ok (replaceFirst old new s) else exit message

def includeSwitch (marker : Text) (message : String) (s : Text) : Result Text :=
  if occurs switchInclude s then .ok s
  else mustReplace marker (marker ++ switchInclude ++ text "\n") message s

def driverInit : Text := text "void zts_lwip_driver_init()\n\x7b\n"
def driverIsUp : Text := text "    if (zts_lwip_is_up()) \x7b"

def threadCall : Text := lines
  ["sys_thread_new(", "        ZTS_LWIP_THREAD_NAME,", "        zts_main_lwip_driver_loop,",
    "        NULL,", "        DEFAULT_THREAD_STACKSIZE,", "        DEFAULT_THREAD_PRIO);"]

def driverEntered : String :=
  "printf(\"[SWITCH-DIAG] zts_lwip_driver_init entered\\n\");"
def aboutToCall : String := "printf(\"[SWITCH-DIAG] about to call sys_thread_new()\\n\");"
def newReturned : String :=
  "printf(\"[SWITCH-DIAG] sys_thread_new returned: %s\\n\", lwip_thread ? \"non-null\" : \"NULL\");"

def virtualTapEdit (p : Path) (s : Text) : Result (Option Text) := do
  if occurs (text "[SWITCH-DIAG] zts_lwip_driver_init entered") s then return none
  else
    let s ← includeSwitch (text "#include \"VirtualTap.hpp\"\n")
      s!"VirtualTap include marker not found in {shown p}" s
    let s ← mustReplace (driverInit ++ driverIsUp)
      (driverInit ++ diag "" "    " driverEntered ++ text "\n" ++ driverIsUp)
      s!"zts_lwip_driver_init start not found in {shown p}" s
    let s ← mustReplace (text "    " ++ threadCall)
      (diag "" "    " aboutToCall ++ text "\n    sys_thread_t lwip_thread = " ++ threadCall ++
        diag "\n" "    " newReturned)
      s!"sys_thread_new call not found in {shown p}" s
    return some s

def instrumentVirtualTap (t : Tree) : Result Tree :=
  match findFile t "VirtualTap.cpp"
      [text "void zts_lwip_driver_init()", text "sys_thread_new("] with
  | some p => edit p (virtualTapEdit p) t
  | none => .ok t

def threadNewStart : Text := lines
  ["sys_thread_t",
    "sys_thread_new(const char *name, lwip_thread_fn function, void *arg, int stacksize, int prio)",
    "\x7b", "  int code;"]

def createOld : Text := lines
  ["  code = pthread_create(&tmp,", "                        NULL, ",
    "                        thread_wrapper, ", "                        thread_data);", "  ",
    "  if (0 == code) \x7b"]

def createNew : Text :=
  diag "" "  " "printf(\"[SWITCH-DIAG] sys_thread_new: calling pthread_create()\\n\");" ++ lines
  ["", "  code = pthread_create(&tmp,", "                        NULL,",
    "                        thread_wrapper,", "                        thread_data);", ""] ++
  diag "" "  " "printf(\"[SWITCH-DIAG] pthread_create returned code=%d\\n\", code);" ++
  text "\n  \n  if (0 == code) \x7b"

def failedDebugf : Text := lines
  ["  if (NULL == st) \x7b",
    "    LWIP_DEBUGF(SYS_DEBUG, (\"sys_thread_new: pthread_create %d, st = 0x%lx\",",
    "                       code, (unsigned long)st));", ""]

def abortOld : Text := failedDebugf ++ text "    abort();\n  \x7d\n  return st;"

def abortNew : Text := failedDebugf ++ lines
  ["#ifdef __SWITCH__",
    "    printf(\"[SWITCH-DIAG] sys_thread_new failed: code=%d; " ++
      "returning NULL instead of abort()\\n\", code);",
    "    consoleUpdate(NULL);", "    return NULL;", "#else", "    abort();", "#endif", "  \x7d",
    "#ifdef __SWITCH__",
    "  printf(\"[SWITCH-DIAG] sys_thread_new: thread registered successfully\\n\");",
    "  consoleUpdate(NULL);", "#endif", "  return st;"]

def sysArchEdit (p : Path) (s : Text) : Result (Option Text) := do
  if occurs (text "[SWITCH-DIAG] sys_thread_new: entering") s then return none
  else
    let s ← includeSwitch (text "#include <errno.h>\n")
      s!"errno include marker not found in {shown p}" s
    let s ← mustReplace threadNewStart
      (threadNewStart ++ diag "\n" "  " "printf(\"[SWITCH-DIAG] sys_thread_new: entering\\n\");")
      s!"sys_thread_new function start not found in {shown p}" s
    let s ← mustReplace createOld createNew s!"pthread_create block not found in {shown p}" s
    let s ← mustReplace abortOld abortNew s!"sys_thread_new abort block not found in {shown p}" s
    return some s

def instrumentSysArch (t : Tree) : Result Tree :=
  match findFile t "sys_arch.c" [text "sys_thread_new(", text "pthread_create"] with
  | some p => edit p (sysArchEdit p) t
  | none => .ok t

/-- patch-libzt-switch-bootstrap.py, which runs patch-libzt-switch.py. -/
def bootstrap (word : Char → Bool) (t : Tree) : Result Tree := do
  let t ← cmakeGlob word t
  let t ← patchLibztSwitch t
  let t ← instrumentVirtualTap t
  instrumentSysArch t

end SwitchLdnZt.Scripts.LibztPort
