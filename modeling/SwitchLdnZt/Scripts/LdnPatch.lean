import SwitchLdnZt.Library.PyText

namespace SwitchLdnZt.Scripts.LdnPatch
open Library

/-- The four source files of ldn_mitm, as read in text mode. -/
structure LdnSource where
  lanProtocol : Text
  lanDiscovery : Text
  ldnICommunication : Text
  ldnmitmMain : Text

inductive CheckStop
  | missing (file : String) (needle : Text)
  | bindCount (found : Nat)

def lanProtocolAnchors : List Text :=
  [text "int Pollable::Poll(Pollable *fds[], size_t nfds, int timeout)",
    text "struct pollfd pfds[nfds];",
    text "int rc = poll(pfds, nfds, timeout);",
    text "void LanSocket::close()",
    text "::close(this->fd);",
    text "::recvfrom(this->fd, buf, len, 0, nullptr, 0)",
    text "::sendto(this->fd, buf, len, 0, nullptr, 0)",
    text "socklen_t addr_len = sizeof(*addr);",
    text "::sendto(this->fd, buf, len, 0, (struct sockaddr *)addr, sizeof(*addr))"]

def bindAnchor : Text := text "if (bind(fd, (struct sockaddr *)&addr, sizeof(addr)) != 0) \x7b"

def lanDiscoveryAnchors : List Text :=
  [text "int LDTcpSocket::onRead()",
    text "int new_fd = accept(this->getFd(), (struct sockaddr *)&addr, &addrlen);",
    text "u32 LDUdpSocket::getBroadcast()",
    text "Result LANDiscovery::setSocketOpts(int fd)",
    text "fd = ::socket(AF_INET, SOCK_STREAM, 0);",
    bindAnchor,
    text "if (listen(fd, 10) != 0) \x7b",
    text "fd = ::socket(AF_INET, SOCK_DGRAM, 0);",
    text "int ret = ::connect(this->tcp->getFd(), (struct sockaddr *)&addr, sizeof(addr));",
    text "rc = nifmGetCurrentIpAddress(&ipAddress);",
    text "rc = nifmGetCurrentIpAddress(&ip);",
    text "u32 address, netmask, gateway, primary_dns, secondary_dns;",
    text "Result rc = nifmGetCurrentIpConfigInfo(&address, &netmask, &gateway, " ++
      text "&primary_dns, &secondary_dns);"]

def ldnICommunicationAnchors : List Text :=
  [text "Result ICommunicationService::Initialize(const sf::ClientProcessId &client_process_id)",
    text "R_TRY(lanDiscovery.initialize([&]()\x7b",
    text "Result ICommunicationService::GetIpv4Address(sf::Out<u32> address, " ++
      text "sf::Out<u32> netmask)",
    text "nifmGetCurrentIpConfigInfo(address.GetPointer(), netmask.GetPointer(), &gateway, " ++
      text "&primary_dns, &secondary_dns);"]

def registerMitm : Text :=
  text "R_ABORT_UNLESS((mitm::g_server_manager.RegisterMitmServer" ++
    text "<mitm::ldn::LdnMitMService>(0, MitmServiceName)));"

def ldnmitmMainAnchors : List Text :=
  [text "R_ABORT_UNLESS(log::Initialize());", text "LogFormat(\"main\");", registerMitm,
    text "LogFormat(\"registered\");"]

/-- The checker's loop over one file's needles; only lan_discovery.cpp's bind is
counted. -/
def checkFile (file : String) (s : Text) : List Text → Except CheckStop Unit
  | [] => .ok ()
  | needle :: needles =>
    let count := occurrences needle s
    if count = 0 then .error (.missing file needle)
    else if file = "lan_discovery.cpp" ∧ needle = bindAnchor ∧ count ≠ 2 then
      .error (.bindCount count)
    else checkFile file s needles

/-- anchor_check_defender.py -/
def anchorCheck (src : LdnSource) : Except CheckStop Unit := do
  checkFile "lan_protocol.cpp" src.lanProtocol lanProtocolAnchors
  checkFile "lan_discovery.cpp" src.lanDiscovery lanDiscoveryAnchors
  checkFile "ldn_icommunication.cpp" src.ldnICommunication ldnICommunicationAnchors
  checkFile "ldnmitm_main.cpp" src.ldnmitmMain ldnmitmMainAnchors

def accepts (src : LdnSource) : Bool := (anchorCheck src).toBool

/-- The errors of the patch's helpers; a message shows at most 80 characters of
its anchor. -/
inductive PatchStop
  | anchorMissing (file : String) (old : Text)
  | tooFew (file : String) (minimum found : Nat) (old : Text)
  | functionMissing (file : String) (signature : Text)
  | noOpeningBrace (file : String) (signature : Text)
  | unbalancedBraces (file : String) (signature : Text)

abbrev Patched := Except PatchStop Text

def replace (file : String) (old new s : Text) : Patched :=
  if occurs old s then .ok (replaceFirst old new s) else .error (.anchorMissing file (old.take 80))

def replaceAtLeast (file : String) (minimum : Nat) (old new s : Text) : Patched :=
  let count := occurrences old s
  if count < minimum then .error (.tooFew file minimum count (old.take 80))
  else .ok (replaceAll old new s)

/-- `replace_function`: from the first occurrence of the signature to the brace
that closes the first one opened from there on. -/
def replaceFunction (file : String) (signature newBody s : Text) : Patched :=
  match cut signature s with
  | none => .error (.functionMissing file signature)
  | some (before, rest) =>
    match cut ['\x7b'] (signature ++ rest) with
    | none => .error (.noOpeningBrace file signature)
    | some (_, inside) =>
      match closing '\x7b' '\x7d' 1 inside with
      | none => .error (.unbalancedBraces file signature)
      | some (_, after) => .ok (before ++ signature ++ text " " ++ newBody ++ after)

def replaceEach (file : String) (s : Text) (steps : List (Text × Text)) : Patched :=
  steps.foldlM (fun s step => replace file step.1 step.2 s) s

def mainSteps : List (Text × Text) :=
  let logInit := text "        R_ABORT_UNLESS(log::Initialize());\n        LogFormat("
  let registered := text "        " ++ registerMitm ++ text "\n        LogFormat("
  [(logInit ++ text "\"main\");", logInit ++ text "\"LDN-ZT: Main entered\");"),
    (registered ++ text "\"registered\");", registered ++ text "\"LDN-ZT: mitm registered\");"),
    (text "alignas(0x40) constinit u8 g_heap_memory[128_KB];",
      text "alignas(0x40) constinit u8 g_heap_memory[1_MB];")]

def pollLoop : Text := lines
  ["    for (size_t i = 0; i < nfds; i++) \x7b",
    "        pfds[i].fd = fds[i] ? fds[i]->getFd() : -1;", ""]

def lanProtocolSteps : List (Text × Text) :=
  [(text "#include <stratosphere.hpp>\n",
      text "#include <stratosphere.hpp>\n#include \"zt_bridge.hpp\"\n"),
    (text "    struct pollfd pfds[nfds];\n" ++ pollLoop ++ lines
        ["        pfds[i].events = POLLIN;", "        pfds[i].revents = 0;", "    \x7d",
          "    int rc = poll(pfds, nfds, timeout);"],
      text "    ztbridge::PollFd pfds[nfds];\n" ++ pollLoop ++ lines
        ["        pfds[i].events = ZT_POLLIN;", "        pfds[i].revents = 0;", "    \x7d",
          "    int rc = ztbridge::poll(pfds, nfds, timeout);"]),
    (text "        const struct pollfd &pfd = pfds[i];",
      text "        const ztbridge::PollFd &pfd = pfds[i];"),
    (text "if (pfd.revents & (POLLERR | POLLHUP))",
      text "if (pfd.revents & (ZT_POLLERR | ZT_POLLHUP | ZT_POLLNVAL))"),
    (text "else if (pfd.revents & (POLLIN | POLLPRI))",
      text "else if (pfd.revents & (ZT_POLLIN | ZT_POLLPRI))"),
    (text "        ::close(this->fd);", text "        ztbridge::close(this->fd);"),
    (text "    auto rc = ::recvfrom(this->fd, buf, len, 0, nullptr, 0);",
      text "    auto rc = ztbridge::recv(this->fd, buf, len);"),
    (text "    return ::sendto(this->fd, buf, len, 0, nullptr, 0);",
      text "    return ztbridge::send(this->fd, buf, len);"),
    (text "    socklen_t addr_len = sizeof(*addr);\n" ++
        text "    return ::recvfrom(this->fd, buf, len, 0, (struct sockaddr *)addr, &addr_len);",
      text "    AMS_UNUSED(addr);\n    return ztbridge::recv(this->fd, buf, len);"),
    (text "    return ::sendto(this->fd, buf, len, 0, (struct sockaddr *)addr, sizeof(*addr));",
      text "    return ztbridge::sendto(this->fd, buf, len, addr);")]

def bridgeInclude : Text × Text :=
  (text "#include \"ipinfo.hpp\"\n", text "#include \"ipinfo.hpp\"\n#include \"zt_bridge.hpp\"\n")

def acceptBlock : Text × Text :=
  (lines ["            struct sockaddr_in addr;", "            socklen_t addrlen = sizeof(addr);",
      "            int new_fd = accept(this->getFd(), (struct sockaddr *)&addr, &addrlen);"],
    text "            int new_fd = ztbridge::accept(this->getFd());")

def closeNewFd : Text × Text :=
  (text "            close(new_fd);", text "            ztbridge::close(new_fd);")

def getBroadcast : Text := text "    u32 LDUdpSocket::getBroadcast()"

def getBroadcastBody : Text := text "\x7b\n        return ztbridge::peer_ip_host_order();\n    \x7d"

def setSocketOpts : Text := text "    Result LANDiscovery::setSocketOpts(int fd)"

def setSocketOptsBody : Text := lines
  ["\x7b", "        AMS_UNUSED(fd);", "        return 0;", "    \x7d"]

def socketStream : Text × Text :=
  (text "        fd = ::socket(AF_INET, SOCK_STREAM, 0);",
    text "        fd = ztbridge::socket(AF_INET, SOCK_STREAM, 0);")

def bindFd : Text × Text :=
  (text "            " ++ bindAnchor, text "            if (ztbridge::bind(fd, &addr) != 0) \x7b")

def lateSteps : List (Text × Text) :=
  [(text "            if (listen(fd, 10) != 0) \x7b",
      text "            if (ztbridge::listen(fd, 10) != 0) \x7b"),
    (text "        fd = ::socket(AF_INET, SOCK_DGRAM, 0);",
      text "        fd = ztbridge::socket(AF_INET, SOCK_DGRAM, 0);"),
    (text "        int ret = ::connect(this->tcp->getFd(), " ++
        text "(struct sockaddr *)&addr, sizeof(addr));",
      text "        int ret = ztbridge::connect(this->tcp->getFd(), &addr);"),
    (lines ["        rc = nifmGetCurrentIpAddress(&ipAddress);", "        if (R_FAILED(rc))",
        "        \x7b", "            return rc;", "        \x7d",
        "        ipAddress = ntohl(ipAddress);"],
      lines ["        rc = ztbridge::local_ip_host_order(&ipAddress);", "        if (R_FAILED(rc))",
        "        \x7b", "            return rc;", "        \x7d"]),
    (lines ["        u32 ip;", "        rc = nifmGetCurrentIpAddress(&ip);",
        "        if (R_SUCCEEDED(rc)) \x7b", "            ip = ntohl(ip);",
        "            memcpy(mac->raw + 2, &ip, sizeof(ip));", "        \x7d", "",
        "        return rc;"],
      lines ["        u32 ip;", "        rc = ztbridge::local_ip_host_order(&ip);",
        "        if (R_SUCCEEDED(rc)) \x7b", "            memcpy(mac->raw + 2, &ip, sizeof(ip));",
        "        \x7d", "", "        return rc;"])]

/-- Both functions of lan_discovery.cpp, one after the other. -/
def replaceBoth (s : Text) : Patched := do
  let s ← replaceFunction "lan_discovery.cpp" getBroadcast getBroadcastBody s
  replaceFunction "lan_discovery.cpp" setSocketOpts setSocketOptsBody s

/-- What is left to replace in lan_discovery.cpp behind the two functions. -/
def replaceSockets (s : Text) : Patched := do
  let s ← replace "lan_discovery.cpp" socketStream.1 socketStream.2 s
  let s ← replaceAtLeast "lan_discovery.cpp" 2 bindFd.1 bindFd.2 s
  replaceEach "lan_discovery.cpp" s lateSteps

def patchLanDiscovery (s : Text) : Patched := do
  let s ← replace "lan_discovery.cpp" bridgeInclude.1 bridgeInclude.2 s
  let s ← replace "lan_discovery.cpp" acceptBlock.1 acceptBlock.2 s
  let s ← replaceAtLeast "lan_discovery.cpp" 2 closeNewFd.1 closeNewFd.2 s
  let s ← replaceBoth s
  replaceSockets s

def inetInclude : Text × Text :=
  (text "#include <arpa/inet.h>\n", text "#include <arpa/inet.h>\n#include \"zt_bridge.hpp\"\n")

def initTry : Text × Text :=
  (text "        R_TRY(lanDiscovery.initialize([&]()\x7b",
    lines ["        Result zt_rc = ztbridge::init();", "        if (R_FAILED(zt_rc)) \x7b",
      "            LogFormat(\"LDN-ZT: init failed rc=%x\", zt_rc);",
      "            return MAKERESULT(0xFD, 0x50);", "        \x7d", "",
      "        R_TRY(lanDiscovery.initialize([&]()\x7b"])

def getIpv4Address : Text :=
  text "    Result ICommunicationService::GetIpv4Address(sf::Out<u32> address, " ++
    text "sf::Out<u32> netmask)"

def getIpv4AddressBody : Text := lines
  ["\x7b", "        u32 ztAddress = 0;",
    "        Result rc = ztbridge::local_ip_host_order(&ztAddress);",
    "        if (R_FAILED(rc)) \x7b", "            return rc;", "        \x7d",
    "        address.SetValue(ztAddress);", "        netmask.SetValue(0xFFFFFFFF);",
    "        LogFormat(\"get_ipv4_address %x %x\", address.GetValue(), netmask.GetValue());",
    "        return rc;", "    \x7d"]

def patchICommunication (s : Text) : Patched := do
  let s ← replace "ldn_icommunication.cpp" inetInclude.1 inetInclude.2 s
  let s ← replace "ldn_icommunication.cpp" initTry.1 initTry.2 s
  replaceFunction "ldn_icommunication.cpp" getIpv4Address getIpv4AddressBody s

/-- The replacements of patch-ldn-zt.py's `main` in the four files, in its order. -/
def patchSources (src : LdnSource) : Except PatchStop LdnSource := do
  let ldnmitmMain ← replaceEach "ldnmitm_main.cpp" src.ldnmitmMain mainSteps
  let lanProtocol ← replaceEach "lan_protocol.cpp" src.lanProtocol lanProtocolSteps
  let lanDiscovery ← patchLanDiscovery src.lanDiscovery
  let ldnICommunication ← patchICommunication src.ldnICommunication
  return ⟨lanProtocol, lanDiscovery, ldnICommunication, ldnmitmMain⟩

end SwitchLdnZt.Scripts.LdnPatch
