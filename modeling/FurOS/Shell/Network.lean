import FurOS.Fs.Node
import FurOS.Shell.Text
import Mathlib.Data.Fin.VecNotation

/-! Packages and the network, as the shell simulates them (`kernel/shell.c`).

None of these commands sees the filesystem: each takes the words after its name and
gives what it prints and the packages and network it leaves. -/
namespace FurOS

structure Package where
  name : CStr
  installed : Bool
  essential : Bool

/-- `package_repo` at the start. -/
def packageRepo : Fin 12 → Package :=
  ![{ name := .ofLit "base", installed := true, essential := true },
    { name := .ofLit "bash", installed := true, essential := true },
    { name := .ofLit "coreutils", installed := true, essential := true },
    { name := .ofLit "sudo", installed := true, essential := true },
    { name := .ofLit "nano", installed := true, essential := false },
    { name := .ofLit "less", installed := true, essential := false },
    { name := .ofLit "network-manager", installed := true, essential := false },
    { name := .ofLit "net-tools", installed := false, essential := false },
    { name := .ofLit "curl", installed := false, essential := false },
    { name := .ofLit "openssh-client", installed := false, essential := false },
    { name := .ofLit "vim", installed := false, essential := false },
    { name := .ofLit "git", installed := false, essential := false }]

structure WifiAp where
  ssid : CStr
  password : Option CStr

def wifiAps : List WifiAp :=
  [{ ssid := .ofLit "FurOS-Lab", password := some (.ofLit "furos123") },
    { ssid := .ofLit "DebianCafe", password := some (.ofLit "linuxmint") },
    { ssid := .ofLit "OpenGuest", password := none }]

/-- `wifi_ssid`, whose last character always ends it. -/
structure Ssid where
  chars : Fin 32 → UInt8
  ended : chars 31 = 0

namespace Ssid

def empty : Ssid := ⟨fun _ => 0, rfl⟩

/-- `kstrncpy` of at most 31 characters, the rest filled with zeros. -/
def copy (s : CStr) : Ssid :=
  ⟨fun j => if h : j.val < s.chars.length ∧ j.val < 31 then s.chars[j.val] else 0,
    dif_neg fun h => absurd h.2 (by decide)⟩

/-- `wifi_ssid[0] = '\0'`. -/
def clear (s : Ssid) : Ssid :=
  ⟨Function.update s.chars 0 0, (Function.update_of_ne (by decide) ..).trans s.ended⟩

def text (s : Ssid) : List UInt8 := cstr s.chars

end Ssid

structure Network where
  aptIndexReady : Bool
  networkManagerRunning : Bool
  wifiEnabled : Bool
  wifiConnected : Bool
  wifiSsid : Ssid
  packageRepo : Fin 12 → Package

def Network.initial : Network :=
  { aptIndexReady := false
    networkManagerRunning := true
    wifiEnabled := true
    wifiConnected := false
    wifiSsid := .empty
    packageRepo := FurOS.packageRepo }

def packageFind (net : Network) (name : CStr) : Option (Fin 12) :=
  Fin.find? fun i => decide ((net.packageRepo i).name = name)

def packageIsInstalled (net : Network) (name : String) : Bool :=
  match packageFind net (.ofLit name) with
  | none => false
  | some i => (net.packageRepo i).installed

def findWifiAp (ssid : CStr) : Option WifiAp := wifiAps.find? fun ap => decide (ap.ssid = ssid)

def networkReady (net : Network) : Bool :=
  packageIsInstalled net "network-manager" && net.networkManagerRunning && net.wifiEnabled &&
    net.wifiConnected

def syncStateWithPackages (net : Network) : Network :=
  if packageIsInstalled net "network-manager" then net
  else
    {net with
      networkManagerRunning := false
      wifiEnabled := false
      wifiConnected := false
      wifiSsid := net.wifiSsid.clear}

/-! ### Packages -/

def aptUpdate : Text :=
  println "Get:1 http://deb.furos.org/furos bookworm InRelease" ++
  println "Get:2 http://deb.debian.org/debian bookworm InRelease" ++
  println "Get:3 http://deb.debian.org/debian bookworm-updates InRelease" ++
  println "Get:4 http://security.debian.org bookworm-security InRelease" ++
  println "Reading package lists... Done" ++
  println "Building dependency tree... Done"

def aptList (net : Network) : Text :=
  println "Listing packages:" ++
  (List.finRange 12).flatMap fun i =>
    write "  " ++ vgaWriteString (net.packageRepo i).name.chars ++ write "/bookworm  " ++
    write (if (net.packageRepo i).installed then "[installed]" else "[available]") ++
    (if (net.packageRepo i).essential then write " [essential]" else []) ++ write "\n"

/-- `pkg->installed = installed`, then `sync_state_with_packages`. -/
def setInstalled (net : Network) (i : Fin 12) (installed : Bool) : Network :=
  syncStateWithPackages {net with
    packageRepo := Function.update net.packageRepo i {net.packageRepo i with installed := installed}}

def aptInstall (name : CStr) (net : Network) : Text × Network :=
  match packageFind net name with
  | none => (write "apt: package '" ++ vgaWriteString name.chars ++ write "' not found in sources\n", net)
  | some i =>
    let pkg := net.packageRepo i
    if pkg.installed then
      (vgaWriteString pkg.name.chars ++ println " is already the newest version.", net)
    else
      (write "Selecting previously unselected package " ++ vgaWriteString pkg.name.chars ++ write ".\n" ++
        println "Unpacking ... Setting up ... Done.", setInstalled net i true)

def aptRemove (name : CStr) (net : Network) : Text × Network :=
  match packageFind net name with
  | none => (write "apt: package '" ++ vgaWriteString name.chars ++ write "' not found\n", net)
  | some i =>
    let pkg := net.packageRepo i
    if pkg.essential then
      (write "apt: refusing to remove essential package '" ++ vgaWriteString pkg.name.chars ++ write "'\n",
        net)
    else if !pkg.installed then (vgaWriteString pkg.name.chars ++ println " is not installed.", net)
    else
      (write "Removing " ++ vgaWriteString pkg.name.chars ++ write " ... Done.\n", setInstalled net i false)

def cmdApt (args : List CStr) (net : Network) : Text × Network :=
  match args with
  | [] => (println "apt: usage apt update|list|install|remove <pkg>", net)
  | sub :: rest =>
    if sub.is "update" then (aptUpdate, {net with aptIndexReady := true})
    else if sub.is "list" then (aptList net, net)
    else
      match rest with
      | [] => (println "apt: package name required", net)
      | name :: _ =>
        if sub.is "install" then aptInstall name net
        else if sub.is "remove" then aptRemove name net
        else
          (write "apt: unknown subcommand '" ++ vgaWriteString sub.chars ++
            write "' (update|list|install|remove)\n", net)

/-! ### The network -/

def cmdNetworkmanager (args : List CStr) (net : Network) : Text × Network :=
  match args with
  | [] => (println "networkmanager: usage networkmanager status|start|stop|restart", net)
  | sub :: _ =>
    if !packageIsInstalled net "network-manager" then
      (println "networkmanager: not installed (try: sudo apt install network-manager)", net)
    else if sub.is "status" then
      (write "NetworkManager: " ++
        println (if net.networkManagerRunning then "active (running)" else "inactive (stopped)"), net)
    else if sub.is "start" then (println "Started NetworkManager", {net with networkManagerRunning := true})
    else if sub.is "stop" then
      (println "Stopped NetworkManager", {net with networkManagerRunning := false, wifiConnected := false})
    else if sub.is "restart" then
      (println "Restarted NetworkManager", {net with networkManagerRunning := true})
    else (println "networkmanager: unknown subcommand (status|start|stop|restart)", net)

def nmcliGeneral (net : Network) : Text :=
  println "STATE      CONNECTIVITY  WIFI-HW  WIFI     WWAN-HW  WWAN" ++
  if net.wifiConnected then write "connected  full          enabled  enabled  enabled  enabled\n"
  else
    write "disconnected  none       enabled  " ++ write (if net.wifiEnabled then "enabled  " else "disabled ") ++
    write "enabled  enabled\n"

def nmcliDeviceStatus (net : Network) : Text :=
  println "DEVICE  TYPE      STATE         CONNECTION" ++ write "wlan0   wifi      " ++
  (if net.wifiConnected then write "connected     " ++ vgaWriteString net.wifiSsid.text
    else if net.wifiEnabled then write "disconnected  --"
    else write "unavailable   --") ++
  write "\n" ++ println "lo      loopback  unmanaged     --"

def nmcliWifiList (net : Network) : Text :=
  println "IN-USE  SSID         MODE   CHAN  RATE       SIGNAL  BARS  SECURITY" ++
  wifiAps.flatMap fun ap =>
    write (if net.wifiConnected && decide (net.wifiSsid.text = ap.ssid.chars) then "*  " else "   ") ++
    vgaWriteString ap.ssid.chars ++ write "  Infra  6     54 Mbit/s  75      ***   " ++
    write (if ap.password.isSome then "WPA2" else "--") ++ write "\n"

/-- What refuses a connection: the words after the network's name, against its password. -/
def wifiRefused (ap : WifiAp) (rest : List CStr) : Option Text :=
  match ap.password, rest with
  | none, _ => none
  | some password, key :: given :: _ =>
    if !key.is "password" then some (println "Error: 802-11-wireless-security.psk: password required.")
    else if given ≠ password then some (println "Error: Secrets were required, but not provided.")
    else none
  | some _, _ => some (println "Error: 802-11-wireless-security.psk: password required.")

def nmcliWifiConnect (args : List CStr) (net : Network) : Text × Network :=
  match args with
  | [] => (println "nmcli: usage nmcli device wifi connect <ssid> [password <pw>]", net)
  | ssid :: rest =>
    match findWifiAp ssid with
    | none => (println "Error: No network with SSID found.", net)
    | some ap =>
      if !net.wifiEnabled then (println "Error: wifi radio is disabled.", net)
      else
        match wifiRefused ap rest with
        | some text => (text, net)
        | none =>
          let net := {net with wifiConnected := true, wifiSsid := .copy ssid}
          (write "Device 'wlan0' successfully activated with network '" ++
            vgaWriteString net.wifiSsid.text ++ write "'\n", net)

def nmcliDevice (args : List CStr) (net : Network) : Text × Network :=
  match args with
  | [] => (nmcliDeviceStatus net, net)
  | sub :: rest =>
    if sub.is "status" then (nmcliDeviceStatus net, net)
    else if sub.is "wifi" then
      match rest with
      | [] => (nmcliWifiList net, net)
      | sub :: rest =>
        if sub.is "list" then (nmcliWifiList net, net)
        else if sub.is "connect" then nmcliWifiConnect rest net
        else (println "nmcli device wifi: unknown subcommand (list|connect)", net)
    else (println "nmcli device: unknown subcommand (status|wifi)", net)

def nmcliConnection (net : Network) : Text :=
  if net.wifiConnected then
    println "NAME     UUID                                  TYPE  DEVICE" ++
    vgaWriteString net.wifiSsid.text ++ write "  a1b2c3d4-e5f6-7890-abcd-ef1234567890  wifi  wlan0\n"
  else println "(no active connections)"

def nmcliRadio (args : List CStr) (net : Network) : Text × Network :=
  match args with
  | [] =>
    (println "WIFI-HW  WIFI     WWAN-HW  WWAN" ++ write "enabled  " ++
      write (if net.wifiEnabled then "enabled  " else "disabled ") ++ write "enabled  enabled\n", net)
  | sub :: rest =>
    if sub.is "wifi" then
      match rest with
      | [] => (write "wifi: " ++ println (if net.wifiEnabled then "enabled" else "disabled"), net)
      | value :: _ =>
        if value.is "on" then (println "wifi radio enabled", {net with wifiEnabled := true})
        else if value.is "off" then
          (println "wifi radio disabled", {net with wifiEnabled := false, wifiConnected := false})
        else (println "nmcli radio wifi: usage on|off", net)
    else (println "nmcli radio: unknown subcommand (wifi)", net)

def nmcliNetworking (args : List CStr) (net : Network) : Text × Network :=
  match args with
  | [] => (write "networking: " ++ println (if net.networkManagerRunning then "enabled" else "disabled"), net)
  | value :: _ =>
    if value.is "on" then (println "Networking enabled", {net with networkManagerRunning := true})
    else if value.is "off" then
      (println "Networking disabled", {net with networkManagerRunning := false, wifiConnected := false})
    else (println "nmcli networking: usage on|off", net)

def cmdNmcli (args : List CStr) (net : Network) : Text × Network :=
  match args with
  | [] => (println "nmcli: usage nmcli general|device|connection|radio|networking ...", net)
  | sub :: rest =>
    if !packageIsInstalled net "network-manager" then (println "nmcli: NetworkManager not installed", net)
    else if !net.networkManagerRunning then (println "Error: NetworkManager is not running.", net)
    else if sub.is "general" then (nmcliGeneral net, net)
    else if sub.is "device" then nmcliDevice rest net
    else if sub.is "connection" then (nmcliConnection net, net)
    else if sub.is "radio" then nmcliRadio rest net
    else if sub.is "networking" then nmcliNetworking rest net
    else (println "nmcli: unknown subcommand (general|device|connection|radio|networking)", net)

def cmdIfconfig (net : Network) : Text :=
  if !packageIsInstalled net "net-tools" then
    println "ifconfig: command not found (try: sudo apt install net-tools)"
  else
    println "lo: flags=73<UP,LOOPBACK,RUNNING>  mtu 65536" ++
    println "        inet 127.0.0.1  netmask 255.0.0.0" ++
    println "        loop  txqueuelen 1000  (Local Loopback)" ++
    println "" ++
    (if networkReady net then
      println "wlan0: flags=4163<UP,BROADCAST,RUNNING,MULTICAST>  mtu 1500" ++
      println "        inet 192.168.1.100  netmask 255.255.255.0  broadcast 192.168.1.255" ++
      println "        ether 02:00:00:00:00:01  txqueuelen 1000  (Ethernet)"
    else
      println "wlan0: flags=4099<UP,BROADCAST,MULTICAST>  mtu 1500" ++
      println "        ether 02:00:00:00:00:01  txqueuelen 1000  (Ethernet)") ++
    println ""

end FurOS
