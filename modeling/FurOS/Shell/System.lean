import FurOS.Disk.Store
import FurOS.Shell.Commands
import FurOS.Shell.Network
import FurOS.Shell.Seed

/-! The shell (`kernel/shell.c`): its state, its commands, its prompt.

`System` is every variable the shell reads or changes, with the keys to come and
what has been written to the screen. `shellDispatch` runs one command line; it
calls itself for the words after `sudo`. A step stops short when it waits for a
key that has not come yet, or when it leaves an array. -/
namespace FurOS

structure System where
  nodes : Nodes
  disk : Disk
  shellCwd : Int
  shellUid : UInt16
  shellExit : Bool
  network : Network
  keys : List UInt8
  screen : Text

/-- Why a step has no end state: it waits for a key, in this state, or an access went wrong. -/
inductive Stop where
  | waiting (s : System)
  | fault (f : Fault)

namespace System

def print (s : System) (text : Text) : System := {s with screen := s.screen ++ text}

/-- A command that only prints. -/
def shows (s : System) : Except Fault Text → Except Stop System
  | .error f => .error (.fault f)
  | .ok text => .ok (s.print text)

/-- A command that changes the table. -/
def edits (s : System) : Except Fault (Text × Nodes) → Except Stop System
  | .error f => .error (.fault f)
  | .ok (text, t) => .ok ({s with nodes := t}.print text)

/-- A command that changes the current directory. -/
def moves (s : System) : Except Fault (Text × Int) → Except Stop System
  | .error f => .error (.fault f)
  | .ok (text, cwd) => .ok ({s with shellCwd := cwd}.print text)

/-- A command that reads keys. -/
def types (s : System) : Except Fault (Nodes × Text × Option (List UInt8)) → Except Stop System
  | .error f => .error (.fault f)
  | .ok (t, text, none) => .error (.waiting ({s with nodes := t, keys := []}.print text))
  | .ok (t, text, some keys) => .ok ({s with nodes := t, keys := keys}.print text)

/-- A command on packages or the network. -/
def connects (s : System) : Text × Network → System
  | (text, network) => {s with network := network}.print text

end System

/-! ### Commands on the disk -/

def cmdSync (s : System) : System :=
  match diskSaveFs s.nodes s.disk with
  | (status, disk) =>
    if status ≠ 0 then
      {s with disk := disk}.print (println "sync: failed" ++ shellPrintln (diskLastError disk).chars)
    else {s with disk := disk}.print (println "sync: saved to disk")

def diskInfo (s : System) : System :=
  s.print (println (if diskAvailable s.disk then "disk: available" else "disk: unavailable") ++
    write "status: " ++ vgaWriteString (diskLastError s.disk).chars ++ write "\n")

def diskLoad (s : System) : System :=
  match diskLoadFs s.nodes s.disk with
  | (status, t, disk) =>
    if status ≠ 0 then
      {s with nodes := t, disk := disk}.print
        (println "disk load: failed" ++ shellPrintln (diskLastError disk).chars)
    else {s with nodes := t, disk := disk, shellCwd := fsGetRoot}.print (println "disk load: ok")

def diskFormat (s : System) : System :=
  match diskFormatFs s.disk with
  | (status, t, disk) =>
    if status ≠ 0 then
      {s with nodes := t, disk := disk}.print
        (println "disk format: failed" ++ shellPrintln (diskLastError disk).chars)
    else {s with nodes := t, disk := disk, shellCwd := fsGetRoot}.print (println "disk format: ok")

def cmdDisk (args : List CStr) (s : System) : System :=
  match args with
  | [] => s.print (println "disk: usage disk info|load|save|format")
  | sub :: _ =>
    if sub.is "info" then diskInfo s
    else if sub.is "load" then diskLoad s
    else if sub.is "save" then cmdSync s
    else if sub.is "format" then diskFormat s
    else s.print (println "disk: unknown subcommand")

/-- `cmd_install` once the disk has been formatted. -/
def installFiles (s : System) : Except Stop System :=
  match installFilesystem s.nodes with
  | .error f => .error (.fault f)
  | .ok t =>
    let s := s.print (println "Creating directory hierarchy..." ++ println "Writing configuration files...")
    match diskSaveFs t s.disk with
    | (status, disk) =>
      if status ≠ 0 then
        .ok ({s with nodes := t, disk := disk}.print
          (println "install: write failed" ++ shellPrintln (diskLastError disk).chars))
      else
        .ok ({s with nodes := t, disk := disk, shellCwd := fsGetRoot}.print
          (println "Install complete. Reboot to start FurOS from disk."))

def cmdInstall (s : System) : Except Stop System :=
  let s := s.print (println "FurOS 1.0 installer (terminal mode)")
  if !diskAvailable s.disk then
    .ok (s.print (println "install: no supported ATA disk detected" ++
      println "  Use QEMU with -hda <disk.img> to attach an IDE disk."))
  else
    let s := s.print (println "Formatting disk filesystem...")
    match diskFormatFs s.disk with
    | (status, t, disk) =>
      if status ≠ 0 then
        .ok ({s with nodes := t, disk := disk}.print
          (println "install: disk format failed" ++ shellPrintln (diskLastError disk).chars))
      else installFiles {s with nodes := t, disk := disk}

/-! ### Dispatch -/

inductive Command where
  | help | clear | whoami | id | pwd | ls | cd | mkdir | touch | cat | write | nano | rm | chmod | chown
  | sudo | install | logout | disk | sync | apt | networkmanager | nmcli | ifconfig | unknown
  deriving DecidableEq

/-- The comparisons of `shell_dispatch`, in order. -/
def commands : List (String × Command) :=
  [("help", .help), ("clear", .clear), ("whoami", .whoami), ("id", .id), ("pwd", .pwd), ("ls", .ls),
    ("cd", .cd), ("mkdir", .mkdir), ("touch", .touch), ("cat", .cat), ("write", .write), ("nano", .nano),
    ("rm", .rm), ("chmod", .chmod), ("chown", .chown), ("sudo", .sudo), ("install", .install),
    ("logout", .logout), ("exit", .logout), ("disk", .disk), ("sync", .sync), ("apt", .apt),
    ("networkmanager", .networkmanager), ("nmcli", .nmcli), ("ifconfig", .ifconfig)]

def commandOf (name : CStr) : Command :=
  match commands.find? fun c => name.is c.1 with
  | none => .unknown
  | some c => c.2

def cmdLogout (s : System) : System := {s with shellExit := true}

/-- `dispatch` runs the words after `sudo`. -/
def cmdSudo (dispatch : System → Except Stop System) (args : List CStr) (s : System) :
    Except Stop System :=
  if args = [] then .ok (s.print (println "sudo: usage sudo <command> [args]"))
  else do
    let s' ← dispatch {s with shellUid := shellUidRoot}
    return {s' with shellUid := s.shellUid}

def shellDispatch : List CStr → System → Except Stop System
  | [] => fun s => .ok s
  | name :: args => fun s =>
    match commandOf name with
    | .help => .ok (s.print cmdHelp)
    | .clear => .ok (s.print [.clear])
    | .whoami => .ok (s.print (cmdWhoami s.shellUid))
    | .id => .ok (s.print (cmdId s.shellUid))
    | .pwd => s.shows (cmdPwd s.nodes s.shellCwd)
    | .ls => s.shows (cmdLs s.nodes s.shellCwd args s.shellUid)
    | .cd => s.moves (cmdCd s.nodes s.shellCwd args s.shellUid)
    | .mkdir => s.edits (cmdMkdir s.nodes s.shellCwd args s.shellUid)
    | .touch => s.edits (cmdTouch s.nodes s.shellCwd args s.shellUid)
    | .cat => s.shows (cmdCat s.nodes s.shellCwd args s.shellUid)
    | .write => s.edits (cmdWrite s.nodes s.shellCwd args)
    | .nano => s.types (cmdNano s.nodes s.shellCwd args s.keys)
    | .rm => s.edits (cmdRm s.nodes s.shellCwd args)
    | .chmod => s.edits (cmdChmod s.nodes s.shellCwd args s.shellUid)
    | .chown => s.edits (cmdChown s.nodes s.shellCwd args s.shellUid)
    | .sudo => cmdSudo (shellDispatch args) args s
    | .install => cmdInstall s
    | .logout => .ok (cmdLogout s)
    | .disk => .ok (cmdDisk args s)
    | .sync => .ok (cmdSync s)
    | .apt => .ok (s.connects (cmdApt args s.network))
    | .networkmanager => .ok (s.connects (cmdNetworkmanager args s.network))
    | .nmcli => .ok (s.connects (cmdNmcli args s.network))
    | .ifconfig => .ok (s.print (cmdIfconfig s.network))
    | .unknown => .ok (s.print (vgaWriteString name.chars ++
        println ": command not found (type 'help' for available commands)"))

/-! ### The prompt -/

/-- The line read into `buf` from the keys to come, what is echoed, and the keys left over; `none`
while the line is not finished. -/
def shellReadLine (buf : CharBuffer 256) : List UInt8 → CharBuffer 256 × Text × Option (List UInt8)
  | [] => (buf, [], none)
  | c :: keys =>
    if c = 10 ∨ c = 13 then (buf, [.putchar 10], some keys)
    else if c = 8 then
      if buf.chars = [] then shellReadLine buf keys
      else
        match shellReadLine buf.back keys with
        | (line, text, rest) => (line, .backspace :: text, rest)
    else if h : isPrintable c = true ∧ buf.chars.length + 1 < 256 then
      match shellReadLine (buf.push c h.2) keys with
      | (line, text, rest) => (line, .putchar c :: text, rest)
    else shellReadLine buf keys

/-- The words of a line, at most so many. -/
def shellParse (line : CStr) : Nat → List CStr
  | 0 => []
  | room + 1 =>
    let p := line.dropWhile isSpace
    let word := p.takeWhile fun c => !isSpace c
    if p.chars = [] then [] else word :: shellParse (p.drop (word.chars.length + 1)) room

def shellPrompt (s : System) : Except Fault Text := do
  let path ← shellBuildPath s.nodes s.shellCwd
  return vgaWriteString (uidToName s.shellUid) ++ write "@furos:" ++
    vgaWriteString (path.getD (lit "/")) ++ write (if s.shellUid = shellUidRoot then " # " else " $ ")

def promptColor (uid : UInt16) : Text :=
  [.setColor (if uid = shellUidRoot then vgaColorLightRed else vgaColorLightGreen) vgaColorBlack]

/-- One round of the loop of `shell_run`. -/
def shellIteration (s : System) : Except Stop System := do
  let s ← s.shows do
    let prompt ← shellPrompt s
    return promptColor s.shellUid ++ prompt ++ [.setColor vgaColorLightGrey vgaColorBlack]
  match shellReadLine ⟨[], by decide⟩ s.keys with
  | (_, text, none) => .error (.waiting ({s with keys := []}.print text))
  | (line, text, some keys) =>
    shellDispatch (shellParse (.ofChars line.chars) 16) ({s with keys := keys}.print text)

/-! ### Start-up -/

/-- The message of the day, where there is one. -/
def shellMotd (t : Nodes) : Except Fault Text := do
  match ← fsReadFile t fsGetRoot (.ofLit "etc/motd") with
  | none => return []
  | some (data, size) =>
    if size = 0 then return []
    else do
      let text ← readStr data
      return [.setColor vgaColorLightCyan vgaColorBlack] ++ vgaWriteString text ++
        [.setColor vgaColorLightGrey vgaColorBlack]

/-- A filesystem of its own, where none was loaded. -/
def seedLive (s : System) : Except Stop System :=
  s.edits do
    let t ← shellSeedFilesystem s.nodes
    return (write (if !diskAvailable s.disk then "[  OK  ] No disk found — running in live mode\n"
      else "[  OK  ] No installed filesystem — running in live mode\n"), t)

/-- The filesystem of the disk where one can be loaded, a new one elsewhere. -/
def loadOrSeed (s : System) : Except Stop System :=
  if !diskAvailable s.disk then seedLive s
  else
    match diskLoadFs s.nodes s.disk with
    | (status, t, disk) =>
      if status = 0 then .ok {s with nodes := t, disk := disk}
      else seedLive {s with nodes := t, disk := disk}

/-- `shell_run` up to its loop, given what `ata_scan` finds. -/
def shellStart (s : System) (scan : Scan) : Except Stop System := do
  let s ← loadOrSeed {s with nodes := fsInit, disk := diskInit scan s.disk, shellExit := false}
  let s := {s with shellCwd := fsGetRoot, shellUid := shellUidDebian}
  s.shows (shellMotd s.nodes)

/-- `shell_run` after its loop. -/
def shellFinish (s : System) : System :=
  if diskAvailable s.disk then {s with disk := (diskSaveFs s.nodes s.disk).2} else s

end FurOS
