import FurOS.Fs.Operations
import FurOS.Shell.Text

/-! The commands that work on the node table (`kernel/shell.c`).

Each takes the table, `shell_cwd`, the words after its name and, where the source
passes it, the user. It gives what it prints and what it leaves of what it may
change; a command without a table in its result changes none. -/
namespace FurOS

def cmdHelp : Text :=
  println "FurOS 1.0 (Debian-based) -- available commands:" ++
  println "" ++
  println "  File system:" ++
  println "    pwd                     print working directory" ++
  println "    ls [path]               list directory contents" ++
  println "    cd <path>               change directory" ++
  println "    mkdir <path>            create directory" ++
  println "    touch <path>            create empty file" ++
  println "    cat <file>              print file contents" ++
  println "    write <file> <text>     write text to file" ++
  println "    nano <file>             edit file (Ctrl+S save, Ctrl+X exit)" ++
  println "    rm <path>               remove file or empty directory" ++
  println "    chmod <mode> <path>     change permissions (octal, e.g. 755)" ++
  println "    chown <user> <path>     change file owner (root only)" ++
  println "" ++
  println "  Users:" ++
  println "    whoami                  print current user name" ++
  println "    id                      print uid/gid/groups" ++
  println "    sudo <command>          run command as root" ++
  println "" ++
  println "  System:" ++
  println "    help                    show this help" ++
  println "    clear                   clear the screen" ++
  println "    logout / exit           return to the desktop" ++
  println "    install                 install FurOS to disk" ++
  println "    disk info|load|save|format" ++
  println "    sync                    save filesystem to disk" ++
  println "" ++
  println "  Packages:" ++
  println "    apt update              refresh package index" ++
  println "    apt list                list all packages" ++
  println "    apt install <pkg>       install a package" ++
  println "    apt remove <pkg>        remove a package" ++
  println "" ++
  println "  Network:" ++
  println "    networkmanager status|start|stop|restart" ++
  println "    nmcli general|device|connection|radio|networking ..." ++
  println "    ifconfig                show network interfaces"

/-! ### Looking -/

/-- The path of a node in a buffer of 128 bytes; `none` is `-1`. -/
def shellBuildPath (t : Nodes) (node : Int) : Except Fault (Option (List UInt8)) := do
  let (status, out) ← fsMakePath t node 128
  if status ≠ 0 then return none else return some (out.chars.takeWhile (· ≠ 0))

def cmdPwd (t : Nodes) (cwd : Int) : Except Fault Text := do
  match ← shellBuildPath t cwd with
  | none => return println "/"
  | some path => return shellPrintln path

/-- One line of `ls`. -/
def lsEntry (t : Nodes) (entry : NodeId) : Except Fault Text :=
  match fsGetName t entry.val with
  | none => return []
  | some name => do
    let name ← readStr name
    return vgaWriteString name ++ (if fsIsDir t entry.val then write "/" else []) ++ write "\n"

def lsEntries (t : Nodes) : List NodeId → Except Fault Text
  | [] => return []
  | entry :: rest => do
    let line ← lsEntry t entry
    let lines ← lsEntries t rest
    return line ++ lines

/-- The node a command is about: where its path leads, or `shell_cwd` without one. -/
def lsTarget (t : Nodes) (cwd : Int) (args : List CStr) : Except Fault Int :=
  match args with
  | [] => return cwd
  | path :: _ => fsResolve t cwd path

def cmdLs (t : Nodes) (cwd : Int) (args : List CStr) (uid : UInt16) : Except Fault Text := do
  let target ← lsTarget t cwd args
  if target < 0 then return println "ls: path not found"
  else if !fsIsDir t target then return println "ls: not a directory"
  else if !fsCheckAccess t target uid (fsAccessRead ||| fsAccessExec) then
    return println "ls: permission denied"
  else
    match fsList t target 128 with
    | none => return println "(empty)"
    | some (count, entries) => if count = 0 then return println "(empty)" else lsEntries t entries

/-- What it prints, and `shell_cwd`. -/
def cmdCd (t : Nodes) (cwd : Int) (args : List CStr) (uid : UInt16) : Except Fault (Text × Int) :=
  match args with
  | [] => return ([], fsGetRoot)
  | path :: _ => do
    let target ← fsResolve t cwd path
    if target < 0 || !fsIsDir t target then return (println "cd: directory not found", cwd)
    else if !fsCheckAccess t target uid fsAccessExec then return (println "cd: permission denied", cwd)
    else return ([], target)

/-- `data[i]`. -/
def dataByte (data : Fin 4096 → UInt8) (i : Nat) : Except Fault UInt8 :=
  if h : i < 4096 then .ok (data ⟨i, h⟩) else .error (.data i)

/-- A file's data, up to its first terminator, and a line end where its last byte is none. -/
def catData (data : Fin 4096 → UInt8) (size : UInt64) : Except Fault Text :=
  if size = 0 then return println "(empty file)"
  else do
    let text ← readStr data
    let last ← dataByte data (size.toNat - 1)
    return vgaWriteString text ++ (if last ≠ 10 then write "\n" else [])

def cmdCat (t : Nodes) (cwd : Int) (args : List CStr) (uid : UInt16) : Except Fault Text :=
  match args with
  | [] => return println "cat: missing operand"
  | path :: _ => do
    let node ← fsResolve t cwd path
    if node < 0 || fsIsDir t node then return println "cat: file not found"
    else if !fsCheckAccess t node uid fsAccessRead then return println "cat: permission denied"
    else
      match ← fsReadFile t cwd path with
      | none => return println "cat: file not found"
      | some (data, size) => catData data size

def cmdWhoami (uid : UInt16) : Text := shellPrintln (uidToName uid)

def cmdId (uid : UInt16) : Text :=
  let name := uidToName uid
  write "uid=" ++ shellPrintUint uid.toUInt32 ++ write "(" ++ vgaWriteString name ++
  write ") gid=" ++ shellPrintUint uid.toUInt32 ++ write "(" ++ vgaWriteString name ++
  write ") groups=" ++ shellPrintUint uid.toUInt32 ++ write "(" ++ vgaWriteString name ++
  write ")" ++ (if uid ≠ shellUidRoot then write ",27(sudo)" else []) ++ write "\n"

/-! ### Creating -/

/-- The directory that holds the last component of a path; `none` is `-1`. -/
def resolveParentPath (t : Nodes) (cwd : Int) (path : CStr) : Except Fault (Option Int) :=
  if path.chars = [] then return none
  else
    match lastSlash path.chars with
    | none => return some cwd
    | some pos =>
      if pos = path.chars.length - 1 then return none
      else if pos = 0 then return some fsGetRoot
      else if pos ≥ 128 then return none  -- `sizeof(parent_path)`
      else do
        let parent ← fsResolve t cwd (path.take pos)
        return if parent ≥ 0 ∧ fsIsDir t parent = true then some parent else none

/-- What `ensure_parent_writable` prints when it refuses. -/
def ensureParentWritable (t : Nodes) (cwd : Int) (path : CStr) (uid : UInt16) :
    Except Fault (Option Text) := do
  match ← resolveParentPath t cwd path with
  | none => return some (println "path: invalid parent")
  | some parent =>
    return if !fsCheckAccess t parent uid (fsAccessWrite ||| fsAccessExec) then
      some (println "permission denied") else none

def cmdMkdir (t : Nodes) (cwd : Int) (args : List CStr) (uid : UInt16) : Except Fault (Text × Nodes) :=
  match args with
  | [] => return (println "mkdir: missing operand", t)
  | path :: _ => do
    let existing ← fsResolve t cwd path
    if existing ≥ 0 then
      return (if fsIsDir t existing then [] else println "mkdir: path exists as file", t)
    else
      match ← ensureParentWritable t cwd path uid with
      | some text => return (text, t)
      | none => do
        let (status, t) ← fsMkdirAs t cwd path uid fsDefaultDirMode
        return (if status ≠ 0 then println "mkdir: failed" else [], t)

def cmdTouch (t : Nodes) (cwd : Int) (args : List CStr) (uid : UInt16) : Except Fault (Text × Nodes) :=
  match args with
  | [] => return (println "touch: missing operand", t)
  | path :: _ => do
    let node ← fsResolve t cwd path
    if node ≥ 0 then
      return (if fsIsDir t node then println "touch: is a directory"
        else if !fsCheckAccess t node uid fsAccessWrite then println "touch: permission denied"
        else [], t)
    else
      match ← ensureParentWritable t cwd path uid with
      | some text => return (text, t)
      | none => do
        let (status, t) ← fsTouchAs t cwd path uid fsDefaultFileMode
        return (if status ≠ 0 then println "touch: failed" else [], t)

/-! ### Writing and removing -/

/-- The words of a `write` in its buffer, a space after each but the last, as many as fit. -/
def joinWords (buffer : List UInt8) : List CStr → List UInt8
  | [] => buffer
  | word :: rest =>
    if buffer.length + word.chars.length + 2 ≥ 4096 then buffer
    else joinWords (buffer ++ word.chars ++ (if rest ≠ [] then [32] else [])) rest

def cmdWrite (t : Nodes) (cwd : Int) (args : List CStr) : Except Fault (Text × Nodes) :=
  match args with
  | path :: word :: words => do
    let buffer := joinWords [] (word :: words)
    let (status, t) ← fsWriteFile t cwd path (some buffer) buffer.length
    return (if status ≠ 0 then println "write: failed" else [], t)
  | _ => return (println "write: usage write <file> <text>", t)

def cmdRm (t : Nodes) (cwd : Int) (args : List CStr) : Except Fault (Text × Nodes) :=
  match args with
  | [] => return (println "rm: missing operand", t)
  | path :: _ => do
    let (status, t) ← fsRemove t cwd path
    return (if status ≠ 0 then println "rm: failed (path missing or directory not empty)" else [], t)

/-! ### Owners and modes -/

def cmdChmod (t : Nodes) (cwd : Int) (args : List CStr) (uid : UInt16) : Except Fault (Text × Nodes) :=
  match args with
  | mode :: path :: _ =>
    match parseModeOctal mode.chars with
    | none => return (println "chmod: invalid mode (use octal, e.g. 755)", t)
    | some mode => do
      let node ← fsResolve t cwd path
      if node < 0 then return (println "chmod: path not found", t)
      else if uid ≠ shellUidRoot ∧ UInt16.ofInt (fsGetOwner t node) ≠ uid then
        return (println "chmod: permission denied", t)
      else return ([], (fsSetMode t node mode).2)
  | _ => return (println "chmod: usage chmod <mode> <path>", t)

def cmdChown (t : Nodes) (cwd : Int) (args : List CStr) (uid : UInt16) : Except Fault (Text × Nodes) :=
  match args with
  | user :: path :: _ =>
    match requireRoot uid with
    | some text => return (text, t)
    | none =>
      match parseUid user with
      | none => return (println "chown: invalid user (use root, debian, or numeric uid)", t)
      | some owner => do
        let node ← fsResolve t cwd path
        if node < 0 then return (println "chown: path not found", t)
        else return ([], (fsSetOwner t node owner).2)
  | _ => return (println "chown: usage chown <user> <path>", t)

/-! ### The editor -/

/-- `char buffer[FS_MAX_FILE_SIZE]` and `len`. -/
abbrev NanoBuffer := CharBuffer 4096

namespace NanoBuffer

def empty : NanoBuffer := ⟨[], by decide⟩

/-- The copy of a file's data. -/
def ofData (data : Fin 4096 → UInt8) (size : UInt64) : NanoBuffer :=
  ⟨(List.ofFn data).take (clampSize size.toNat), by
    have := clampSize_lt size.toNat
    rw [List.length_take]
    omega⟩

end NanoBuffer

/-- What a key that is no command does to the buffer and the screen; `none` if nothing. -/
def nanoKey (buffer : NanoBuffer) (c : UInt8) : Option (NanoBuffer × Out) :=
  if c = 8 then if buffer.chars = [] then none else some (buffer.back, .backspace)
  else if c = 10 ∨ c = 13 then
    if h : buffer.chars.length + 1 < 4096 then some (buffer.push 10 h, .putchar 10) else none
  else if h : isPrintable c = true ∧ buffer.chars.length + 1 < 4096 then
    some (buffer.push c h.2, .putchar c)
  else none

/-- Ctrl+S and Ctrl+X. -/
def keySave : UInt8 := 19
def keyExit : UInt8 := 24

/-- The loop of `cmd_nano` over the keys to come: the table, what is printed and the keys left
over; `none` while it still waits for one. -/
def nanoLoop (t : Nodes) (cwd : Int) (path : CStr) (buffer : NanoBuffer) (dirty : Bool) :
    List UInt8 → Except Fault (Nodes × Text × Option (List UInt8))
  | [] => return (t, [], none)
  | c :: keys =>
    if c = keySave then do
      let (_, t) ← fsWriteFile t cwd path (some buffer.chars) buffer.chars.length
      let (t, text, rest) ← nanoLoop t cwd path buffer false keys
      return (t, println "\n[saved]" ++ text, rest)
    else if c = keyExit then
      if dirty then do
        let (_, t) ← fsWriteFile t cwd path (some buffer.chars) buffer.chars.length
        return (t, println "\n[exit nano]", some keys)
      else return (t, println "\n[exit nano]", some keys)
    else
      match nanoKey buffer c with
      | none => nanoLoop t cwd path buffer dirty keys
      | some (buffer, out) => do
        let (t, text, rest) ← nanoLoop t cwd path buffer true keys
        return (t, out :: text, rest)

def nanoHeader : Text :=
  println "--- FurNano ---" ++ println "Ctrl+S save, Ctrl+X save+exit" ++ println "---------------"

/-- What the editor starts from: the second `fs_read_file`. -/
def nanoOpen (t : Nodes) (cwd : Int) (path : CStr) : Except Fault NanoBuffer := do
  match ← fsReadFile t cwd path with
  | none => return NanoBuffer.empty
  | some (data, size) => return NanoBuffer.ofData data size

/-- `vga_write_string(buffer)`, which stops at the first terminator. -/
def nanoShow (buffer : NanoBuffer) : Text := vgaWriteString (buffer.chars.takeWhile (· ≠ 0))

/-- What `nanoLoop` gives, from the opening on. -/
def cmdNano (t : Nodes) (cwd : Int) (args : List CStr) (keys : List UInt8) :
    Except Fault (Nodes × Text × Option (List UInt8)) :=
  match args with
  | [] => return (t, println "nano: usage nano <file>", some keys)
  | path :: _ => do
    let (status, t) ← fsTouch t cwd path
    if status ≠ 0 then return (t, println "nano: unable to open file", some keys)
    else
      match ← fsReadFile t cwd path with
      | none => return (t, println "nano: unable to open file", some keys)
      | some _ => do
        let buffer ← nanoOpen t cwd path
        let (t, text, rest) ← nanoLoop t cwd path buffer false keys
        return (t, nanoHeader ++ nanoShow buffer ++ text, rest)

end FurOS
