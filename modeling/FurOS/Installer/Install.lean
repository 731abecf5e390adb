import FurOS.Fs.Operations
import FurOS.Installer.Stages

/-! The page that installs (`stage_install` of `kernel/installer.c`).

Five steps: the boot area, an empty filesystem, its directories, its files, and
the save. Only the first two and the last are checked. The lines of `/etc/passwd` and
`/etc/group` are put together in arrays of 128 characters, up to 120 of them. -/
namespace FurOS.Installer

/-- Why the installer goes no further. -/
inductive Halt where
  | waiting
  | cancelled
  /-- "Installation failed!", at a step. -/
  | failed (step : Nat) (d : Disk)
  | complete
  | fault (f : Fault)

def InputBuffer.str {cap : Nat} (buf : InputBuffer cap) : CStr :=
  ⟨buf.chars, fun h => absurd (buf.printable 0 h) (by decide)⟩

/-- `while (src[j] && p < 120) { line[p++] = src[j++]; }`. -/
def appendUpTo (line src : List UInt8) : List UInt8 := line ++ src.take (120 - line.length)

/-- Appending up to the limit stays below a bound that the text and the limit are below. -/
theorem appendUpTo_le {line : List UInt8} {bound : Nat} (h : line.length ≤ bound) (hlimit : 120 ≤ bound)
    (src : List UInt8) : (appendUpTo line src).length ≤ bound := by
  rw [appendUpTo, List.length_append, List.length_take]
  omega

def hostnameLine (w : Wiz) : List UInt8 := w.hostname.chars ++ [10]

def timezoneLine (w : Wiz) : List UInt8 := w.timezone.chars ++ [10]

def passwdLineOf (username : List UInt8) : List UInt8 :=
  let line := lit "root:x:0:0:root:/root:/bin/sh\n"
  let line := appendUpTo line username
  let line := appendUpTo line (lit ":x:1000:1000::/home/")
  let line := appendUpTo line username
  appendUpTo line (lit ":/bin/sh\n")

def passwdLine (w : Wiz) : List UInt8 := passwdLineOf w.username.chars

def groupLineOf (username : List UInt8) : List UInt8 :=
  let line := appendUpTo [] (lit "root:x:0:\nsudo:x:27:")
  let line := appendUpTo line username
  let line := line ++ [10]
  let line := appendUpTo line username
  appendUpTo line (lit ":x:1000:\n")

def groupLine (w : Wiz) : List UInt8 := groupLineOf w.username.chars

def osr : String :=
  "PRETTY_NAME=\"FurOS 1.0 (Bookworm)\"\n" ++
  "NAME=\"FurOS\"\n" ++
  "VERSION_ID=\"1.0\"\n" ++
  "VERSION=\"1.0 (Bookworm)\"\n" ++
  "VERSION_CODENAME=bookworm\n" ++
  "ID=furos\n" ++
  "ID_LIKE=debian\n" ++
  "HOME_URL=\"https://furos.org/\"\n"

def motd : List UInt8 :=
  lit ("\n" ++
    "  ______           ____  ____\n" ++
    " |  ____|         / __ \\/ ___|\n" ++
    " | |__ _   _ _ __| |  | \\___ \\\n" ++
    " |  __| | | | '__| |  | |___) |\n" ++
    " | |  | |_| | |  | |__| |____/\n" ++
    " |_|   \\__,_|_|   \\____/\n" ++
    "\n" ++
    " FurOS 1.0  ") ++ [0xb3] ++
  lit ("  Debian GNU/Linux 12 Bookworm\n" ++
    " Type 'help' for available commands.\n" ++
    " Type 'logout' to return to the desktop.\n" ++
    "\n")

def bashrc : String :=
  "# FurOS ~/.bashrc\n" ++
  "alias ls='ls'\n" ++
  "alias ll='ls'\n"

/-! ### Calls whose status is dropped -/

def makeDir (t : Nodes) (cwd : Int) (path : CStr) (owner mode : UInt16) : Except Fault Nodes := do
  let (_, t) ← fsMkdirAs t cwd path owner mode
  return t

/-- Directories of the root, one after another. -/
def makeDirs (t : Nodes) : List (String × UInt16) → Except Fault Nodes
  | [] => return t
  | (path, mode) :: rest => do
    let t ← makeDir t fsGetRoot (.ofLit path) 0 mode
    makeDirs t rest

def writeText (t : Nodes) (cwd : Int) (path : String) (text : List UInt8) : Except Fault Nodes := do
  let (_, t) ← fsWriteFile t cwd (.ofLit path) (some text) text.length
  return t

/-- Texts written from the root, one after another. -/
def writeTexts (t : Nodes) : List (String × List UInt8) → Except Fault Nodes
  | [] => return t
  | (path, text) :: rest => do
    let t ← writeText t fsGetRoot path text
    writeTexts t rest

/-! ### The steps -/

def rootDirs : List (String × UInt16) :=
  [("bin", 0o755), ("etc", 0o755), ("home", 0o755), ("var", 0o755), ("tmp", 0o1777), ("usr", 0o755),
    ("run", 0o755)]

/-- Step 2. -/
def installDirsOf (username : CStr) (t : Nodes) : Except Fault Nodes := do
  let t ← makeDirs t rootDirs
  let home ← fsResolve t fsGetRoot (.ofLit "home")
  if home ≥ 0 then makeDir t home username 1000 0o755 else return t

/-- The files of step 3 under `etc`. -/
def configTextsOf (hostname timezone username : CStr) : List (String × List UInt8) :=
  [("etc/hostname", hostname.chars ++ [10]), ("etc/timezone", timezone.chars ++ [10]), ("etc/os-release", lit osr),
    ("etc/passwd", passwdLineOf username.chars), ("etc/group", groupLineOf username.chars), ("etc/motd", motd)]

/-- The `.bashrc` of the user, where there is a place for it. -/
def bashrcOf (username : CStr) (t : Nodes) : Except Fault Nodes := do
  let home ← fsResolve t fsGetRoot (.ofLit "home")
  if home ≥ 0 then do
    let hn ← fsResolve t home username
    if hn ≥ 0 then writeText t hn ".bashrc" (lit bashrc) else return t
  else return t

/-- Steps 2 and 3 for any strings. -/
def installTreeOf (hostname timezone username : CStr) (t : Nodes) : Except Fault Nodes := do
  let t ← installDirsOf username t
  let t ← writeTexts t (configTextsOf hostname timezone username)
  bashrcOf username t

def installDirs (w : Wiz) (t : Nodes) : Except Fault Nodes := installDirsOf w.username.str t

def configTexts (w : Wiz) : List (String × List UInt8) := configTextsOf w.hostname.str w.timezone.str w.username.str

theorem configTexts_eq (w : Wiz) : configTexts w =
    [("etc/hostname", hostnameLine w), ("etc/timezone", timezoneLine w), ("etc/os-release", lit osr),
      ("etc/passwd", passwdLine w), ("etc/group", groupLine w), ("etc/motd", motd)] := rfl

def installBashrc (w : Wiz) (t : Nodes) : Except Fault Nodes := bashrcOf w.username.str t

/-- Step 3. -/
def installConfig (w : Wiz) (t : Nodes) : Except Fault Nodes := do
  let t ← writeTexts t (configTexts w)
  installBashrc w t

/-- Steps 2 and 3. -/
def installTree (w : Wiz) (t : Nodes) : Except Fault Nodes := do
  let t ← installDirs w t
  installConfig w t

/-- `stage_install`, where it returns (with `1`). -/
def stageInstall (l : Linked) (devices : Devices) (w : Wiz) (d : Disk) : Except Halt (Nodes × Disk) :=
  match diskInstallSystem l ((diskGetInfo devices d.selectedDisk).map (·.sectors28)) d with
  | (status, d) =>
    if status ≠ 0 then .error (.failed 0 d)
    else
      match diskFormatFs d with
      | (status, t, d) =>
        if status ≠ 0 then .error (.failed 1 d)
        else
          match installTree w t with
          | .error f => .error (.fault f)
          | .ok t =>
            match diskSaveFs t d with
            | (status, d) => if status ≠ 0 then .error (.failed 4 d) else .ok (t, d)

end FurOS.Installer
