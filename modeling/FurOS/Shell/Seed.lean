import FurOS.Fs.Operations
import FurOS.Shell.Text

/-! The first files of a filesystem (`cmd_install`, `shell_seed_filesystem`).

Both make the same directories and write files under `etc`; what their calls
return is not looked at. -/
namespace FurOS

/-- `os_release` of `cmd_install`. -/
def osReleaseInstalled : String :=
  "PRETTY_NAME=\"FurOS 1.0 (Bookworm)\"\n" ++
  "NAME=\"FurOS\"\n" ++
  "VERSION_ID=\"1.0\"\n" ++
  "VERSION=\"1.0 (Bookworm)\"\n" ++
  "VERSION_CODENAME=bookworm\n" ++
  "ID=furos\n" ++
  "ID_LIKE=debian\n"

/-- `os_release` of `shell_seed_filesystem`. -/
def osRelease : String :=
  "PRETTY_NAME=\"FurOS 1.0 (Bookworm)\"\n" ++
  "NAME=\"FurOS\"\n" ++
  "VERSION_ID=\"1.0\"\n" ++
  "VERSION=\"1.0 (Bookworm)\"\n" ++
  "VERSION_CODENAME=bookworm\n" ++
  "ID=furos\n" ++
  "ID_LIKE=debian\n" ++
  "HOME_URL=\"https://furos.org/\"\n" ++
  "SUPPORT_URL=\"https://furos.org/support\"\n" ++
  "BUG_REPORT_URL=\"https://furos.org/bugs\"\n"

def hostname : String := "furos\n"

def passwd : String :=
  "root:x:0:0:root:/root:/bin/sh\n" ++
  "debian:x:1000:1000:Debian User,,,:/home/debian:/bin/sh\n"

def group : String :=
  "root:x:0:\n" ++
  "sudo:x:27:debian\n" ++
  "debian:x:1000:\n"

def bashrc : String :=
  "# ~/.bashrc: executed by bash for non-login shells\n" ++
  "PS1='\\u@furos:\\w\\$ '\n" ++
  "alias ls='ls --color=auto'\n" ++
  "alias ll='ls -la'\n"

def motd : String :=
  "\n" ++
  "  ______           ____  ____\n" ++
  " |  ____|         / __ \\/ ___|\n" ++
  " | |__ _   _ _ __| |  | \\___ \\\n" ++
  " |  __| | | | '__| |  | |___) |\n" ++
  " | |  | |_| | |  | |__| |____/\n" ++
  " |_|   \\__,_|_|   \\____/\n" ++
  "\n" ++
  " FurOS 1.0 (based on Debian GNU/Linux 12 Bookworm)\n" ++
  " Type 'help' for available commands.\n" ++
  "\n"

/-! ### Calls whose status is dropped -/

def makeDir (t : Nodes) (cwd : Int) (path : String) (owner : UInt16) : Except Fault Nodes := do
  let (_, t) ← fsMkdirAs t cwd (.ofLit path) owner 0o755
  return t

/-- The directories of the root, one after another. -/
def makeDirs (t : Nodes) : List String → Except Fault Nodes
  | [] => return t
  | path :: rest => do
    let t ← makeDir t fsGetRoot path shellUidRoot
    makeDirs t rest

def writeText (t : Nodes) (cwd : Int) (path text : String) : Except Fault Nodes := do
  let (_, t) ← fsWriteFile t cwd (.ofLit path) (some (lit text)) (lit text).length
  return t

/-- Texts written from the root, one after another. -/
def writeTexts (t : Nodes) : List (String × String) → Except Fault Nodes
  | [] => return t
  | (path, text) :: rest => do
    let t ← writeText t fsGetRoot path text
    writeTexts t rest

def standardDirs : List String := ["bin", "etc", "home", "var", "tmp", "usr"]

/-! ### The two layouts -/

/-- `home/debian`, where there is a `home`. -/
def installHome (t : Nodes) : Except Fault Nodes := do
  let home ← fsResolve t fsGetRoot (.ofLit "home")
  if home ≥ 0 then makeDir t home "debian" shellUidDebian else return t

/-- What `cmd_install` does to the table between formatting and saving. -/
def installFilesystem (t : Nodes) : Except Fault Nodes := do
  let t ← makeDirs t standardDirs
  let t ← installHome t
  writeTexts t
    [("etc/os-release", osReleaseInstalled), ("etc/hostname", hostname), ("etc/passwd", passwd),
      ("etc/group", group)]

/-- `home/debian` with its `.bashrc`. -/
def seedHome (t : Nodes) : Except Fault Nodes := do
  let home ← fsResolve t fsGetRoot (.ofLit "home")
  if home ≥ 0 then do
    let t ← makeDir t home "debian" shellUidDebian
    let deb ← fsResolve t home (.ofLit "debian")
    if deb ≥ 0 then writeText t deb ".bashrc" bashrc else return t
  else return t

def shellSeedFilesystem (t : Nodes) : Except Fault Nodes := do
  let t ← makeDirs t standardDirs
  let t ← seedHome t
  writeTexts t
    [("etc/os-release", osRelease), ("etc/hostname", hostname), ("etc/motd", motd),
      ("etc/passwd", passwd), ("etc/group", group)]

end FurOS
