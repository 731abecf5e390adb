import FurOS.Fs.Path

/-! The filesystem operations (`kernel/fs.c`).

Each returns the status the C function returns, `0` or `-1`, with the table it
leaves. A read gives the array and size that the C function hands out pointers
to. -/
namespace FurOS

def fsMkdirAs (t : Nodes) (cwd : Int) (path : CStr) (owner mode : UInt16) : Except Fault (Int × Nodes) := do
  match ← resolveParentAndLeaf t cwd path with
  | none => return (-1, t)
  | some (parent, leaf) =>
    match findChild t parent leaf.chars with
    | some existing => return (if (t existing).isDir then 0 else -1, t)
    | none =>
      match allocNode t with
      | none => return (-1, t)
      | some (node, t) =>
        return (0, Function.update t node
          {t node with
            isDir := true
            parent := Int32.ofInt parent
            owner := owner
            mode := mode &&& 0o777
            name := kstrcpy (t node).name leaf.chars})

def fsMkdir (t : Nodes) (cwd : Int) (path : CStr) : Except Fault (Int × Nodes) :=
  fsMkdirAs t cwd path 0 fsDefaultDirMode

def fsTouchAs (t : Nodes) (cwd : Int) (path : CStr) (owner mode : UInt16) : Except Fault (Int × Nodes) := do
  match ← resolveParentAndLeaf t cwd path with
  | none => return (-1, t)
  | some (parent, leaf) =>
    match findChild t parent leaf.chars with
    | some existing => return (if (t existing).isDir then -1 else 0, t)
    | none =>
      match allocNode t with
      | none => return (-1, t)
      | some (node, t) =>
        return (0, Function.update t node
          {t node with
            isDir := false
            parent := Int32.ofInt parent
            owner := owner
            mode := mode &&& 0o777
            size := 0
            data := Function.update (t node).data 0 0
            name := kstrcpy (t node).name leaf.chars})

def fsTouch (t : Nodes) (cwd : Int) (path : CStr) : Except Fault (Int × Nodes) :=
  fsTouchAs t cwd path 0 fsDefaultFileMode

/-! ### What the two creations share -/

/-- The directory that `fs_mkdir_as` makes of the slot it took. -/
def dirNode (owner mode : UInt16) (parent : Int) (leaf : Name) (m : FsNode) : FsNode :=
  {m with
    isDir := true
    parent := Int32.ofInt parent
    owner := owner
    mode := mode &&& 0o777
    name := kstrcpy m.name leaf.chars}

/-- The empty file that `fs_touch_as` makes of it. -/
def fileNode (owner mode : UInt16) (parent : Int) (leaf : Name) (m : FsNode) : FsNode :=
  {m with
    isDir := false
    parent := Int32.ofInt parent
    owner := owner
    mode := mode &&& 0o777
    size := 0
    data := Function.update m.data 0 0
    name := kstrcpy m.name leaf.chars}

/-- A creation: `found` is the status for a node that is there already, by its kind, and `make`
what becomes of a new slot. -/
def create (t : Nodes) (cwd : Int) (path : CStr) (found : Bool → Int)
    (make : Int → Name → FsNode → FsNode) : Except Fault (Int × Nodes) := do
  match ← resolveParentAndLeaf t cwd path with
  | none => return (-1, t)
  | some (parent, leaf) =>
    match findChild t parent leaf.chars with
    | some existing => return (found (t existing).isDir, t)
    | none =>
      match allocNode t with
      | none => return (-1, t)
      | some (node, t) => return (0, Function.update t node (make parent leaf (t node)))

theorem fsMkdirAs_eq (t : Nodes) (cwd : Int) (path : CStr) (owner mode : UInt16) :
    fsMkdirAs t cwd path owner mode =
      create t cwd path (fun isDir => if isDir then 0 else -1) (dirNode owner mode) := by
  refine congrArg (resolveParentAndLeaf t cwd path >>= ·) (funext fun o => ?_)
  cases o with
  | none => rfl
  | some x =>
    dsimp only
    cases findChild t x.1 x.2.chars with
    | some e => rfl
    | none =>
      cases allocNode t with
      | none => rfl
      | some y => rfl

theorem fsTouchAs_eq (t : Nodes) (cwd : Int) (path : CStr) (owner mode : UInt16) :
    fsTouchAs t cwd path owner mode =
      create t cwd path (fun isDir => if isDir then -1 else 0) (fileNode owner mode) := by
  refine congrArg (resolveParentAndLeaf t cwd path >>= ·) (funext fun o => ?_)
  cases o with
  | none => rfl
  | some x =>
    dsimp only
    cases findChild t x.1 x.2.chars with
    | some e => rfl
    | none =>
      cases allocNode t with
      | none => rfl
      | some y => rfl

/-- What `make` sets of a slot: everything but that it is in use, and no byte of data. -/
structure Makes (dir : Bool) (owner mode : UInt16) (make : Int → Name → FsNode → FsNode) : Prop where
  used : ∀ p leaf m, (make p leaf m).used = m.used
  isDir : ∀ p leaf m, (make p leaf m).isDir = dir
  parent : ∀ p leaf m, (make p leaf m).parent = Int32.ofInt p
  owner : ∀ p leaf m, (make p leaf m).owner = owner
  mode : ∀ p leaf m, (make p leaf m).mode = mode &&& 0o777
  name : ∀ p leaf m, (make p leaf m).name = kstrcpy m.name leaf.chars
  size : ∀ p leaf m, m.size = 0 → (make p leaf m).size = 0
  data : ∀ p leaf m, m.data 0 = 0 → (make p leaf m).data 0 = 0

theorem dirNode_makes (owner mode : UInt16) : Makes true owner mode (dirNode owner mode) :=
  ⟨fun _ _ _ => rfl, fun _ _ _ => rfl, fun _ _ _ => rfl, fun _ _ _ => rfl, fun _ _ _ => rfl,
    fun _ _ _ => rfl, fun _ _ _ h => h, fun _ _ _ h => h⟩

theorem fileNode_makes (owner mode : UInt16) : Makes false owner mode (fileNode owner mode) :=
  ⟨fun _ _ _ => rfl, fun _ _ _ => rfl, fun _ _ _ => rfl, fun _ _ _ => rfl, fun _ _ _ => rfl,
    fun _ _ _ => rfl, fun _ _ _ _ => rfl, fun _ _ m _ => Function.update_self 0 0 m.data⟩

/-! ### Listing, reading, writing, removing -/

/-- The count returned and the entries stored in `out`, at most `maxOut` of them;
`none` is `-1`. The count of slots never passes `INT_MAX`. -/
def fsList (t : Nodes) (dir : Int) (maxOut : Nat) : Option (Nat × List NodeId) :=
  match usedNode t dir with
  | none => none
  | some d =>
    if !(t d).isDir then none
    else
      let entries := (List.finRange 128).filter fun i =>
        (t i).used && decide ((t i).parent.toInt = dir) && decide ((i.val : Int) ≠ dir)
      some (entries.length, entries.take maxOut)

/-- What `*data` and `*size` are set to; `none` is `-1`. -/
def fsReadFile (t : Nodes) (cwd : Int) (path : CStr) :
    Except Fault (Option ((Fin 4096 → UInt8) × UInt64)) := do
  let node ← fsResolve t cwd path
  if node < 0 then return none
  else do
    let n ← nodeIndex node
    if (t n).isDir then return none
    else return some ((t n).data, (t n).size)

/-- `size`, cut to what a node can hold. -/
def clampSize (size : Nat) : Nat := if size ≥ 4096 then 4095 else size

theorem clampSize_lt (size : Nat) : clampSize size < 4096 := by
  unfold clampSize
  split <;> omega

/-- `kmemcpy` of `size` bytes over the start of the data; a null pointer copies nothing. -/
def copyData (data : Fin 4096 → UInt8) (src : Option (List UInt8)) (size : Nat) :
    Except Fault (Fin 4096 → UInt8) :=
  match src with
  | none => .ok data
  | some src =>
    if size > src.length then .error (.source size)
    else .ok fun i => if h : i.val < size ∧ i.val < src.length then src[i.val] else data i

/-- The end of `fs_write_file`: the data of a node that is not a directory replaced. -/
def writeNode (t : Nodes) (node : Int) (src : Option (List UInt8)) (size : Nat) :
    Except Fault (Int × Nodes) :=
  if node < 0 then return (-1, t)
  else do
    let n ← nodeIndex node
    if (t n).isDir then return (-1, t)
    else do
      let data ← copyData (t n).data src (clampSize size)
      return (0, Function.update t n
        {t n with
          data := Function.update data ⟨clampSize size, clampSize_lt size⟩ 0
          size := UInt64.ofNat (clampSize size)})

def fsWriteFile (t : Nodes) (cwd : Int) (path : CStr) (src : Option (List UInt8)) (size : Nat) :
    Except Fault (Int × Nodes) := do
  let node ← fsResolve t cwd path
  if node < 0 then do
    let (status, t) ← fsTouch t cwd path
    if status ≠ 0 then return (-1, t)
    else do
      let node ← fsResolve t cwd path
      writeNode t node src size
  else writeNode t node src size

def fsRemove (t : Nodes) (cwd : Int) (path : CStr) : Except Fault (Int × Nodes) := do
  let node ← fsResolve t cwd path
  if node ≤ 0 then return (-1, t)
  else do
    let n ← nodeIndex node
    if (t n).isDir && decide (∃ i, (t i).used = true ∧ (t i).parent.toInt = node) then return (-1, t)
    else return (0, Function.update t n {t n with used := false})

/-! ### Paths of nodes -/

/-- The characters stored so far from the start of `out`, which has room for `cap`. -/
structure Written (cap : Nat) where
  chars : List UInt8
  fits : chars.length ≤ cap

/-- The next characters stored after those already in `out`. -/
def Written.put {cap : Nat} (out : Written cap) (s : List UInt8) : Except Fault (Written cap) :=
  if h : (out.chars ++ s).length ≤ cap then .ok ⟨out.chars ++ s, h⟩
  else .error (.buffer (out.chars.length + s.length - 1))

/-- The nodes from `node` up to, and without, the root, at most 128 of them: `stack`,
its last entry first. -/
def pathStack (t : Nodes) (node : Int) (stack : List Int) : Nat → Except Fault (List Int)
  | 0 => return stack
  | room + 1 =>
    if node = 0 then return stack
    else do
      let n ← nodeIndex node
      pathStack t (t n).parent.toInt (node :: stack) room

/-- The names of the nodes on the stack, each but the last followed by `'/'`. -/
def putNames (t : Nodes) {cap : Nat} (out : Written cap) : List Int → Except Fault (Int × Written cap)
  | [] => do
    let out ← out.put [0]
    return (0, out)
  | node :: rest => do
    let n ← nodeIndex node
    let name ← readStr (t n).name
    if out.chars.length + name.length + 1 ≥ cap then return (-1, out)
    else do
      let out ← out.put name
      let out ← if rest ≠ [] then out.put [slash] else pure out
      putNames t out rest

/-- The status and what has been stored in `out`, the terminator included. -/
def fsMakePath (t : Nodes) (node : Int) (cap : Nat) : Except Fault (Int × Written cap) :=
  let out : Written cap := ⟨[], Nat.zero_le cap⟩
  if cap = 0 then return (-1, out)
  else if (usedNode t node).isNone then return (-1, out)
  else if node = 0 then
    if cap < 2 then return (-1, out)
    else do
      let out ← out.put [slash, 0]
      return (0, out)
  else do
    let stack ← pathStack t node [] 128
    if 1 ≥ cap then return (-1, out)
    else do
      let out ← out.put [slash]
      putNames t out stack

end FurOS
