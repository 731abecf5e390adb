import FurOS.Foundation.Packed
import FurOS.Fs.WellFormed

/-! The packed image of the table (`fs_serialize`, `fs_deserialize`).

An image is a 16-byte header and 128 records. Version 2 records have 4142 bytes and
every field of a slot; version 1 records have 4138 and no owner or mode. Decoding
cuts sizes, masks modes and ends names and data inside their arrays, so that
whatever was read is `Normal`, and encoding what was decoded gives it back. -/
namespace FurOS
open Foundation (Field)
open Foundation.Buffer (slice spliceAll)

/-! ### The packed structures -/

structure FsDiskHeader where
  magic : Fin 8 → UInt8
  version : UInt32
  nodeCount : UInt32

structure FsDiskNode where
  used : UInt8
  isDir : UInt8
  parent : Int32
  owner : UInt16
  mode : UInt16
  size : UInt32
  name : Fin 32 → UInt8
  data : Fin 4096 → UInt8

structure FsDiskNodeV1 where
  used : UInt8
  isDir : UInt8
  parent : Int32
  size : UInt32
  name : Fin 32 → UInt8
  data : Fin 4096 → UInt8

def FsDiskHeader.field : Field 16 FsDiskHeader where
  put h := Field.u32.store (Field.u32.store ((Field.bytes 8).store (fun _ => 0) 0 h.magic) 8 h.version)
    12 h.nodeCount
  get b :=
    { magic := (Field.bytes 8).load b 0 (by decide)
      version := Field.u32.load b 8 (by decide)
      nodeCount := Field.u32.load b 12 (by decide) }
  get_put h := by
    simp (disch := decide) only [Field.load_store, Field.load_store_disjoint]

def FsDiskNode.field : Field 4142 FsDiskNode where
  put n :=
    let b := Field.u8.store (Field.u8.store (fun _ => 0) 0 n.used) 1 n.isDir
    let b := Field.u16.store (Field.u16.store (Field.i32.store b 2 n.parent) 6 n.owner) 8 n.mode
    (Field.bytes 4096).store ((Field.bytes 32).store (Field.u32.store b 10 n.size) 14 n.name) 46 n.data
  get b :=
    { used := Field.u8.load b 0 (by decide)
      isDir := Field.u8.load b 1 (by decide)
      parent := Field.i32.load b 2 (by decide)
      owner := Field.u16.load b 6 (by decide)
      mode := Field.u16.load b 8 (by decide)
      size := Field.u32.load b 10 (by decide)
      name := (Field.bytes 32).load b 14 (by decide)
      data := (Field.bytes 4096).load b 46 (by decide) }
  get_put n := by
    simp (disch := decide) only [Field.load_store, Field.load_store_disjoint]

theorem FsDiskNode.load_used {n : Nat} (b : Fin n → UInt8) (off : Nat) (h : off + 4142 ≤ n) :
    (FsDiskNode.field.load b off h).used = b ⟨off, by omega⟩ := rfl

theorem FsDiskNode.load_isDir {n : Nat} (b : Fin n → UInt8) (off : Nat) (h : off + 4142 ≤ n) :
    (FsDiskNode.field.load b off h).isDir = b ⟨off + 1, by omega⟩ := rfl

def FsDiskNodeV1.get (b : Fin 4138 → UInt8) : FsDiskNodeV1 :=
  { used := Field.u8.load b 0 (by decide)
    isDir := Field.u8.load b 1 (by decide)
    parent := Field.i32.load b 2 (by decide)
    size := Field.u32.load b 6 (by decide)
    name := (Field.bytes 32).load b 10 (by decide)
    data := (Field.bytes 4096).load b 42 (by decide) }

/-! ### Encoding -/

/-- The record of a slot. -/
def FsDiskNode.ofNode (n : FsNode) : FsDiskNode :=
  { used := if n.used then 1 else 0
    isDir := if n.isDir then 1 else 0
    parent := n.parent
    owner := n.owner
    mode := n.mode
    size := n.size.toUInt32
    name := n.name
    data := n.data }

def fsHeader : FsDiskHeader :=
  { magic := kstrcpy (fun _ => 0) (lit "FURFSv1"), version := 2, nodeCount := 128 }

/-- The length of the image, `0` where `out` is too small for it, and what `out` holds then. -/
def fsSerialize (t : Nodes) {maxLen : Nat} (out : Fin maxLen → UInt8) :
    {len : Nat // len ≤ maxLen} × (Fin maxLen → UInt8) :=
  if h : maxLen < 530192 then (⟨0, Nat.zero_le maxLen⟩, out)
  else
    let out := FsDiskHeader.field.store out 0 fsHeader
    let record i := FsDiskNode.field.put (.ofNode (t (Fin.ofNat 128 i)))
    (⟨530192, Nat.le_of_not_lt h⟩, spliceAll out 16 record 128)

/-! ### Decoding -/

def loadSize (size : UInt32) : UInt64 := if size.toUInt64 ≥ 4096 then 4095 else size.toUInt64

theorem loadSize_lt (size : UInt32) : (loadSize size).toNat < 4096 := by
  unfold loadSize
  split
  · decide
  · rename_i h
    rw [ge_iff_le, UInt64.le_iff_toNat_le] at h
    exact Nat.lt_of_not_le h

/-- A version 1 record, with what its slot gets for the fields it lacks. -/
def FsDiskNodeV1.upgrade (dn : FsDiskNodeV1) : FsDiskNode :=
  { used := dn.used
    isDir := dn.isDir
    parent := dn.parent
    owner := 0
    mode := if dn.isDir ≠ 0 then fsDefaultDirMode else fsDefaultFileMode
    size := dn.size
    name := dn.name
    data := dn.data }

/-- The slot of a record. -/
def FsDiskNode.load (dn : FsDiskNode) : FsNode :=
  { used := dn.used ≠ 0
    isDir := dn.isDir ≠ 0
    parent := dn.parent
    owner := dn.owner
    mode := dn.mode &&& 0o777
    size := loadSize dn.size
    name := Function.update dn.name 31 0
    data := Function.update dn.data ⟨(loadSize dn.size).toNat, loadSize_lt dn.size⟩ 0 }

/-- The records of an image, once its header and its length have been checked; `none` is
`return -1`. -/
def readRecords {len : Nat} (inp : Fin len → UInt8) : Option (NodeId → FsDiskNode) :=
  if h : len < 16 then none
  else
    let header := FsDiskHeader.field.load inp 0 (by omega)
    if kstrncmp (List.ofFn header.magic) (lit "FURFSv1") 7 ≠ 0 ∨ header.nodeCount ≠ 128 then none
    else if header.version = 1 then
      if hl : len < 529680 then none
      else some fun i => (FsDiskNodeV1.get (slice inp (16 + i.val * 4138) 4138 (by omega))).upgrade
    else if header.version = 2 then
      if hl : len < 530192 then none
      else some fun i => FsDiskNode.field.load inp (16 + i.val * 4142) (by omega)
    else none

/-- What is set of the root after loading, whatever its record says. -/
def rootNode (n : FsNode) : FsNode :=
  {n with
    used := true
    isDir := true
    parent := 0
    owner := 0
    mode := fsDefaultDirMode
    name := kstrcpy n.name (lit "/")}

def resetRoot (t : Nodes) : Nodes := Function.update t 0 (rootNode (t 0))

/-- The status and the table left, which is `fs_init`'s where the last check fails. -/
def fsDeserialize (t : Nodes) {len : Nat} (inp : Fin len → UInt8) : Int × Nodes :=
  match readRecords inp with
  | none => (-1, t)
  | some records =>
    let t : Nodes := fun i => (records i).load
    if !(t 0).used || !(t 0).isDir then (-1, fsInit)
    else (0, resetRoot t)

/-! ### What decoding establishes -/

theorem load_normal (dn : FsDiskNode) : Normal dn.load := by
  have hname : Function.update dn.name 31 0 31 = 0 := Function.update_self ..
  have hmode : dn.mode &&& 0o777 ≤ 0o777 := by
    rw [UInt16.le_iff_toNat_le, UInt16.toNat_and]
    exact Nat.and_le_right
  exact ⟨⟨loadSize_lt dn.size, Function.update_self .., hmode⟩, hname⟩

theorem resetRoot_self (t : Nodes) : resetRoot t 0 = rootNode (t 0) := Function.update_self ..

theorem resetRoot_other (t : Nodes) {i : NodeId} (h : i ≠ 0) : resetRoot t i = t i :=
  Function.update_of_ne h ..

/-- The two cells that `kstrcpy` of `"/"` writes. -/
theorem kstrcpy_root (name : Fin 32 → UInt8) (j : Fin 32) :
    kstrcpy name (lit "/") j = if j = 0 then slash else if j = 1 then 0 else name j := by
  by_cases h0 : j = 0
  · subst h0
    rfl
  · by_cases h1 : j = 1
    · subst h1
      rfl
    · have hv0 : j.val ≠ 0 := fun h => h0 (Fin.ext h)
      have hv1 : j.val ≠ 1 := fun h => h1 (Fin.ext h)
      have hlen : (lit "/").length = 1 := by decide
      unfold kstrcpy Foundation.Buffer.setText
      rw [if_neg h0, if_neg h1, dif_neg (by omega), if_neg (by omega)]

theorem resetRoot_normal {t : Nodes} (hn : ∀ i, Normal (t i)) (i : NodeId) : Normal (resetRoot t i) := by
  by_cases h : i = 0
  · subst h
    obtain ⟨⟨hs, hz, _⟩, hl⟩ := hn 0
    have hmode : fsDefaultDirMode ≤ 0o777 := by decide
    rw [resetRoot_self]
    refine ⟨⟨hs, hz, hmode⟩, ?_⟩
    show kstrcpy (t 0).name (lit "/") 31 = 0
    rw [kstrcpy_root]
    exact hl
  · rw [resetRoot_other t h]
    exact hn i

/-- Resetting the root twice is resetting it once. -/
theorem resetRoot_resetRoot (t : Nodes) : resetRoot (resetRoot t) = resetRoot t := by
  have hname : kstrcpy (kstrcpy (t 0).name (lit "/")) (lit "/") = kstrcpy (t 0).name (lit "/") := by
    funext j
    simp only [kstrcpy_root]
    split
    · rfl
    · split <;> rfl
  funext i
  by_cases h : i = 0
  · subst h
    rw [resetRoot_self, resetRoot_self]
    unfold rootNode
    rw [hname]
  · rw [resetRoot_other _ h]

/-- The record that the last check of `fs_deserialize` wants: a used directory. -/
def RootRecord (records : NodeId → FsDiskNode) : Prop := (records 0).used ≠ 0 ∧ (records 0).isDir ≠ 0

theorem fsDeserialize_unread {len : Nat} {inp : Fin len → UInt8} (h : readRecords inp = none) (t : Nodes) :
    fsDeserialize t inp = (-1, t) := by
  unfold fsDeserialize
  rw [h]

theorem fsDeserialize_accepted {len : Nat} {inp : Fin len → UInt8} {records : NodeId → FsDiskNode}
    (h : readRecords inp = some records) (hroot : RootRecord records) (t : Nodes) :
    fsDeserialize t inp = (0, resetRoot fun i => (records i).load) := by
  have hu : (records 0).load.used = true := by simpa [FsDiskNode.load] using hroot.1
  have hd : (records 0).load.isDir = true := by simpa [FsDiskNode.load] using hroot.2
  unfold fsDeserialize
  rw [h]
  dsimp only
  rw [if_neg (by simp [hu, hd])]

theorem fsDeserialize_rootless {len : Nat} {inp : Fin len → UInt8} {records : NodeId → FsDiskNode}
    (h : readRecords inp = some records) (hroot : ¬ RootRecord records) (t : Nodes) :
    fsDeserialize t inp = (-1, fsInit) := by
  have hbad : ((records 0).load.used = true → (records 0).load.isDir = false) := by
    intro hu
    by_contra hd
    exact hroot ⟨by simpa [FsDiskNode.load] using hu, by simpa [FsDiskNode.load] using hd⟩
  unfold fsDeserialize
  rw [h]
  dsimp only
  rw [if_pos]
  cases hu : (records 0).load.used with
  | false => rfl
  | true => simp [hbad hu]

theorem fsDeserialize_eq_zero {t s : Nodes} {len : Nat} {inp : Fin len → UInt8}
    (h : fsDeserialize t inp = (0, s)) :
    ∃ records, readRecords inp = some records ∧ RootRecord records ∧
      s = resetRoot fun i => (records i).load := by
  cases hr : readRecords inp with
  | none =>
    rw [fsDeserialize_unread hr] at h
    cases h
  | some records =>
    by_cases hroot : RootRecord records
    · rw [fsDeserialize_accepted hr hroot] at h
      cases h
      exact ⟨records, rfl, hroot, rfl⟩
    · rw [fsDeserialize_rootless hr hroot] at h
      cases h

/-! ### Decoding what was encoded -/

/-- A normal slot survives its record. -/
theorem load_ofNode {n : FsNode} (hn : Normal n) : (FsDiskNode.ofNode n).load = n := by
  have hsize : loadSize n.size.toUInt32 = n.size := by
    have h := hn.size
    have hle : ¬ n.size.toUInt32.toUInt64 ≥ 4096 := by
      rw [ge_iff_le, UInt64.le_iff_toNat_le]
      simp
      omega
    unfold loadSize
    rw [if_neg hle]
    apply UInt64.toNat_inj.mp
    simp
    omega
  have hmode : n.mode &&& 0o777 = n.mode := by
    have h := hn.mode
    rw [UInt16.le_iff_toNat_le] at h
    apply UInt16.toNat_inj.mp
    rw [UInt16.toNat_and]
    show n.mode.toNat &&& (2 ^ 9 - 1) = n.mode.toNat
    rw [Nat.and_two_pow_sub_one_eq_mod]
    exact Nat.mod_eq_of_lt (Nat.lt_succ_of_le h)
  have hname : Function.update n.name 31 0 = n.name := by
    rw [← hn.name, Function.update_eq_self]
  have hend : (⟨(loadSize n.size.toUInt32).toNat, loadSize_lt n.size.toUInt32⟩ : Fin 4096) =
      ⟨n.size.toNat, hn.size⟩ := Fin.ext (congrArg UInt64.toNat hsize)
  have hdata : Function.update n.data ⟨n.size.toNat, hn.size⟩ 0 = n.data := by
    rw [← hn.data, Function.update_eq_self]
  have hused : decide ((if n.used then (1 : UInt8) else 0) ≠ 0) = n.used := by cases n.used <;> rfl
  have hdir : decide ((if n.isDir then (1 : UInt8) else 0) ≠ 0) = n.isDir := by cases n.isDir <;> rfl
  unfold FsDiskNode.load FsDiskNode.ofNode
  dsimp only
  rw [hused, hdir, hmode, hname, hend, hdata, hsize]

/-- The image of a table. -/
def fsImage (t : Nodes) : Fin 530192 → UInt8 :=
  slice (fsSerialize t fun _ : Fin 530192 => 0).2 0 530192 (by decide)

theorem fsSerialize_eq (t : Nodes) {maxLen : Nat} (out : Fin maxLen → UInt8) (hmax : 530192 ≤ maxLen) :
    fsSerialize t out = (⟨530192, hmax⟩, spliceAll (FsDiskHeader.field.store out 0 fsHeader) 16
      (fun i => FsDiskNode.field.put (.ofNode (t (Fin.ofNat 128 i)))) 128) := by
  unfold fsSerialize
  rw [dif_neg (by omega)]

/-- A byte of an image: one of the header, or one of a record. -/
theorem fsSerialize_byte (t : Nodes) {maxLen : Nat} (out : Fin maxLen → UInt8) (hmax : 530192 ≤ maxLen)
    (x : Fin 530192) :
    (fsSerialize t out).2 ⟨0 + x.val, by omega⟩ =
      if h : x.val < 16 then FsDiskHeader.field.put fsHeader ⟨x.val, h⟩
      else FsDiskNode.field.put (.ofNode (t (Fin.ofNat 128 ((x.val - 16) / 4142))))
        ⟨(x.val - 16) % 4142, Nat.mod_lt _ (by decide)⟩ := by
  have hx := x.isLt
  rw [fsSerialize_eq t out hmax]
  dsimp only
  split
  · rename_i h16
    rw [Foundation.Buffer.spliceAll_outside _ _ _ _ _ (.inl (by dsimp only; omega))]
    exact Foundation.Buffer.splice_inside _ _ _ _ ⟨x.val, h16⟩ rfl
  · rename_i h16
    exact Foundation.Buffer.spliceAll_inside _ _ _ _ ((x.val - 16) / 4142) (by omega) _
      ⟨(x.val - 16) % 4142, Nat.mod_lt _ (by decide)⟩ (by dsimp only; omega)

/-- What is behind the image stays. -/
theorem fsSerialize_behind (t : Nodes) {maxLen : Nat} (out : Fin maxLen → UInt8) (x : Fin maxLen) (hx : 530192 ≤ x.val) :
    (fsSerialize t out).2 x = out x := by
  have hlt := x.isLt
  rw [fsSerialize_eq t out (by omega)]
  dsimp only
  rw [Foundation.Buffer.spliceAll_outside _ _ _ _ _ (.inr (by omega))]
  exact Foundation.Buffer.splice_outside _ _ _ _ (.inr (by omega))

/-- Every byte of the image is written, whatever the buffer held. -/
theorem slice_fsSerialize (t : Nodes) {maxLen : Nat} (out : Fin maxLen → UInt8) (hmax : 0 + 530192 ≤ maxLen) :
    slice (fsSerialize t out).2 0 530192 hmax = fsImage t := by
  funext x
  exact (fsSerialize_byte t out (by omega) x).trans
    (fsSerialize_byte t (fun _ : Fin 530192 => 0) (le_refl _) x).symm

/-- A byte of a record. -/
theorem fsImage_record_byte (t : Nodes) (i : NodeId) (j : Fin 4142) (x : Fin 530192)
    (hx : x.val = 16 + i.val * 4142 + j.val) :
    fsImage t x = FsDiskNode.field.put (.ofNode (t i)) j := by
  have hi := i.isLt
  have hj := j.isLt
  have hdiv : (x.val - 16) / 4142 = i.val := by omega
  have hmod : (x.val - 16) % 4142 = j.val := by omega
  refine (fsSerialize_byte t (fun _ : Fin 530192 => 0) (le_refl _) x).trans ?_
  rw [dif_neg (by omega)]
  simp only [hdiv, hmod]
  congr 3
  exact Fin.ext (Nat.mod_eq_of_lt hi)

/-- Tables that agree at a slot have the same bytes outside the records of the others. -/
theorem fsImage_congr {t t' : Nodes} {i : NodeId} (h : ∀ k, k ≠ i → t k = t' k) (x : Fin 530192)
    (hx : x.val < 16 + i.val * 4142 ∨ 16 + i.val * 4142 + 4142 ≤ x.val) : fsImage t x = fsImage t' x := by
  have hlt := x.isLt
  have hi := i.isLt
  by_cases h16 : x.val < 16
  · refine (fsSerialize_byte t (fun _ : Fin 530192 => 0) (le_refl _) x).trans
      (Eq.trans ?_ (fsSerialize_byte t' (fun _ : Fin 530192 => 0) (le_refl _) x).symm)
    rw [dif_pos h16, dif_pos h16]
  · have hk : (x.val - 16) / 4142 < 128 := by omega
    rw [fsImage_record_byte t ⟨_, hk⟩ ⟨(x.val - 16) % 4142, Nat.mod_lt _ (by decide)⟩ x (by dsimp only; omega),
      fsImage_record_byte t' ⟨_, hk⟩ ⟨(x.val - 16) % 4142, Nat.mod_lt _ (by decide)⟩ x (by dsimp only; omega),
      h]
    intro he
    have := congrArg Fin.val he
    dsimp only at this
    omega

/-- A version 2 image is read record by record. -/
theorem readRecords_v2 {len : Nat} (inp : Fin len → UInt8) (hlen : 530192 ≤ len)
    (hheader : FsDiskHeader.field.load inp 0 (by omega) = fsHeader) :
    readRecords inp = some fun i => FsDiskNode.field.load inp (16 + i.val * 4142) (by omega) := by
  unfold readRecords
  rw [dif_neg (by omega)]
  simp only [hheader]
  rw [if_neg (by decide), if_neg (by decide), if_pos (by decide), dif_neg (by omega)]

/-- The header of an image, in a buffer cut at any length that holds the image. -/
theorem fsSerialize_header (t : Nodes) {maxLen : Nat} (out : Fin maxLen → UInt8) (len : Nat)
    (hlen : 530192 ≤ len) (hmax : 0 + len ≤ maxLen) :
    FsDiskHeader.field.load (slice (fsSerialize t out).2 0 len hmax) 0 (by omega) = fsHeader := by
  rw [Field.load_slice _ _ _ _ _ (by omega), fsSerialize_eq t out (by omega)]
  dsimp only
  rw [Field.load_spliceAll_outside _ _ _ _ _ _ _ (.inl (by omega)), Field.load_store]

/-- The records of an image, in a buffer cut at any length that holds the image. -/
theorem fsSerialize_record (t : Nodes) {maxLen : Nat} (out : Fin maxLen → UInt8) (len : Nat)
    (hlen : 530192 ≤ len) (hmax : 0 + len ≤ maxLen) (i : NodeId) :
    FsDiskNode.field.load (slice (fsSerialize t out).2 0 len hmax) (16 + i.val * 4142) (by omega) =
      .ofNode (t i) := by
  rw [Field.load_slice _ _ _ _ _ (by omega), fsSerialize_eq t out (by omega)]
  dsimp only
  rw [Field.load_spliceAll FsDiskNode.field _ _ (fun i => .ofNode (t (Fin.ofNat 128 i))) _ _ i.isLt]
  congr 2
  exact Fin.ext (Nat.mod_eq_of_lt i.isLt)

/-- Every record of an image of the table is read back. -/
theorem readRecords_fsSerialize (t : Nodes) {maxLen : Nat} (out : Fin maxLen → UInt8) (len : Nat)
    (hlen : 530192 ≤ len) (hmax : 0 + len ≤ maxLen) :
    readRecords (slice (fsSerialize t out).2 0 len hmax) = some fun i => .ofNode (t i) := by
  rw [readRecords_v2 _ hlen (fsSerialize_header t out len hlen hmax)]
  congr 1
  funext i
  exact fsSerialize_record t out len hlen hmax i

theorem readRecords_fsImage (t : Nodes) : readRecords (fsImage t) = some fun i => .ofNode (t i) :=
  readRecords_fsSerialize t _ _ (le_refl _) _

/-- An image followed by anything is read as the image. -/
theorem readRecords_extended {t : Nodes} {len : Nat} {inp : Fin len → UInt8} (hlen : 530192 ≤ len)
    (h : ∀ (x : Fin 530192) (hx : x.val < len), inp ⟨x.val, hx⟩ = fsImage t x) :
    readRecords inp = some fun i => .ofNode (t i) := by
  have hslice : slice inp 0 530192 (by omega) = fsImage t := by
    funext x
    rw [← h x (by omega)]
    unfold slice
    congr 1
    exact Fin.ext (Nat.zero_add _)
  have hload : ∀ {w : Nat} {α : Type} (f : Field w α) (off : Nat) (hoff : off + w ≤ 530192),
      f.load inp off (by omega) = f.load (fsImage t) off hoff := by
    intro w α f off hoff
    rw [← hslice, Field.load_slice _ _ _ _ _ hoff]
  rw [readRecords_v2 inp hlen]
  · congr 1
    funext i
    have hi := i.isLt
    rw [hload FsDiskNode.field (16 + i.val * 4142) (by omega)]
    exact fsSerialize_record t _ 530192 (le_refl _) (by decide) i
  · rw [hload FsDiskHeader.field 0 (by decide)]
    exact fsSerialize_header t _ 530192 (le_refl _) (by decide)

/-- An image cut short is refused. -/
theorem readRecords_truncated {t : Nodes} {len : Nat} {inp : Fin len → UInt8} (hlen : len < 530192)
    (h : ∀ (x : Fin 530192) (hx : x.val < len), inp ⟨x.val, hx⟩ = fsImage t x) : readRecords inp = none := by
  unfold readRecords
  split
  · rfl
  rename_i h16
  have hslice : slice inp 0 16 (by omega) = slice (fsImage t) 0 16 (by decide) := by
    funext x
    have hx := x.isLt
    exact h ⟨0 + x.val, by omega⟩ (by dsimp only; omega)
  have hheader : FsDiskHeader.field.load inp 0 (by omega) = fsHeader := by
    rw [← Field.load_slice _ inp 16 (by omega) 0 (by omega), hslice, Field.load_slice _ _ _ _ _ (by omega)]
    exact fsSerialize_header t _ 530192 (le_refl _) (by decide)
  simp only [hheader]
  rw [if_neg (by decide), if_neg (by decide), if_pos (by decide)]

/-- An image of normal slots decodes to them, but for the root, whose owner and mode are reset. -/
theorem fsDeserialize_fsSerialize {t : Nodes} (hn : ∀ i, Normal (t i)) (hu : (t 0).used = true)
    (hd : (t 0).isDir = true) {maxLen : Nat} (out : Fin maxLen → UInt8) (len : Nat)
    (hlen : 530192 ≤ len) (hmax : 0 + len ≤ maxLen) (t' : Nodes) :
    fsDeserialize t' (slice (fsSerialize t out).2 0 len hmax) = (0, resetRoot t) := by
  have hload : (fun i => (FsDiskNode.ofNode (t i)).load) = t := funext fun i => load_ofNode (hn i)
  have hroot : RootRecord fun i => .ofNode (t i) := by simp [RootRecord, FsDiskNode.ofNode, hu, hd]
  rw [fsDeserialize_accepted (readRecords_fsSerialize t out len hlen hmax) hroot, hload]

end FurOS
