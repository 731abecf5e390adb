import FurOS.Fs.Runs

/-! No access outside an array, from any table whose numbers stay inside it.

Well-formed tables are one case (`WellFormed.bounded`); a table with a current
directory that is gone, or is a file, is another. `Bounded` is what the calls need,
and what `fs_touch` and `fs_write_file` keep, for a larger set of indices where a node
was made. -/
namespace FurOS
open Foundation (Returns)

section Bounds
variable {t : Nodes} {P : Int → Prop} (hP : Bounded t P)
include hP

theorem nodeIndex_bounded {i : Int} (hi : P i) : Returns (nodeIndex i) fun n => i = n.val := by
  obtain ⟨n, hn⟩ := hP.slot i hi
  exact ⟨n, nodeIndex_eq_ok.mpr hn, hn⟩

theorem enterToken_bounded {current : Int} (hc : P current) (tok : Token) :
    Returns (enterToken t current tok) fun o => ∀ d, o = some d → P d := by
  have hstay : Returns (.ok (some current) : Except Fault _) fun o => ∀ d, o = some d → P d :=
    .ok fun d hd => by cases hd; exact hc
  refine .ite (fun _ => hstay) fun _ => .ite (fun _ => hstay) fun _ => .ite (fun _ => ?_) fun _ => ?_
  · refine .ite (fun _ => ?_) fun _ => hstay
    refine (nodeIndex_bounded hP hc).bind fun n hn => .ok fun d hd => ?_
    cases hd
    exact hP.parent n (hn ▸ hc)
  · cases hf : findChild t current tok.chars with
    | none => exact .ok fun d hd => by cases hd
    | some child =>
      refine .ok fun d hd => ?_
      cases hd
      exact hP.used child (findChild_eq_some hf).1

theorem resolveLoop_bounded {current : Int} (hc : P current) (tok : Token) (path : List UInt8) :
    Returns (resolveLoop t current tok path) fun r => 0 ≤ r → P r := by
  have hnone : Returns (.ok (-1) : Except Fault _) fun r : Int => 0 ≤ r → P r := .ok fun h => absurd h (by decide)
  induction path generalizing current tok with
  | nil =>
    rw [resolveLoop]
    refine (enterToken_bounded hP hc tok).bind fun o ho => ?_
    cases o with
    | none => exact hnone
    | some d => exact .ok fun _ => ho d rfl
  | cons ch rest ih =>
    rw [resolveLoop]
    refine .ite (fun _ => ?_) fun _ => ?_
    · refine (enterToken_bounded hP hc tok).bind fun o ho => ?_
      cases o with
      | none => exact hnone
      | some d => exact ih (ho d rfl) _
    · by_cases hl : tok.chars.length ≥ 31
      · rw [dif_pos hl]
        exact hnone
      · rw [dif_neg hl]
        exact ih hc _

variable {cwd : Int} (hcwd : P cwd)
include hcwd

theorem fsResolve_bounded (path : CStr) : Returns (fsResolve t cwd path) fun r => 0 ≤ r → P r := by
  refine .ite (fun _ => .ok fun _ => hcwd) fun _ => resolveLoop_bounded hP ?_ _ _
  split
  · exact hP.root
  · exact hcwd

theorem resolveParentAndLeaf_bounded (path : CStr) :
    Returns (resolveParentAndLeaf t cwd path) fun o => ∀ p leaf, o = some (p, leaf) → P p := by
  have hnone : Returns (.ok none : Except Fault _)
      fun o : Option (Int × Name) => ∀ p leaf, o = some (p, leaf) → P p :=
    .ok fun p leaf h => by cases h
  have hleaf : ∀ (parent : Int) (s : CStr), P parent →
      Returns (.ok ((validLeaf s).map fun leaf => (parent, leaf)) : Except Fault _) fun o =>
        ∀ p leaf, o = some (p, leaf) → P p := by
    intro parent s hp
    refine .ok fun p leaf h => ?_
    obtain ⟨_, _, heq⟩ := Option.map_eq_some_iff.mp h
    cases heq
    exact hp
  refine .ite (fun _ => hnone) fun _ => ?_
  split
  · exact hleaf cwd path hcwd
  · rename_i pos _
    refine .ite (fun _ => hnone) fun _ => .ite (fun _ => hnone) fun _ => ?_
    have hfront : Returns (frontParent t cwd path pos) fun r => 0 ≤ r → P r :=
      .ite (fun _ => .ok fun _ => hP.root) fun _ => fsResolve_bounded hP hcwd _
    refine hfront.bind fun parent hp => .ite (fun _ => hnone) fun hneg => ?_
    have hparent := hp (Int.not_lt.mp hneg)
    exact (nodeIndex_bounded hP hparent).bind fun n _ => .ite (fun _ => hnone) fun _ => hleaf parent _ hparent

theorem fsReadFile_bounded (path : CStr) : Returns (fsReadFile t cwd path) fun o =>
    ∀ data size, o = some (data, size) → (cstr data).length < 4096 ∧ size.toNat ≤ 4096 := by
  refine (fsResolve_bounded hP hcwd path).bind fun node hnode =>
    .ite (fun _ => .ok fun data size h => by cases h) fun hneg => ?_
  have hp := hnode (Int.not_lt.mp hneg)
  refine (nodeIndex_bounded hP hp).bind fun n hn =>
    .ite (fun _ => .ok fun data size h => by cases h) fun _ => .ok fun data size h => ?_
  cases h
  exact ⟨hP.data n (hn ▸ hp), hP.size n (hn ▸ hp)⟩

theorem fsRemove_bounded (path : CStr) : Returns (fsRemove t cwd path) fun _ => True := by
  refine (fsResolve_bounded hP hcwd path).bind fun node hnode => .ite (fun _ => .ok trivial) fun hneg => ?_
  exact (nodeIndex_bounded hP (hnode (by omega))).bind fun n _ =>
    .ite (fun _ => .ok trivial) fun _ => .ok trivial

end Bounds

/-! ### Tables that stay bounded -/

section Kept
variable {t : Nodes} {P : Int → Prop} (hP : Bounded t P)
include hP

/-- A slot replaced by one in use, whose parent is one of the indices, becomes an index. -/
theorem Bounded.put {n : NodeId} {m : FsNode} (hp : P m.parent.toInt) (hname : (cstr m.name).length ≤ 31)
    (hdata : (cstr m.data).length < 4096) (hsize : m.size.toNat ≤ 4096) :
    Bounded (Function.update t n m) fun i => P i ∨ i = n.val := by
  have hold : ∀ {k : NodeId}, k ≠ n → (P k.val ∨ (k.val : Int) = n.val) → P k.val := by
    intro k hk hor
    rcases hor with h | h
    · exact h
    · exact absurd (Fin.ext (by exact_mod_cast h)) hk
  have hboth : ∀ {Q : NodeId → FsNode → Prop}, Q n m → (∀ k, P k.val → Q k (t k)) → ∀ k : NodeId,
      (P k.val ∨ (k.val : Int) = n.val) → Q k (Function.update t n m k) := by
    intro Q hn ht k hor
    by_cases hk : k = n
    · subst hk
      rwa [Function.update_self]
    · rw [Function.update_of_ne hk]
      exact ht k (hold hk hor)
  refine ⟨fun i hi => ?_, ?_, ?_, ?_, ?_, fun k hk => ?_, .inl hP.root⟩
  · rcases hi with hi | rfl
    · exact hP.slot i hi
    · exact ⟨n, rfl⟩
  · exact hboth (Q := fun _ m => P m.parent.toInt ∨ m.parent.toInt = n.val) (.inl hp)
      fun k hk => .inl (hP.parent k hk)
  · exact hboth (Q := fun _ m => (cstr m.name).length ≤ 31) hname hP.name
  · exact hboth (Q := fun _ m => (cstr m.data).length < 4096) hdata hP.data
  · exact hboth (Q := fun _ m => m.size.toNat ≤ 4096) hsize hP.size
  · by_cases hkn : k = n
    · exact .inr (by rw [hkn])
    · rw [Function.update_of_ne hkn] at hk
      exact .inl (hP.used k hk)

/-- The slot `alloc_node` took, made a node under one of the indices. -/
theorem allocNode_bounded {t₁ : Nodes} {n : NodeId} (ha : allocNode t = some (n, t₁)) {p : Int} (hp : P p)
    (leaf : Name) {m : FsNode} (hparent : m.parent = Int32.ofInt p)
    (hname : m.name = kstrcpy (t₁ n).name leaf.chars) (hdata : m.data 0 = 0) (hsize : m.size = 0) :
    Bounded (Function.update t₁ n m) fun i => P i ∨ i = n.val := by
  have hsame : Function.update t₁ n m = Function.update t n m := by
    funext i
    by_cases hi : i = n
    · subst hi
      rw [Function.update_self, Function.update_self]
    · rw [Function.update_of_ne hi, Function.update_of_ne hi, allocNode_other ha i hi]
  obtain ⟨k, rfl⟩ := hP.slot p hp
  rw [hsame]
  refine hP.put ?_ ?_ ?_ ?_
  · rwa [hparent, parent_toInt]
  · have hlen := leaf.length_le
    rw [hname, cstr_kstrcpy _ _ leaf.noNul (by omega)]
    exact hlen
  · have hle := Foundation.Buffer.text_length_le_of_eq 0 m.data 0 hdata
    exact Nat.lt_of_le_of_lt hle (by decide)
  · rw [hsize]
    decide

/-- What a call that may make or fill a node leaves: a table bounded by these indices and more. -/
def KeepsBounds (P : Int → Prop) (t' : Nodes) : Prop := ∃ P', Bounded t' P' ∧ ∀ i, P i → P' i

omit hP in
theorem KeepsBounds.refl (h : Bounded t P) : KeepsBounds P t := ⟨P, h, fun _ h => h⟩

theorem writeNode_bounded {node : Int} (hnode : 0 ≤ node → P node) (bytes : List UInt8) :
    Returns (writeNode t node (some bytes) bytes.length) fun x => KeepsBounds P x.2 := by
  refine .ite (fun _ => .ok (.refl hP)) fun hneg => ?_
  have hp := hnode (Int.not_lt.mp hneg)
  refine (nodeIndex_bounded hP hp).bind fun n hn => .ite (fun _ => .ok (.refl hP)) fun _ => ?_
  have hle := clampSize_le bytes.length
  have hlt := clampSize_lt bytes.length
  have hcopy : Returns (copyData (t n).data (some bytes) (clampSize bytes.length)) fun _ => True :=
    .ite (fun h => absurd h (by omega)) fun _ => .ok trivial
  refine hcopy.bind fun data _ => .ok ⟨_, hP.put (hP.parent n (hn ▸ hp)) (hP.name n (hn ▸ hp)) ?_ ?_,
    fun _ h => .inl h⟩
  · have hend : Function.update data ⟨clampSize bytes.length, hlt⟩ 0 ⟨clampSize bytes.length, hlt⟩ = 0 :=
      Function.update_self ..
    exact Nat.lt_of_le_of_lt (Foundation.Buffer.text_length_le_of_eq 0 _ _ hend) hlt
  · show (UInt64.ofNat (clampSize bytes.length)).toNat ≤ 4096
    rw [UInt64.toNat_ofNat_of_lt' (Nat.lt_trans hlt (by decide))]
    omega

variable {cwd : Int} (hcwd : P cwd)
include hcwd

theorem create_bounded (path : CStr) (found : Bool → Int) {dir : Bool} {owner mode : UInt16}
    {make : Int → Name → FsNode → FsNode} (hmake : Makes dir owner mode make) :
    Returns (create t cwd path found make) fun x => KeepsBounds P x.2 := by
  have hsame : ∀ r : Int, Returns (.ok (r, t) : Except Fault _) fun x => KeepsBounds P x.2 :=
    fun _ => .ok (.refl hP)
  refine (resolveParentAndLeaf_bounded hP hcwd path).bind fun o ho => ?_
  cases o with
  | none => exact hsame _
  | some x =>
    dsimp only
    split
    · exact hsame _
    · split
      · exact hsame _
      · rename_i ha
        obtain ⟨_, hsize, hdata⟩ := allocNode_empty ha
        exact .ok ⟨_, allocNode_bounded hP ha (ho _ _ rfl) x.2 (hmake.parent _ _ _) (hmake.name _ _ _)
          (hmake.data _ _ _ hdata) (hmake.size _ _ _ hsize), fun _ h => .inl h⟩

theorem fsMkdirAs_bounded (path : CStr) (owner mode : UInt16) :
    Returns (fsMkdirAs t cwd path owner mode) fun x => KeepsBounds P x.2 := by
  rw [fsMkdirAs_eq]
  exact create_bounded hP hcwd path _ (dirNode_makes owner mode)

theorem fsTouchAs_bounded (path : CStr) (owner mode : UInt16) :
    Returns (fsTouchAs t cwd path owner mode) fun x => KeepsBounds P x.2 := by
  rw [fsTouchAs_eq]
  exact create_bounded hP hcwd path _ (fileNode_makes owner mode)

theorem fsWriteFile_bounded (path : CStr) (bytes : List UInt8) :
    Returns (fsWriteFile t cwd path (some bytes) bytes.length) fun x => KeepsBounds P x.2 := by
  refine (fsResolve_bounded hP hcwd path).bind fun node hnode =>
    .ite (fun _ => ?_) fun _ => writeNode_bounded hP hnode bytes
  refine (fsTouchAs_bounded hP hcwd path 0 fsDefaultFileMode).bind fun x hx => ?_
  refine .ite (fun _ => .ok hx) fun _ => ?_
  obtain ⟨P', hP', hsub⟩ := hx
  refine (fsResolve_bounded hP' (hsub _ hcwd) path).bind fun node hnode => ?_
  refine (writeNode_bounded hP' hnode bytes).mono fun y hy => ?_
  obtain ⟨P'', hP'', hsub'⟩ := hy
  exact ⟨P'', hP'', fun i hi => hsub' i (hsub i hi)⟩

end Kept

end FurOS
