import FurOS.Foundation.Walk
import FurOS.Fs.WellFormed

/-! What path resolution computes on a well-formed table.

`stepName` is one component on slots: `.` stays, `..` goes to the parent, and any
other name to the child it names. From a used directory `fs_resolve` never leaves
the table and answers the end of the walk along the path's components, or `-1`
(`fsResolve_eq`). `resolve_parent_and_leaf` answers a used directory from which the
last component is one more step (`resolveParentAndLeaf_ok`). -/
namespace FurOS
open Foundation (components walk)

/-- One component of a path, on slots. -/
def stepName (t : Nodes) (c : NodeId) (name : List UInt8) : Option NodeId :=
  if name = lit "." then some c
  else if name = lit ".." then if c = 0 then some 0 else parentOf t c
  else findChild t (c.val : Int) name

/-- A slot as the index a C function returns, `-1` for none. -/
def toC : Option NodeId → Int
  | none => -1
  | some i => i.val

@[simp] theorem toC_none : toC none = -1 := rfl
@[simp] theorem toC_some (i : NodeId) : toC (some i) = i.val := rfl

/-- The slot a path is resolved from. -/
def startOf (c : NodeId) (path : List UInt8) : NodeId := if path.head? = some slash then 0 else c

/-- Where a path leads from `c`. -/
def resolve (t : Nodes) (c : NodeId) (path : List UInt8) : Option NodeId :=
  walk (stepName t) (startOf c path) (components slash path)

/-- A path that starts with `'/'` is resolved from the root, whatever the `cwd`. -/
theorem fsResolve_absolute {t : Nodes} {path : CStr} (h : path.chars.head? = some slash) (cwd : Int) :
    fsResolve t cwd path = fsResolve t 0 path := by
  have hne : path.chars ≠ [] := fun he => by
    rw [he] at h
    cases h
  unfold fsResolve
  rw [if_neg hne, if_neg hne, if_pos h, if_pos h]

/-- What a walk needs of a table: a root, parents in the table and names that fit a token. -/
structure Navigable (t : Nodes) : Prop where
  root_used : (t 0).used = true
  parent : ∀ i, (t i).used = true → ∃ p : NodeId, (t i).parent.toInt = p.val ∧ (t p).used = true
  name_le : ∀ i, (t i).used = true → (cstr (t i).name).length ≤ 31

theorem WellFormed.navigable {t : Nodes} (wf : WellFormed t) : Navigable t where
  root_used := wf.root_used
  parent i hi := by
    obtain ⟨p, hp, hu, _⟩ := wf.parent i hi
    exact ⟨p, hp, hu⟩
  name_le := wf.name_le

section Resolve
variable {t : Nodes} (nav : Navigable t)
include nav

/-- Every step from a used slot ends at a used slot. -/
theorem stepName_used {c d : NodeId} {name : List UInt8} (hc : (t c).used = true)
    (h : stepName t c name = some d) : (t d).used = true := by
  unfold stepName at h
  split at h
  · cases h
    exact hc
  · split at h
    · split at h
      · cases h
        exact nav.root_used
      · obtain ⟨p, hp, hu⟩ := nav.parent c hc
        rw [parentOf_eq_some.mpr hp] at h
        cases h
        exact hu
    · exact (findChild_eq_some h).1

theorem walk_used {c d : NodeId} {names : List (List UInt8)} (hc : (t c).used = true)
    (h : walk (stepName t) c names = some d) : (t d).used = true :=
  Foundation.walk_invariant (P := fun c => (t c).used = true) (fun _ _ _ => stepName_used nav) hc h

theorem startOf_used {c : NodeId} (hc : (t c).used = true) (path : List UInt8) :
    (t (startOf c path)).used = true := by
  unfold startOf
  split
  · exact nav.root_used
  · exact hc

theorem resolve_used {c d : NodeId} {path : List UInt8} (hc : (t c).used = true)
    (h : resolve t c path = some d) : (t d).used = true := walk_used nav (startOf_used nav hc path) h

/-- No used slot has a name longer than 31 characters. -/
theorem stepName_long {c : NodeId} {name : List UInt8} (hl : 31 < name.length) :
    stepName t c name = none := by
  have hdot : name ≠ lit "." := fun h => absurd hl (by rw [h]; decide)
  have hdots : name ≠ lit ".." := fun h => absurd hl (by rw [h]; decide)
  unfold stepName
  rw [if_neg hdot, if_neg hdots]
  refine findChild_eq_none.mpr fun i hi _ he => ?_
  have := nav.name_le i hi
  rw [he] at this
  omega

/-- A first component of more than 31 characters leads nowhere. -/
theorem walk_long {c : NodeId} {block rest : List UInt8} (hb : slash ∉ block) (hl : 31 < block.length) :
    walk (stepName t) c (components slash (block ++ rest)) = none := by
  induction rest generalizing block with
  | nil =>
    have hne : block ≠ [] := List.ne_nil_of_length_pos (by omega)
    rw [List.append_nil, Foundation.components_block slash hb, if_neg hne, Foundation.walk_cons,
      stepName_long nav hl]
    rfl
  | cons ch rest ih =>
    by_cases hc : ch = slash
    · subst hc
      have hne : block ≠ [] := List.ne_nil_of_length_pos (by omega)
      rw [Foundation.components_append, Foundation.components_block slash hb, if_neg hne,
        List.singleton_append, Foundation.walk_cons, stepName_long nav hl]
      rfl
    · have hb' : slash ∉ block ++ [ch] := by simp [hb, Ne.symm hc]
      rw [List.append_cons]
      exact ih hb' (by simp; omega)

/-- A finished token is one step, or none when it is empty. -/
theorem enterToken_eq {c : NodeId} (hc : (t c).used = true) (tok : Token) (hs : slash ∉ tok.chars) :
    enterToken t (c.val : Int) tok =
      .ok ((walk (stepName t) c (components slash tok.chars)).map fun d => (d.val : Int)) := by
  rw [Foundation.components_block slash hs]
  unfold enterToken
  by_cases he : tok.chars = []
  · simp [he]
    rfl
  · rw [if_neg he, if_neg he, Foundation.walk_cons]
    unfold stepName
    by_cases hdot : tok.chars = lit "."
    · rw [if_pos hdot, if_pos hdot]
      rfl
    · rw [if_neg hdot, if_neg hdot]
      by_cases hdots : tok.chars = lit ".."
      · rw [if_pos hdots, if_pos hdots]
        by_cases h0 : c = 0
        · subst h0
          rfl
        · obtain ⟨p, hp, _⟩ := nav.parent c hc
          have hz : (c.val : Int) ≠ 0 := by
            intro hz
            exact h0 (Fin.ext (Int.natCast_eq_zero.mp hz))
          rw [if_pos hz, if_neg h0, nodeIndex_ofNat, parentOf_eq_some.mpr hp]
          show Except.ok (some (t c).parent.toInt) = _
          rw [hp]
          rfl
      · rw [if_neg hdots, if_neg hdots]
        cases findChild t (c.val : Int) tok.chars with
        | none => rfl
        | some d => rfl

theorem resolveLoop_eq {c : NodeId} (hc : (t c).used = true) (tok : Token) (hs : slash ∉ tok.chars)
    (rest : List UInt8) :
    resolveLoop t (c.val : Int) tok rest =
      .ok (toC (walk (stepName t) c (components slash (tok.chars ++ rest)))) := by
  induction rest generalizing c tok with
  | nil =>
    rw [resolveLoop, enterToken_eq nav hc tok hs, List.append_nil]
    cases walk (stepName t) c (components slash tok.chars) with
    | none => rfl
    | some d => rfl
  | cons ch rest ih =>
    rw [resolveLoop]
    by_cases hch : ch = slash
    · subst hch
      rw [if_pos rfl, enterToken_eq nav hc tok hs, Foundation.components_append, Foundation.walk_append]
      cases hw : walk (stepName t) c (components slash tok.chars) with
      | none => rfl
      | some d => exact ih (walk_used nav hc hw) Token.empty (by simp [Token.empty])
    · rw [if_neg hch]
      by_cases hl : tok.chars.length ≥ 31
      · have hb : slash ∉ tok.chars ++ [ch] := by simp [hs, Ne.symm hch]
        rw [dif_pos hl, List.append_cons, walk_long nav hb (by simp; omega)]
        rfl
      · rw [dif_neg hl, ih hc (tok.push ch hl) (by simp [Token.push, hs, Ne.symm hch]),
          List.append_cons]
        rfl

/-- **`fs_resolve` walks the components of its path**, and stays inside the table. -/
theorem fsResolve_eq {c : NodeId} (hc : (t c).used = true) (path : CStr) :
    fsResolve t (c.val : Int) path = .ok (toC (resolve t c path.chars)) := by
  have hstart : (if path.chars.head? = some slash then 0 else (c.val : Int)) =
      ((startOf c path.chars).val : Int) := by
    unfold startOf
    split <;> rfl
  have hused := startOf_used nav hc path.chars
  unfold fsResolve
  by_cases he : path.chars = []
  · rw [if_pos he]
    simp [resolve, he, startOf]
    rfl
  · rw [if_neg he, hstart, resolveLoop_eq nav hused _ (by simp [Token.empty])]
    rfl

theorem fsResolve_eq_some {c : NodeId} (hc : (t c).used = true) {path : CStr} {n : NodeId} :
    fsResolve t (c.val : Int) path = .ok (n.val : Int) ↔ resolve t c path.chars = some n := by
  rw [fsResolve_eq nav hc]
  constructor
  · intro h
    cases hr : resolve t c path.chars with
    | none =>
      rw [hr, toC_none] at h
      have : (-1 : Int) = n.val := Except.ok.inj h
      omega
    | some m =>
      rw [hr, toC_some] at h
      exact congrArg some (Fin.ext (by exact_mod_cast Except.ok.inj h))
  · intro h
    rw [h, toC_some]

theorem fsResolve_eq_neg {c : NodeId} (hc : (t c).used = true) {path : CStr} :
    fsResolve t (c.val : Int) path = .ok (-1) ↔ resolve t c path.chars = none := by
  rw [fsResolve_eq nav hc, Except.ok.injEq]
  cases resolve t c path.chars with
  | none => simp
  | some n => simp

end Resolve

/-! ### The parent and the last component -/

theorem lastSlashFrom_eq (i : Nat) (found : Option Nat) (path : List UInt8) :
    lastSlashFrom i found path = ((lastSlash path).map (· + i)).or found := by
  induction path generalizing i found with
  | nil => rfl
  | cons ch rest ih =>
    unfold lastSlash
    rw [lastSlashFrom, lastSlashFrom, ih (i + 1), ih (0 + 1)]
    cases lastSlash rest with
    | none => by_cases hc : ch = slash <;> simp [hc]
    | some k => simp; omega

/-- The last `'/'` splits the path, and none comes after it. -/
theorem lastSlash_spec (path : List UInt8) :
    match lastSlash path with
    | none => slash ∉ path
    | some k => k < path.length ∧ path = path.take k ++ slash :: path.drop (k + 1) ∧
        slash ∉ path.drop (k + 1) := by
  induction path with
  | nil => simp [lastSlash, lastSlashFrom]
  | cons ch rest ih =>
    have hl : lastSlash (ch :: rest) =
        ((lastSlash rest).map (· + 1)).or (if ch = slash then some 0 else none) := by
      unfold lastSlash
      rw [lastSlashFrom, lastSlashFrom_eq]
      rfl
    rw [hl]
    cases hr : lastSlash rest with
    | none =>
      rw [hr] at ih
      by_cases hc : ch = slash
      · simpa [hc] using ih
      · simpa [hc, Ne.symm hc] using ih
    | some k =>
      rw [hr] at ih
      obtain ⟨hk, hsplit, hno⟩ := ih
      refine ⟨by simpa using hk, ?_, by simpa using hno⟩
      simpa using hsplit

/-- What `resolve_parent_and_leaf` has checked of a path with a `'/'` that it splits. -/
theorem resolveParentAndLeaf_split {t : Nodes} {cwd p : Int} {path : CStr} {leaf : Name} {pos : Nat}
    (h : resolveParentAndLeaf t cwd path = .ok (some (p, leaf))) (hk : lastSlash path.chars = some pos) :
    pos ≠ path.chars.length - 1 ∧ pos < 128 ∧ frontParent t cwd path pos = .ok p ∧ 0 ≤ p ∧
      ∃ n, nodeIndex p = .ok n ∧ (t n).isDir = true := by
  unfold resolveParentAndLeaf at h
  rw [hk] at h
  dsimp only at h
  split at h
  · cases h
  split at h
  · cases h
  rename_i hend
  split at h
  · cases h
  rename_i hlong
  obtain ⟨parent, hfront, h⟩ := Foundation.bind_eq_ok.mp h
  split at h
  · cases h
  rename_i hneg
  obtain ⟨n, hn, h⟩ := Foundation.bind_eq_ok.mp h
  split at h
  · cases h
  rename_i hdir
  obtain ⟨_, _, heq⟩ := Option.map_eq_some_iff.mp (Except.ok.inj h)
  cases heq
  exact ⟨hend, by omega, hfront, by omega, n, hn, by simpa using hdir⟩

/-- The parent of a path is the directory it is resolved from, or a slot of the table. -/
theorem resolveParentAndLeaf_slot {t : Nodes} {c : NodeId} {path : CStr} {p : Int} {leaf : Name}
    (h : resolveParentAndLeaf t (c.val : Int) path = .ok (some (p, leaf))) : ∃ q : NodeId, p = q.val := by
  cases hk : lastSlash path.chars with
  | none =>
    unfold resolveParentAndLeaf at h
    rw [hk] at h
    split at h
    · cases h
    · obtain ⟨_, _, heq⟩ := Option.map_eq_some_iff.mp (Except.ok.inj h)
      cases heq
      exact ⟨c, rfl⟩
  | some pos =>
    obtain ⟨_, _, _, _, n, hn, _⟩ := resolveParentAndLeaf_split h hk
    exact ⟨n, nodeIndex_eq_ok.mp hn⟩

theorem validLeaf_eq_some {s : CStr} {leaf : Name} (h : validLeaf s = some leaf) :
    leaf.chars = s.chars := by
  unfold validLeaf at h
  split at h
  · cases h
    rfl
  · cases h

/-- What `resolve_parent_and_leaf` answers on success: a used directory from which the
whole path is one more step. -/
structure Parent (t : Nodes) (c : NodeId) (path : List UInt8) (p : NodeId) (leaf : Name) : Prop where
  used : (t p).used = true
  dir : (t p).isDir = true
  front : ∃ names, components slash path = names ++ [leaf.chars] ∧
    walk (stepName t) (startOf c path) names = some p

theorem Parent.resolve_eq {t : Nodes} {c p : NodeId} {path : List UInt8} {leaf : Name}
    (h : Parent t c path p leaf) : resolve t c path = stepName t p leaf.chars := by
  obtain ⟨names, hnames, hwalk⟩ := h.front
  unfold resolve
  rw [hnames, Foundation.walk_append, hwalk]
  show (stepName t p leaf.chars).bind _ = _
  cases stepName t p leaf.chars <;> rfl

section Parent
variable {t : Nodes}

/-- The front part of a path leads where its components walk to. -/
theorem frontParent_eq (nav : Navigable t) {c : NodeId} (hc : (t c).used = true) (path : CStr) {k : Nat}
    (hsplit : path.chars = path.chars.take k ++ slash :: path.chars.drop (k + 1)) :
    ∃ o : Option NodeId, frontParent t (c.val : Int) path k = .ok (toC o) ∧
      o = walk (stepName t) (startOf c path.chars) (components slash (path.chars.take k)) := by
  unfold frontParent
  by_cases h0 : k = 0
  · subst h0
    have hs : path.chars.head? = some slash := by
      rw [hsplit]
      rfl
    exact ⟨some 0, by rw [if_pos rfl]; rfl, by simp [startOf, hs]⟩
  · have hhead : (path.chars.take k).head? = path.chars.head? := by
      rw [List.head?_take, if_neg h0]
    refine ⟨_, by rw [if_neg h0, fsResolve_eq nav hc], ?_⟩
    unfold resolve startOf
    rw [CStr.take_chars, hhead]

/-- The parent and the last component of a path, on slots. -/
def parentNode (t : Nodes) (c : NodeId) (path : CStr) : Option (NodeId × Name) :=
  match lastSlash path.chars with
  | none => (validLeaf path).map fun leaf => (c, leaf)
  | some pos =>
    if pos ≥ 128 then none
    else
      (walk (stepName t) (startOf c path.chars) (components slash (path.chars.take pos))).bind fun p =>
        if (t p).isDir then (validLeaf (path.drop (pos + 1))).map fun leaf => (p, leaf) else none

theorem validLeaf_nil {s : CStr} (h : s.chars = []) : validLeaf s = none := by
  unfold validLeaf
  rw [dif_neg (by rw [h]; decide)]

/-- **`resolve_parent_and_leaf` splits its path at the last `'/'`** and walks what stands before it. -/
theorem resolveParentAndLeaf_eq (nav : Navigable t) {c : NodeId} (hc : (t c).used = true) (path : CStr) :
    resolveParentAndLeaf t (c.val : Int) path =
      .ok ((parentNode t c path).map fun x => ((x.1.val : Int), x.2)) := by
  have hspec := lastSlash_spec path.chars
  unfold resolveParentAndLeaf parentNode
  by_cases he : path.chars = []
  · rw [if_pos he, he, validLeaf_nil he]
    rfl
  rw [if_neg he]
  cases hk : lastSlash path.chars with
  | none => cases validLeaf path <;> rfl
  | some k =>
    rw [hk] at hspec
    obtain ⟨hlt, hsplit, hno⟩ := hspec
    dsimp only
    by_cases hend : k = path.chars.length - 1
    · have hnil : validLeaf (path.drop (k + 1)) = none := by
        refine validLeaf_nil ?_
        rw [CStr.drop_chars, List.drop_eq_nil_of_le (by omega)]
      rw [if_pos hend, hnil]
      split
      · rfl
      · cases walk (stepName t) (startOf c path.chars)
          (components slash (path.chars.take k)) <;> simp [pure, Except.pure]
    rw [if_neg hend]
    by_cases hlong : k ≥ 128
    · rw [if_pos hlong, if_pos hlong]
      rfl
    rw [if_neg hlong, if_neg hlong]
    obtain ⟨o, ho, hwalk⟩ := frontParent_eq nav hc path hsplit
    rw [ho, Foundation.ok_bind, ← hwalk]
    cases o with
    | none => rfl
    | some p =>
      have hn : ¬ ((p.val : Int) < 0) := by omega
      rw [toC_some, if_neg hn, nodeIndex_ofNat, Foundation.ok_bind, Option.bind_some]
      cases hdir : (t p).isDir with
      | false => rfl
      | true => cases validLeaf (path.drop (k + 1)) <;> rfl

theorem resolveParentAndLeaf_eq_some (nav : Navigable t) {c : NodeId} (hc : (t c).used = true) {path : CStr}
    {p : NodeId} {leaf : Name} : resolveParentAndLeaf t (c.val : Int) path = .ok (some ((p.val : Int), leaf)) ↔
      parentNode t c path = some (p, leaf) := by
  rw [resolveParentAndLeaf_eq nav hc]
  constructor
  · intro h
    obtain ⟨⟨q, last⟩, hq, heq⟩ := Option.map_eq_some_iff.mp (Except.ok.inj h)
    obtain ⟨hval, hlast⟩ := Prod.mk.inj heq
    have hqp : q = p := Fin.ext (by exact_mod_cast hval)
    have hleaf : last = leaf := hlast
    rw [hq, hqp, hleaf]
  · intro h
    rw [h]
    rfl

/-- The whole path is one step more than what leads to the parent. -/
theorem parentNode_front (nav : Navigable t) {c p : NodeId} (hc : (t c).used = true) {path : CStr}
    {leaf : Name} (h : parentNode t c path = some (p, leaf)) :
    (t p).used = true ∧ (p = c ∨ (t p).isDir = true) ∧
      ∃ names, components slash path.chars = names ++ [leaf.chars] ∧
        walk (stepName t) (startOf c path.chars) names = some p := by
  have hspec := lastSlash_spec path.chars
  unfold parentNode at h
  cases hk : lastSlash path.chars with
  | none =>
    rw [hk] at h hspec
    obtain ⟨leaf', hleaf, heq⟩ := Option.map_eq_some_iff.mp h
    cases heq
    have hlc := validLeaf_eq_some hleaf
    have hne := leaf.ne_nil
    rw [hlc] at hne
    refine ⟨hc, .inl rfl, [], ?_, ?_⟩
    · rw [hlc, Foundation.components_block slash hspec, if_neg hne]
      rfl
    · unfold startOf
      rw [if_neg]
      · rfl
      · intro hh
        exact hspec (List.mem_of_mem_head? hh)
  | some k =>
    rw [hk] at h hspec
    obtain ⟨hlt, hsplit, hno⟩ := hspec
    dsimp only at h
    split at h
    · cases h
    · obtain ⟨q, hq, h⟩ := Option.bind_eq_some_iff.mp h
      split at h
      · rename_i hdir
        obtain ⟨leaf', hleaf, heq⟩ := Option.map_eq_some_iff.mp h
        cases heq
        have hlc : leaf.chars = path.chars.drop (k + 1) := validLeaf_eq_some hleaf
        have hne := leaf.ne_nil
        rw [hlc] at hne
        refine ⟨walk_used nav (startOf_used nav hc path.chars) hq, .inr hdir,
          components slash (path.chars.take k), ?_, hq⟩
        conv_lhs => rw [hsplit]
        rw [Foundation.components_append, Foundation.components_block slash hno, if_neg hne, hlc]
      · cases h

theorem resolveParentAndLeaf_ok (wf : WellFormed t) {c : NodeId} (hc : (t c).used = true)
    (hd : (t c).isDir = true) (path : CStr) :
    ∃ o : Option (NodeId × Name),
      resolveParentAndLeaf t (c.val : Int) path = .ok (o.map fun x => ((x.1.val : Int), x.2)) ∧
      ∀ p leaf, o = some (p, leaf) → Parent t c path.chars p leaf := by
  refine ⟨parentNode t c path, resolveParentAndLeaf_eq wf.navigable hc path, fun p leaf h => ?_⟩
  obtain ⟨hu, hdir, hfront⟩ := parentNode_front wf.navigable hc h
  refine ⟨hu, ?_, hfront⟩
  rcases hdir with rfl | hdir
  · exact hd
  · exact hdir

end Parent

end FurOS
