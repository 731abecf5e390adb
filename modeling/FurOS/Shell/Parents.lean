import FurOS.Shell.Outcomes

/-! The directory that is checked is the one that is written.

`resolve_parent_path` of the shell and `resolve_parent_and_leaf` of the filesystem split
a path each with a copy of the same code. They find the same directory on every path
whose last component is a name (`parents_agree`), so that what `cmd_mkdir` and
`cmd_touch` make is where their user was allowed to make it. -/
namespace FurOS

/-- What stands after the last `'/'` of a path, or all of it. -/
def lastComponent (path : CStr) : CStr :=
  match lastSlash path.chars with
  | none => path
  | some pos => path.drop (pos + 1)

/-- What `resolve_parent_path` has checked of a path with a `'/'`. -/
theorem resolveParentPath_split {t : Nodes} {cwd p : Int} {path : CStr} {pos : Nat}
    (h : resolveParentPath t cwd path = .ok (some p)) (hk : lastSlash path.chars = some pos) :
    pos ≠ path.chars.length - 1 ∧
      (pos = 0 ∧ p = 0 ∨ pos ≠ 0 ∧ pos < 128 ∧ fsResolve t cwd (path.take pos) = .ok p ∧ 0 ≤ p ∧
        fsIsDir t p = true) := by
  unfold resolveParentPath at h
  rw [hk] at h
  split at h
  · cases h
  dsimp only at h
  split at h
  · cases h
  rename_i hend
  refine ⟨hend, ?_⟩
  split at h
  · rename_i h0
    exact .inl ⟨h0, (Option.some.inj (Except.ok.inj h)).symm⟩
  rename_i h0
  split at h
  · cases h
  rename_i hlong
  obtain ⟨parent, hres, h⟩ := Foundation.bind_eq_ok.mp h
  split at h
  · rename_i hdir
    cases h
    exact .inr ⟨h0, by omega, hres, hdir⟩
  · cases h

/-- Where `resolve_parent_path` finds a parent and a name follows, `resolve_parent_and_leaf` finds
the same. -/
theorem resolveParentAndLeaf_of_path {t : Nodes} (wf : WellFormed t) {cwd p : Int} {path : CStr} {leaf : Name}
    (h : resolveParentPath t cwd path = .ok (some p)) (hleaf : validLeaf (lastComponent path) = some leaf) :
    resolveParentAndLeaf t cwd path = .ok (some (p, leaf)) := by
  have he : path.chars ≠ [] := by
    intro he
    rw [resolveParentPath, if_pos he] at h
    cases h
  unfold lastComponent at hleaf
  cases hk : lastSlash path.chars with
  | none =>
    rw [hk] at hleaf
    rw [resolveParentPath, if_neg he, hk] at h
    cases h
    rw [resolveParentAndLeaf, if_neg he, hk]
    dsimp only at hleaf ⊢
    rw [hleaf]
    rfl
  | some pos =>
    rw [hk] at hleaf
    dsimp only at hleaf
    obtain ⟨hend, hparent⟩ := resolveParentPath_split h hk
    obtain ⟨hlong, hfront, n, hn, hdir⟩ : pos < 128 ∧ frontParent t cwd path pos = .ok p ∧
        ∃ n : NodeId, p = n.val ∧ (t n).isDir = true := by
      unfold frontParent
      rcases hparent with ⟨h0, hp⟩ | ⟨h0, hlong, hres, hpos, hdir⟩
      · exact ⟨by omega, by rw [if_pos h0, hp]; rfl, 0, hp, wf.root_dir⟩
      · unfold fsIsDir at hdir
        cases hu : usedNode t p with
        | none =>
          rw [hu] at hdir
          cases hdir
        | some n =>
          rw [hu] at hdir
          exact ⟨hlong, by rw [if_neg h0, hres], n, (usedNode_eq_some.mp hu).1, hdir⟩
    subst hn
    rw [resolveParentAndLeaf, if_neg he, hk]
    dsimp only
    rw [if_neg hend, if_neg (by omega), hfront, Foundation.ok_bind, if_neg (by omega), nodeIndex_ofNat,
      Foundation.ok_bind, hdir, hleaf]
    rfl

/-- Where both find a directory it is the same one, whatever table it is. -/
theorem resolveParents_same {t : Nodes} {cwd p p' : Int} {path : CStr} {leaf : Name}
    (h : resolveParentPath t cwd path = .ok (some p))
    (h' : resolveParentAndLeaf t cwd path = .ok (some (p', leaf))) : p' = p := by
  have he : path.chars ≠ [] := by
    intro he
    rw [resolveParentPath, if_pos he] at h
    cases h
  have hleaf {q : Int} {o : Option Name} (hmap : o.map (fun leaf => (q, leaf)) = some (p', leaf)) : p' = q := by
    obtain ⟨_, _, heq⟩ := Option.map_eq_some_iff.mp hmap
    exact (congrArg Prod.fst heq).symm
  cases hk : lastSlash path.chars with
  | none =>
    rw [resolveParentPath, if_neg he, hk] at h
    rw [resolveParentAndLeaf, if_neg he, hk] at h'
    cases h
    exact hleaf (Except.ok.inj h')
  | some pos =>
    obtain ⟨hend, hparent⟩ := resolveParentPath_split h hk
    rw [resolveParentAndLeaf, if_neg he, hk] at h'
    dsimp only at h'
    rw [if_neg hend] at h'
    split at h'
    · cases h'
    obtain ⟨q, hfront, h'⟩ := Foundation.bind_eq_ok.mp h'
    have hq : q = p := by
      unfold frontParent at hfront
      rcases hparent with ⟨h0, hp⟩ | ⟨h0, _, hres, _⟩
      · rw [if_pos h0] at hfront
        rw [hp]
        exact (Except.ok.inj hfront).symm
      · rw [if_neg h0, hres] at hfront
        exact (Except.ok.inj hfront).symm
    subst hq
    split at h'
    · cases h'
    obtain ⟨node, _, h'⟩ := Foundation.bind_eq_ok.mp h'
    split at h'
    · cases h'
    · exact hleaf (Except.ok.inj h')

/-- Every node that a command made is in a directory where its user may make one. -/
def MadeWithAccess (t : Nodes) (uid : UInt16) (x : Except Fault (Text × Nodes)) : Prop :=
  ∃ text t', x = .ok (text, t') ∧ ∀ n, (t n).used = false → (t' n).used = true →
    fsCheckAccess t (t' n).parent.toInt uid (fsAccessWrite ||| fsAccessExec) = true

/-- A creation that its user may make. -/
theorem Creation.madeWithAccess {t t' : Nodes} {c : NodeId} {path : CStr} {dir : Bool} {uid owner mode : UInt16}
    {r : Int} (h : Creation t c path dir owner mode r t') (hmay : MayCreate t (c.val : Int) path uid) (n : NodeId)
    (hfree : (t n).used = false) (hused : (t' n).used = true) :
    fsCheckAccess t (t' n).parent.toInt uid (fsAccessWrite ||| fsAccessExec) = true := by
  have hsame : t' ≠ t := fun heq => by
    rw [heq, hfree] at hused
    cases hused
  cases h with
  | failed => exact absurd rfl hsame
  | found => exact absurd rfl hsame
  | @created m p leaf t' _ hres _ _ hcr =>
    have hnm : n = m := by
      rcases (hcr.used_iff n).mp hused with hold | hnm
      · rw [hfree] at hold
        cases hold
      · exact hnm
    rw [hnm, hcr.parent]
    exact hmay p.val leaf hres

theorem cmdMkdir_access {t : Nodes} (wf : WellFormed t) {c : NodeId} (hc : (t c).used = true)
    (hd : (t c).isDir = true) (args : List CStr) (uid : UInt16) :
    MadeWithAccess t uid (cmdMkdir t (c.val : Int) args uid) := by
  obtain ⟨text, t', hcmd, rfl | ⟨path, r, hmay, hcr⟩⟩ := cmdMkdir_ok wf hc hd args uid
  · exact ⟨text, t', hcmd, fun n hfree hused => absurd hused (by rw [hfree]; decide)⟩
  · exact ⟨text, t', hcmd, hcr.madeWithAccess hmay⟩

theorem cmdTouch_access {t : Nodes} (wf : WellFormed t) {c : NodeId} (hc : (t c).used = true)
    (hd : (t c).isDir = true) (args : List CStr) (uid : UInt16) :
    MadeWithAccess t uid (cmdTouch t (c.val : Int) args uid) := by
  obtain ⟨text, t', hcmd, rfl | ⟨path, r, hmay, hcr⟩⟩ := cmdTouch_ok wf hc hd args uid
  · exact ⟨text, t', hcmd, fun n hfree hused => absurd hused (by rw [hfree]; decide)⟩
  · exact ⟨text, t', hcmd, hcr.madeWithAccess hmay⟩

/-- **The two copies find the same directory**, and what is made is made where its user may. -/
theorem parents_agree (t : Nodes) (wf : WellFormed t) (cwd : Int) (hc : UsedDir t cwd) (path : CStr) :
    (∀ p leaf, resolveParentAndLeaf t cwd path = .ok (some (p, leaf)) →
      resolveParentPath t cwd path = .ok (some p)) ∧
    (∀ p, resolveParentPath t cwd path = .ok (some p) → isValidName (lastComponent path).chars = true →
      ∃ leaf : Name, leaf.chars = (lastComponent path).chars ∧
        resolveParentAndLeaf t cwd path = .ok (some (p, leaf))) ∧
    ∀ (rest : List CStr) (uid : UInt16), MadeWithAccess t uid (cmdMkdir t cwd (path :: rest) uid) ∧
      MadeWithAccess t uid (cmdTouch t cwd (path :: rest) uid) := by
  obtain ⟨c, rfl, hu, hd⟩ := hc
  refine ⟨fun p leaf h => resolveParentPath_of_leaf wf hu h, fun p h hvalid => ?_, fun rest uid =>
    ⟨cmdMkdir_access wf hu hd (path :: rest) uid, cmdTouch_access wf hu hd (path :: rest) uid⟩⟩
  have hleaf : validLeaf (lastComponent path) =
      some ⟨(lastComponent path).chars, (lastComponent path).noNul, hvalid⟩ :=
    dif_pos hvalid
  exact ⟨_, rfl, resolveParentAndLeaf_of_path wf h hleaf⟩

/-- Up from a directory and down into it again. -/
theorem parents_agree_nested :
    (∀ p leaf, resolveParentAndLeaf nested 1 (.ofLit "../a//b") = .ok (some (p, leaf)) →
      resolveParentPath nested 1 (.ofLit "../a//b") = .ok (some p)) ∧
    (∀ p, resolveParentPath nested 1 (.ofLit "../a//b") = .ok (some p) →
      isValidName (lastComponent (.ofLit "../a//b")).chars = true →
      ∃ leaf : Name, leaf.chars = (lastComponent (.ofLit "../a//b")).chars ∧
        resolveParentAndLeaf nested 1 (.ofLit "../a//b") = .ok (some (p, leaf))) ∧
    ∀ (rest : List CStr) (uid : UInt16),
      MadeWithAccess nested uid (cmdMkdir nested 1 (.ofLit "../a//b" :: rest) uid) ∧
      MadeWithAccess nested uid (cmdTouch nested 1 (.ofLit "../a//b" :: rest) uid) :=
  parents_agree nested nested_wellFormed 1 nested_usedDir (.ofLit "../a//b")

end FurOS
